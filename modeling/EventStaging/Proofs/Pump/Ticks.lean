import EventStaging.Proofs.Shared.Calls
import EventStaging.Pump

/-!
# Ticks of a pump

One tick of a pump, and what becomes of it: a pump that has finished has no ticks, the tick of a
closed engine ends the pump, an engine that is not running is skipped, and a running one dispatches
every record. A clock has ticks handled one after the other, whatever it does with the time:
`Pump.start_eq_ticks` and `Pump.exists_ticks_sleep` say so of starting a pump and of letting the
time pass.
-/

namespace EventStaging

namespace Shared

variable {σ : Type} {shared : Shared σ} {engine : Engine σ}

/-- A tick finds nothing to dispatch in a closed engine and says that it is closed. -/
theorem tick_of_closed (h : shared.engine = none) : shared.tick = pure (none, shared) := by
  rw [tick, state, h]
  rfl

/-- An engine that is not running dispatches nothing. -/
theorem tick_of_not_running (h : shared.engine = some engine) (hrunning : ¬ engine.state.isRunning) :
    shared.tick = pure (some 0, shared) := by
  rw [tick, state, h]
  exact if_neg hrunning

/-- A running engine dispatches everything. -/
theorem tick_of_running (h : shared.engine = some engine) (hrunning : engine.state.isRunning) :
    shared.tick =
      (fun done ↦ (some done.1, { shared with engine := some done.2 })) <$> engine.processAll := by
  rw [tick, state, h]
  refine (if_pos hrunning).trans ?_
  rw [processAll, withEngine_of_open h, bind_map_left, ← bind_pure_comp]
  rfl

end Shared

namespace Pump

variable {σ : Type} {shared : Shared σ} {engine : Engine σ} {pump : Pump} {beat : Beat} {now : Nat}

/-! ## Ticks -/

/-- How many records a pump has dispatched. -/
def dispatched : Pump → Nat
  | .beating beat => beat.dispatched
  | .ended dispatched => dispatched
  | .broken => 0

/-- A pump that is spawned at the time `now`, before its first tick. -/
def spawned (interval now : Nat) : Pump :=
  if interval = 0 then .broken else .beating { interval, due := now }

/-- Handles one tick, if it is due at the time `now`. -/
def tick (now : Nat) (pump : Pump) (shared : Shared σ) : Act σ (Pump × Shared σ) :=
  catchUp now 1 pump shared

/-- Handles one tick at each of the given times. -/
def ticks : List Nat → Pump → Shared σ → Act σ (Pump × Shared σ)
  | [], pump, shared => pure (pump, shared)
  | now :: times, pump, shared => do
    let (pump, shared) ← pump.tick now shared
    ticks times pump shared

/-- A pump starts with nothing dispatched. -/
theorem dispatched_spawned (interval now : Nat) : (spawned interval now).dispatched = 0 := by
  unfold spawned
  split <;> rfl

/-- A pump that has finished has no further ticks. -/
theorem catchUp_of_finished (h : pump.isFinished) (limit : Nat) (shared : Shared σ) :
    catchUp now limit pump shared = pure (pump, shared) := by
  cases pump with
  | beating beat => cases h
  | ended count => cases limit <;> rfl
  | broken => cases limit <;> rfl

/-- Nothing is caught up with before it is due. -/
theorem catchUp_of_early (h : ¬ beat.due ≤ now) (limit : Nat) (shared : Shared σ) :
    catchUp now limit (.beating beat) shared = pure (.beating beat, shared) := by
  cases limit with
  | zero => rfl
  | succ limit => rw [catchUp, if_neg h]

/-- A tick is not handled before it is due. -/
theorem tick_of_early (h : ¬ beat.due ≤ now) (shared : Shared σ) :
    tick now (.beating beat) shared = pure (.beating beat, shared) :=
  catchUp_of_early h 1 shared

/-- The tick of a closed engine ends the pump. -/
theorem tick_of_closed (hdue : beat.due ≤ now) (h : shared.engine = none) :
    tick now (.beating beat) shared = (do
      Act.trace (.pumpStopped shared.name beat.dispatched)
      return (.ended beat.dispatched, shared)) := by
  rw [tick, catchUp, if_pos hdue, Shared.tick_of_closed h]
  rfl

/-- An engine that is not running is skipped. -/
theorem tick_of_not_running (hdue : beat.due ≤ now) (h : shared.engine = some engine)
    (hrunning : ¬ engine.state.isRunning) :
    tick now (.beating beat) shared = pure (.beating (beat.next now 0), shared) := by
  rw [tick, catchUp, if_pos hdue, Shared.tick_of_not_running h hrunning]
  rfl

/-- A running engine dispatches every record. -/
theorem tick_of_running (hdue : beat.due ≤ now) (h : shared.engine = some engine)
    (hrunning : engine.state.isRunning) :
    tick now (.beating beat) shared =
      (fun done ↦ (.beating (beat.next now done.1), { shared with engine := some done.2 })) <$>
        engine.processAll := by
  rw [tick, catchUp, if_pos hdue, Shared.tick_of_running h hrunning, bind_map_left,
    ← bind_pure_comp]
  rfl

/-! ## Clocks -/

/-- Ticks at some times and then at others are ticks at all of them in turn. -/
theorem ticks_append (first second : List Nat) (pump : Pump) (shared : Shared σ) :
    ticks (first ++ second) pump shared = (do
      let (pump, shared) ← ticks first pump shared
      ticks second pump shared) := by
  induction first generalizing pump shared with
  | nil => rfl
  | cons now times ih =>
      rw [List.cons_append, ticks, ticks, bind_assoc]
      congr 1
      funext ⟨pump, shared⟩
      exact ih pump shared

/-- Catching up is handling one tick after the other. -/
theorem catchUp_eq_ticks (now limit : Nat) (pump : Pump) (shared : Shared σ) :
    catchUp now limit pump shared = ticks (List.replicate limit now) pump shared := by
  induction limit generalizing pump shared with
  | zero => cases pump <;> rfl
  | succ limit ih =>
      show _ = tick now pump shared >>= fun done ↦ ticks (List.replicate limit now) done.1 done.2
      simp only [← ih]
      by_cases hfinished : pump.isFinished
      · rw [tick, catchUp_of_finished hfinished, catchUp_of_finished hfinished, pure_bind,
          catchUp_of_finished hfinished]
      obtain ⟨beat, rfl⟩ : ∃ beat, pump = .beating beat := by
        cases pump with
        | beating beat => exact ⟨beat, rfl⟩
        | ended count => exact absurd rfl hfinished
        | broken => exact absurd rfl hfinished
      by_cases hdue : beat.due ≤ now
      · rw [tick, catchUp, catchUp, if_pos hdue, if_pos hdue, bind_assoc]
        congr 1
        funext ⟨count, shared⟩
        cases count with
        | some count => rfl
        | none =>
            -- The pump ends at this tick, and so there is nothing left to catch up with.
            have hended : catchUp now limit (.ended beat.dispatched) shared = pure _ :=
              catchUp_of_finished rfl limit shared
            simp only [finish, bind_assoc, pure_bind, hended]
      · rw [tick_of_early hdue, catchUp_of_early hdue, pure_bind, catchUp_of_early hdue]

/-- A clock that jumps has ticks handled at one time. -/
theorem jump_eq_ticks (pump : Pump) (shared : Shared σ) (now : Nat) :
    jump pump shared now = ticks (List.replicate (lateGrace + 2) now) pump shared :=
  catchUp_eq_ticks now _ pump shared

/-- Starting a pump is spawning it and having its first ticks handled. -/
theorem start_eq_ticks (interval now : Nat) (shared : Shared σ) :
    start interval now shared =
      ticks (List.replicate (lateGrace + 2) now) (spawned interval now) shared := by
  rw [← jump_eq_ticks]
  unfold start spawned
  split
  · exact (catchUp_of_finished rfl _ shared).symm
  · rfl

/-- Whatever happens while the time passes is what a list of ticks does. -/
theorem exists_ticks_sleep (pump : Pump) (shared : Shared σ) (start span : Nat) (host : σ) :
    ∃ times, (sleep pump shared start span).run host = (ticks times pump shared).run host := by
  suffices h : ∀ limit pump (shared : Shared σ) host, ∃ times,
      (sleepUpTo (start + span) limit pump shared).run host =
        (ticks times pump shared).run host from
    h (span + 1) pump shared host
  intro limit
  induction limit with
  | zero =>
      intro pump shared host
      refine ⟨[], ?_⟩
      cases pump <;> rfl
  | succ limit ih =>
      intro pump shared host
      cases pump with
      | ended count => exact ⟨[], rfl⟩
      | broken => exact ⟨[], rfl⟩
      | beating beat =>
          by_cases hdue : beat.due ≤ start + span
          · -- The ticks of this beat come first, and then those of the time that is left.
            obtain ⟨times, htimes⟩ := ih
              ((jump (.beating beat) shared beat.due).run host).value.1
              ((jump (.beating beat) shared beat.due).run host).value.2
              ((jump (.beating beat) shared beat.due).run host).host
            refine ⟨List.replicate (lateGrace + 2) beat.due ++ times, ?_⟩
            rw [ticks_append, ← jump_eq_ticks, sleepUpTo, if_pos hdue, Act.run_bind, Act.run_bind,
              htimes]
          · refine ⟨[], ?_⟩
            rw [sleepUpTo, if_neg hdue]
            rfl

end Pump

end EventStaging
