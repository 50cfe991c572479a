import EventStaging.Proofs.Pump.Pumping

/-!
# Ticks that fall together

A tick dispatches everything that waits, so another tick right after it finds nothing to do
(`Shared.tick_twice`), and the ticks between two commands to a service do together what one of them
does (`Pump.run_ticks_of_handled`). Main statement (`Station.coalescing_exact`): nothing that can be
seen tells apart two clocks that bring ticks between the same commands, however many each time. A
clock is given by the times at which a tick is handled if it is due, and `Pump.jump_eq_ticks` and
`Pump.exists_ticks_sleep` say that a clock that jumps or sleeps is one of these.
-/

namespace EventStaging

variable {σ : Type}

/-! ## One tick after another -/

/-- A running engine with nothing queued has nothing to dispatch, and says nothing. -/
theorem Engine.processAll_of_empty {engine : Engine σ} (hrunning : engine.state.isRunning)
    (h : engine.queue.Holds []) : engine.processAll = pure (0, engine) := by
  have hsize : engine.queueSize = 0 := h.length_eq
  rw [processAll_of_running hrunning, hsize]
  rfl

namespace Shared

variable {shared : Shared σ} {engine : Engine σ}

/-- The engine is open, and if it runs then nothing is queued. -/
def Idle (shared : Shared σ) : Prop :=
  ∃ engine, shared.engine = some engine ∧ (engine.state.isRunning → engine.queue.Holds [])

/-- A tick finds nothing to do. -/
theorem Idle.tick_eq (h : shared.Idle) : shared.tick = pure (some 0, shared) := by
  obtain ⟨engine, hopen, hempty⟩ := h
  by_cases hrunning : engine.state.isRunning
  · rw [tick_of_running hopen hrunning, Engine.processAll_of_empty hrunning (hempty hrunning)]
    obtain ⟨name, capacity, engine?⟩ := shared
    cases hopen
    rfl
  · exact tick_of_not_running hopen hrunning

/-- A tick leaves an open engine with nothing to do. -/
theorem idle_tick (hholding : Holding shared.engine) (h : shared.engine = some engine) (host : σ) :
    ((shared.tick.run host).value.1.isSome) ∧ (shared.tick.run host).value.2.Idle := by
  by_cases hrunning : engine.state.isRunning
  · rw [tick_of_running h hrunning]
    refine ⟨rfl, _, rfl, fun _ ↦ ?_⟩
    have hvalue := (engine.processAll_run hrunning host).1
    have hsize : engine.queueSize = engine.queue.toList.length := (hholding engine h).length_eq
    have hrest := ((hholding engine h).popUpTo engine.queueSize).2
    rw [List.drop_of_length_le (Nat.le_of_eq hsize.symm)] at hrest
    show (engine.processAll.run host).value.2.queue.Holds []
    rw [hvalue]
    exact hrest
  · rw [tick_of_not_running h hrunning]
    exact ⟨rfl, engine, h, fun hyes ↦ absurd hyes hrunning⟩

/-- The second of two ticks changes nothing, calls nothing and logs nothing. -/
theorem tick_twice (h : Holding shared.engine) (host : σ) :
    let first := shared.tick.run host
    first.value.2.tick.run first.host =
      ⟨(first.value.1.map fun _ ↦ 0, first.value.2), [], first.host⟩ := by
  intro first
  cases hopen : shared.engine with
  | none =>
      have hfirst : first = ⟨(none, shared), [], host⟩ := by
        show shared.tick.run host = _
        rw [tick_of_closed hopen]
        rfl
      rw [hfirst]
      exact congrArg (·.run host) (tick_of_closed hopen)
  | some engine =>
      obtain ⟨hsome, hidle⟩ := idle_tick h hopen host
      obtain ⟨count, hcount⟩ := Option.isSome_iff_exists.mp hsome
      rw [hidle.tick_eq, hcount]
      rfl

end Shared

/-! ## The ticks of a gap -/

namespace Pump

variable {shared : Shared σ} {engine : Engine σ} {pump : Pump} {beat : Beat} {host : σ}

/-- A pump that is spawned with an interval is at work, and its first tick is due at once. -/
theorem spawned_of_pos {interval : Nat} (h : 0 < interval) (now : Nat) :
    spawned interval now = .beating { interval, due := now } :=
  if_neg (Nat.ne_of_gt h)

/-- When the next tick is due after one that was due at `due` and is handled at the time `now`. -/
def nextDue (interval due now : Nat) : Nat :=
  if now > due + lateGrace then now + interval else due + interval

/-- When the next tick is due after some times at which a tick is handled if it is due. -/
def dueAfter (interval : Nat) : Nat → List Nat → Nat
  | due, [] => due
  | due, now :: times =>
    if due ≤ now then dueAfter interval (nextDue interval due now) times
    else dueAfter interval due times

/-- How many ticks are handled at some times. -/
def handled (interval : Nat) : Nat → List Nat → Nat
  | _, [] => 0
  | due, now :: times =>
    if due ≤ now then handled interval (nextDue interval due now) times + 1
    else handled interval due times

/-- Handles a tick, after which the next one is due at the time `due`. -/
def handle (beat : Beat) (due : Nat) (shared : Shared σ) : Act σ (Pump × Shared σ) := do
  match ← shared.tick with
  | (some count, shared) =>
    return (.beating { beat with due, dispatched := beat.dispatched + count }, shared)
  | (none, shared) => do
    let pump ← finish beat shared
    return (pump, shared)

/-- A tick that is due is handled, and the next one is due by the rule for late ticks. -/
theorem tick_of_due {now : Nat} (h : beat.due ≤ now) (shared : Shared σ) :
    tick now (.beating beat) shared = handle beat (nextDue beat.interval beat.due now) shared := by
  rw [tick, catchUp, if_pos h]
  rfl

/-- Ticks are handled one after the other. -/
theorem ticks_cons (now : Nat) (times : List Nat) (pump : Pump) (shared : Shared σ) :
    ticks (now :: times) pump shared =
      tick now pump shared >>= fun done ↦ ticks times done.1 done.2 :=
  rfl

/-- A pump that has finished has no ticks in a gap. -/
theorem ticks_of_finished (h : pump.isFinished) (times : List Nat) (shared : Shared σ) :
    ticks times pump shared = pure (pump, shared) := by
  induction times with
  | nil => rfl
  | cons now times ih => rw [ticks_cons, tick, catchUp_of_finished h, pure_bind, ih]

/-- The ticks on an engine with nothing to do move the beat on, and that is all. -/
theorem ticks_of_idle (h : shared.Idle) (times : List Nat) (beat : Beat) :
    ticks times (.beating beat) shared =
      pure (.beating { beat with due := dueAfter beat.interval beat.due times }, shared) := by
  induction times generalizing beat with
  | nil => rfl
  | cons now times ih =>
      by_cases hdue : beat.due ≤ now
      · rw [ticks_cons, tick_of_due hdue, handle, h.tick_eq, dueAfter, if_pos hdue]
        exact ih { beat with due := nextDue beat.interval beat.due now }
      · rw [ticks_cons, tick_of_early hdue, pure_bind, ih, dueAfter, if_neg hdue]

/-- A gap in which no tick is handled leaves everything as it is. -/
theorem ticks_of_unhandled {times : List Nat} (h : handled beat.interval beat.due times = 0)
    (shared : Shared σ) :
    ticks times (.beating beat) shared = pure (.beating beat, shared) ∧
      dueAfter beat.interval beat.due times = beat.due := by
  induction times with
  | nil => exact ⟨rfl, rfl⟩
  | cons now times ih =>
      by_cases hdue : beat.due ≤ now
      · rw [handled, if_pos hdue] at h
        cases h
      · rw [handled, if_neg hdue] at h
        rw [ticks_cons, tick_of_early hdue, pure_bind, dueAfter, if_neg hdue]
        exact ih h

/-- The ticks that are handled in a gap do together what one of them does. -/
theorem run_ticks_of_handled (hholding : Holding shared.engine) {times : List Nat}
    (h : 0 < handled beat.interval beat.due times) (host : σ) :
    (ticks times (.beating beat) shared).run host =
      (handle beat (dueAfter beat.interval beat.due times) shared).run host := by
  induction times with
  | nil => cases h
  | cons now times ih =>
      by_cases hdue : beat.due ≤ now
      · rw [ticks_cons, tick_of_due hdue, dueAfter, if_pos hdue, Act.run_bind]
        cases hopen : shared.engine with
        | none =>
            simp only [handle, Shared.tick_of_closed hopen, pure_bind, finish]
            simp only [Act.run_bind, Act.run_pure, Act.run_trace,
              ticks_of_finished (show (Pump.ended beat.dispatched).isFinished from rfl)]
            rfl
        | some engine =>
            -- After the first tick that is due the queue is empty, so those that follow do nothing.
            obtain ⟨hsome, hidle⟩ := Shared.idle_tick hholding hopen host
            obtain ⟨count, hcount⟩ := Option.isSome_iff_exists.mp hsome
            generalize htick : shared.tick.run host = done at hidle hcount
            obtain ⟨⟨_, shared'⟩, journal, host'⟩ := done
            subst hcount
            simp only [handle, Act.run_bind, htick, Act.run_pure]
            rw [ticks_of_idle hidle]
            simp
      · rw [handled, if_neg hdue] at h
        rw [ticks_cons, tick_of_early hdue, pure_bind, dueAfter, if_neg hdue]
        exact ih h

/-! ## Two clocks -/

/-- Two pumps that differ in their clocks only. -/
inductive Alike : Pump → Pump → Prop where
  | beating {one other : Beat} (dispatched : one.dispatched = other.dispatched) :
    Alike (.beating one) (.beating other)
  | ended (count : Nat) : Alike (.ended count) (.ended count)

/-- The clock of a pump, if it is at work, stands as it is said. -/
def Keeps (interval due : Nat) (pump : Pump) : Prop :=
  ∀ beat, pump = .beating beat → beat.interval = interval ∧ beat.due = due

/-- Two pumps have done the same, but for their clocks: the engine and the host are left in one
state, and the same is observed. -/
structure Agree (one other : Done σ (Pump × Shared σ)) : Prop where
  pumps : Alike one.value.1 other.value.1
  shared_eq : one.value.2 = other.value.2
  journal_eq : one.journal = other.journal
  host_eq : one.host = other.host

variable {one other : Pump} {interval due otherInterval otherDue : Nat}
  {times otherTimes : List Nat}

/-- Pumps that differ in their clocks only have both finished, or neither. -/
theorem Alike.finished_eq (h : Alike one other) : one.isFinished = other.isFinished := by
  cases h <;> rfl

/-- The clock of a pump at work stands as its beat says. -/
theorem keeps_beating (beat : Beat) : Keeps beat.interval beat.due (.beating beat) := by
  rintro other ⟨⟩
  exact ⟨rfl, rfl⟩

/-- The clock of a pump that has ended may stand as it will. -/
theorem keeps_ended (interval due count : Nat) : Keeps interval due (.ended count) := by
  intro beat hbeat
  cases hbeat

/-- A tick keeps the interval, and the pump is due next when it was told. -/
theorem keeps_handle (beat : Beat) (due : Nat) (shared : Shared σ) (host : σ) :
    Keeps beat.interval due ((handle beat due shared).run host).value.1 := by
  simp only [handle, Act.value_bind]
  split
  · exact keeps_beating _
  · exact keeps_ended _ _ _

/-- A tick does the same, whatever the clock. -/
theorem agree_handle {beat otherBeat : Beat} (h : beat.dispatched = otherBeat.dispatched)
    (due otherDue : Nat) (shared : Shared σ) (host : σ) :
    Agree ((handle beat due shared).run host) ((handle otherBeat otherDue shared).run host) := by
  unfold handle
  rw [Act.run_bind, Act.run_bind]
  rcases (shared.tick.run host).value with ⟨_ | count, shared⟩
  case none =>
      simp only [finish, h]
      exact ⟨.ended _, rfl, rfl, rfl⟩
  case some => exact ⟨.beating (congrArg (· + count) h), rfl, rfl, rfl⟩

/-- The clock of a pump after a gap. -/
theorem keeps_ticks (hholding : Holding shared.engine) (h : Keeps interval due pump)
    (times : List Nat) (host : σ) :
    Keeps interval (dueAfter interval due times)
      ((ticks times pump shared).run host).value.1 := by
  cases pump with
  | beating beat =>
      obtain ⟨rfl, rfl⟩ := h beat rfl
      rcases Nat.eq_zero_or_pos (handled beat.interval beat.due times) with hzero | hpos
      · obtain ⟨hticks, hdue⟩ := ticks_of_unhandled hzero shared
        rw [hticks, hdue]
        exact h
      · rw [run_ticks_of_handled hholding hpos]
        exact keeps_handle beat _ shared host
  | ended count =>
      rw [ticks_of_finished rfl]
      exact keeps_ended _ _ count
  | broken =>
      rw [ticks_of_finished rfl]
      rintro beat ⟨⟩

/-- The ticks of a gap do the same for two pumps if there are any for both or for none. -/
theorem agree_ticks (hholding : Holding shared.engine) (halike : Alike one other)
    (hone : Keeps interval due one) (hother : Keeps otherInterval otherDue other)
    (hgap : 0 < handled interval due times ↔ 0 < handled otherInterval otherDue otherTimes)
    (host : σ) :
    Agree ((ticks times one shared).run host) ((ticks otherTimes other shared).run host) := by
  cases halike with
  | ended count =>
      rw [ticks_of_finished rfl, ticks_of_finished rfl]
      exact ⟨.ended count, rfl, rfl, rfl⟩
  | beating hdispatched =>
      obtain ⟨rfl, rfl⟩ := hone _ rfl
      obtain ⟨rfl, rfl⟩ := hother _ rfl
      rcases Nat.eq_zero_or_pos (handled _ _ times) with hzero | hpos
      · have hotherZero := Nat.eq_zero_of_not_pos fun hpos ↦
          Nat.ne_of_gt (hgap.mpr hpos) hzero
        rw [(ticks_of_unhandled hzero shared).1, (ticks_of_unhandled hotherZero shared).1]
        exact ⟨.beating hdispatched, rfl, rfl, rfl⟩
      · rw [run_ticks_of_handled hholding hpos, run_ticks_of_handled hholding (hgap.mp hpos)]
        exact agree_handle hdispatched _ _ shared host

end Pump

/-! ## Runs with a schedule -/

namespace Station

/-- What can be seen of a part of a run: what is answered, other than to ticks, what is called,
logged and reported, the service in the end, with the engine behind it, the host with the metrics
that are kept there, and which of the pumps have come to their end. -/
structure View (σ : Type) where
  answers : List Answer
  journal : Journal
  service : Service σ
  host : σ
  finished : List Bool

/-- What can be seen while some commands are carried out. -/
def view (state : Hosted (Station σ) σ) (commands : List Command) : View σ :=
  let turns := (system σ).history state commands
  let last := (system σ).final state commands
  { answers := (turns.filter fun turn ↦ !turn.command.isTick).map Turn.answer
    journal := turns.flatMap Turn.journal
    service := last.object.service
    host := last.host
    finished := last.object.pumps.map Pump.isFinished }

/-- What can be seen of each part of a run. -/
def views (state : Hosted (Station σ) σ) : List (List Command) → List (View σ)
  | [] => []
  | part :: parts => view state part :: views ((system σ).final state part) parts

/-- The parts of a run in which a service carries operations out while a pump is at work, which is
shut down in the end. `gaps` gives the times in the gap before each operation, and before the pump
is shut down, at which a tick is handled if it is due. -/
def parts (gaps : Nat → List Nat) : List Service.Command → List (List Command)
  | [] => [(gaps 0).map (.tick 0), [.shutdown 0]]
  | op :: ops => (gaps 0).map (.tick 0) :: [.serve op] :: parts (fun gap ↦ gaps (gap + 1)) ops

/-- How many ticks are handled in each gap by a pump with that interval whose first tick is due at
the time `due`. -/
def ticksIn (interval due : Nat) (gaps : Nat → List Nat) : Nat → Nat
  | 0 => Pump.handled interval due (gaps 0)
  | gap + 1 =>
    ticksIn interval (Pump.dueAfter interval due (gaps 0)) (fun gap ↦ gaps (gap + 1)) gap

/-- A jump of the clock brings one tick where three fell due, and the next is due a whole interval
later. -/
example : (List.range 3).map (ticksIn 10 0 fun gap ↦ [[0], [35, 35, 35], [44, 45]].getD gap []) =
    [1, 1, 1] := by
  decide

variable {service : Service σ} {pump one other : Pump} {host : σ} {times : List Nat}
  {state : Hosted (Station σ) σ}

/-- After any run the ring of the engine holds a list, or the engine is closed. -/
theorem holding_final (state : Hosted (Station σ) σ)
    (h : Holding state.object.service.shared.engine) (commands : List Command) :
    Holding ((system σ).final state commands).object.service.shared.engine := by
  induction commands generalizing state with
  | nil => exact h
  | cons command commands ih => exact ih _ (conduct_turn h command).1.holding

/-- A tick of the only pump of a station does what the tick does. -/
theorem turn_tick (service : Service σ) (pump : Pump) (host : σ) (now : Nat) :
    let done := (pump.tick now service.shared).run host
    (system σ).turn ⟨⟨service, [pump]⟩, host⟩ (.tick 0 now) =
      { before := ⟨⟨service, [pump]⟩, host⟩, command := .tick 0 now, answer := .silent,
        journal := done.journal,
        after := ⟨⟨{ service with shared := done.value.2 }, [done.value.1]⟩, done.host⟩ } := by
  intro done
  have hpump : (Station.mk service [pump]).pumps[0]? = some pump := rfl
  simp only [System.turn, system, System.ofAct, execute_tick hpump, Act.run_map]
  rfl

/-- What is seen of a tick and what follows. -/
theorem view_tick_cons (state : Hosted (Station σ) σ) (index now : Nat) (commands : List Command) :
    let tick := (system σ).turn state (.tick index now)
    let rest := view tick.after commands
    view state (.tick index now :: commands) = { rest with journal := tick.journal ++ rest.journal } :=
  rfl

/-- A gap has its ticks handled, one after the other. -/
theorem run_gap (times : List Nat) (service : Service σ) (pump : Pump) (host : σ) :
    let state : Hosted (Station σ) σ := ⟨⟨service, [pump]⟩, host⟩
    let done := (pump.ticks times service.shared).run host
    let last : Hosted (Station σ) σ :=
      ⟨⟨{ service with shared := done.value.2 }, [done.value.1]⟩, done.host⟩
    (system σ).final state (times.map (.tick 0)) = last ∧
      view state (times.map (.tick 0)) =
        ⟨[], done.journal, last.object.service, done.host, [done.value.1.isFinished]⟩ := by
  induction times generalizing service pump host with
  | nil => exact ⟨rfl, rfl⟩
  | cons now times ih =>
      let first := (pump.tick now service.shared).run host
      obtain ⟨hfinal, hview⟩ :=
        ih { service with shared := first.value.2 } first.value.1 first.host
      rw [List.map_cons]
      refine ⟨?_, ?_⟩
      · rw [System.final, turn_tick]
        exact hfinal
      · rw [view_tick_cons, turn_tick]
        exact congrArg (fun rest : View σ ↦ { rest with journal := first.journal ++ rest.journal })
          hview

/-- What can be seen of a gap in which two pumps do the same. -/
theorem view_gap {otherTimes : List Nat}
    (h : Pump.Agree ((one.ticks times service.shared).run host)
      ((other.ticks otherTimes service.shared).run host)) :
    view ⟨⟨service, [one]⟩, host⟩ (times.map (.tick 0)) =
      view ⟨⟨service, [other]⟩, host⟩ (otherTimes.map (.tick 0)) := by
  rw [(run_gap times service one host).2, (run_gap otherTimes service other host).2]
  simp only [h.journal_eq, h.shared_eq, h.host_eq, h.pumps.finished_eq]

/-- Two pumps that differ in their clocks are shut down alike. -/
theorem view_shutdown (h : Pump.Alike one other) (service : Service σ) (host : σ) :
    view ⟨⟨service, [one]⟩, host⟩ [.shutdown 0] = view ⟨⟨service, [other]⟩, host⟩ [.shutdown 0] := by
  cases h with
  | @beating beat otherBeat hdispatched =>
      obtain ⟨interval, due, count⟩ := beat
      obtain ⟨otherInterval, otherDue, otherCount⟩ := otherBeat
      obtain rfl : count = otherCount := hdispatched
      rfl
  | ended count => rfl

/-- An operation does not depend on the clock of a pump. -/
theorem view_serve (h : Pump.Alike one other) (service : Service σ) (op : Service.Command)
    (host : σ) :
    view ⟨⟨service, [one]⟩, host⟩ [.serve op] = view ⟨⟨service, [other]⟩, host⟩ [.serve op] := by
  cases h <;> rfl

/-- Nothing that can be seen tells apart two pumps whose clocks bring ticks in the same gaps. -/
theorem views_eq (hholding : Holding service.shared.engine) (halike : Pump.Alike one other)
    {interval due otherInterval otherDue : Nat} (hone : Pump.Keeps interval due one)
    (hother : Pump.Keeps otherInterval otherDue other) {gaps otherGaps : Nat → List Nat}
    (ops : List Service.Command)
    (hgaps : ∀ gap ≤ ops.length,
      0 < ticksIn interval due gaps gap ↔ 0 < ticksIn otherInterval otherDue otherGaps gap)
    (host : σ) :
    views ⟨⟨service, [one]⟩, host⟩ (parts gaps ops) =
      views ⟨⟨service, [other]⟩, host⟩ (parts otherGaps ops) := by
  -- By induction on the commands: after each gap the two pumps agree again, whatever ticks were in
  -- it, so the rest of the run starts from agreeing stations.
  induction ops generalizing service one other interval due otherInterval otherDue gaps otherGaps
    host with
  | nil =>
      have hagree := Pump.agree_ticks hholding halike hone hother (hgaps 0 (Nat.zero_le _)) host
      rw [parts, parts, views, views, views, views, views, views, view_gap hagree,
        (run_gap (gaps 0) service one host).1, (run_gap (otherGaps 0) service other host).1,
        hagree.shared_eq, hagree.host_eq, view_shutdown hagree.pumps]
  | cons op ops ih =>
      have hagree := Pump.agree_ticks hholding halike hone hother (hgaps 0 (Nat.zero_le _)) host
      have hkeeps := Pump.keeps_ticks hholding hone (gaps 0) host
      have hotherKeeps := Pump.keeps_ticks hholding hother (otherGaps 0) host
      have hlast := holding_final ⟨⟨service, [one]⟩, host⟩ hholding
        ((gaps 0).map (.tick 0) ++ [.serve op])
      rw [System.final_append, (run_gap (gaps 0) service one host).1] at hlast
      rw [parts, parts, views, views, views, views, view_gap hagree,
        (run_gap (gaps 0) service one host).1, (run_gap (otherGaps 0) service other host).1,
        ← hagree.shared_eq, ← hagree.host_eq, view_serve hagree.pumps]
      congr 2
      exact ih hlast hagree.pumps hkeeps hotherKeeps
        (fun gap hgap ↦ hgaps (gap + 1) (Nat.succ_le_succ hgap)) _

/-- Ticks that are missed or fall together lose nothing. A service has been given commands, directly
or past it, beside pumps that come and go; then

* another tick right after a tick changes neither the engine nor the host, calls nothing and logs
  nothing, and the engine is closed for both or for none;
* let a pump be spawned and work while the service carries operations out, and let it be shut down in
  the end. The clock decides when ticks are handled. If two clocks have ticks handled in the same of
  the gaps between operations, one or more in each of these, then nothing that can be seen tells the
  two runs apart, be it in a gap, while an operation is carried out, or in the end: the answers, the
  calls and the lines of the log in their order, the service with its engine, the host with the
  metrics, whether the pump has ended, and how many records it says it has dispatched. -/
theorem coalescing_exact (config : Config σ) (threshold : Float) (metrics : Cell σ Metrics)
    (host : σ) (earlier : List Command) :
    let start : Hosted (Station σ) σ :=
      ⟨{ service := { shared := .ofEngine (.ofConfig config), threshold, metrics } }, host⟩
    let state := (system σ).final start earlier
    let service := state.object.service
    let first := service.shared.tick.run state.host
    first.value.2.tick.run first.host =
        ⟨(first.value.1.map fun _ ↦ 0, first.value.2), [], first.host⟩ ∧
      ∀ (ops : List Service.Command) (interval now otherInterval otherNow : Nat)
        (gaps otherGaps : Nat → List Nat), 0 < interval → 0 < otherInterval →
        (∀ gap ≤ ops.length, 0 < ticksIn interval now gaps gap ↔
          0 < ticksIn otherInterval otherNow otherGaps gap) →
        views ⟨⟨service, [.spawned interval now]⟩, state.host⟩ (parts gaps ops) =
          views ⟨⟨service, [.spawned otherInterval otherNow]⟩, state.host⟩
            (parts otherGaps ops) := by
  intro start state service first
  have hholding : Holding service.shared.engine :=
    (kept_history config threshold metrics host earlier).conducts.holding
  refine ⟨Shared.tick_twice hholding state.host, ?_⟩
  intro ops interval now otherInterval otherNow gaps otherGaps hpos hotherPos hgaps
  have hspawned := Pump.spawned_of_pos hpos now
  have hotherSpawned := Pump.spawned_of_pos hotherPos otherNow
  refine views_eq hholding ?_ (hspawned ▸ Pump.keeps_beating _) (hotherSpawned ▸ Pump.keeps_beating _)
    ops hgaps state.host
  rw [hspawned, hotherSpawned]
  exact .beating rfl

end Station

end EventStaging
