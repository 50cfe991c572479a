import EventStaging.Doubles.Bench
import EventStaging.Proofs.Pump.Ticks
import EventStaging.Proofs.Service.Steps

/-!
# Pumps beside a service

A service with the pumps that work on its engine, as a system in which a tick of a pump may fall
between any two commands. Every turn conducts its steps (`Station.conduct_turn`) and adds to the
count of a pump what its ticks dispatch (`Station.count_turn`), and `Station.pumping_exact` is what
this says of a whole run. Starting a pump is spawning it and having ticks handled
(`Pump.start_eq_ticks`), and letting the time pass is having ticks handled
(`Pump.exists_ticks_sleep`).
-/

namespace EventStaging

/-- A service with the pumps that work on its engine, in the order in which they were spawned. -/
structure Station (σ : Type) where
  service : Service σ
  pumps : List Pump := []

namespace Station

variable {σ : Type}

/-! ## The system -/

/-- What can happen between a service and the pumps that work on its engine. The service is given a
command, which may go to the engine directly; a pump is spawned, handles one tick if it is due, is
shut down and says how many records it has dispatched, or is let go of. A pump is given by the
number under which it was spawned. -/
inductive Command where
  | serve (command : Service.Command)
  | spawn (interval now : Nat)
  | tick (index now : Nat)
  | shutdown (index : Nat)
  | release (index : Nat)

/-- What is answered: the answer of the service, how many records a pump has dispatched, or nothing.
-/
inductive Answer where
  | served (answer : Service.Answer)
  | counted (dispatched : Nat)
  | silent

/-- Works with the pump of a number, if there is one, on the engine of the service. -/
def withPump (station : Station σ) (index : Nat)
    (work : Pump → Act σ (Answer × Pump × Shared σ)) : Act σ (Answer × Station σ) :=
  match station.pumps[index]? with
  | none => pure (.silent, station)
  | some pump => do
    let (answer, pump, shared) ← work pump
    return (answer, ⟨{ station.service with shared }, station.pumps.set index pump⟩)

/-- Carries a command out. -/
def execute (station : Station σ) : Command → Act σ (Answer × Station σ)
  | .serve command =>
    Prod.map .served (fun service ↦ { station with service }) <$> station.service.execute command
  | .spawn interval now =>
    pure (.silent, { station with pumps := station.pumps ++ [.spawned interval now] })
  | .tick index now => station.withPump index fun pump ↦
    (Answer.silent, ·) <$> pump.tick now station.service.shared
  | .shutdown index => station.withPump index fun pump ↦
    (fun count ↦ (.counted count, .ended pump.dispatched, station.service.shared)) <$>
      pump.shutdown station.service.shared
  | .release index => station.withPump index fun pump ↦
    (fun _ ↦ (.silent, .ended pump.dispatched, station.service.shared)) <$>
      pump.release station.service.shared

/-- A service with pumps as a system that is given commands. -/
def system (σ : Type) : System (Hosted (Station σ) σ) Command Answer Journal := .ofAct execute

/-! ## Who dispatches what -/

/-- The step that a tick is: every record is dispatched, if the pump is at work and the tick due,
and the engine is open and running. -/
def tickSteps (station : Station σ) (index now : Nat) (host : σ) : List (Step σ) :=
  match station.pumps[index]?, station.service.shared.engine with
  | some (.beating beat), some engine =>
    if beat.due ≤ now ∧ engine.state.isRunning then [engine.step .processAll host] else []
  | _, _ => []

/-- The steps of the engine while a command is carried out. -/
def stepsIn (station : Station σ) (command : Command) (host : σ) : List (Step σ) :=
  match command with
  | .serve command => station.service.stepsIn command host
  | .tick index now => station.tickSteps index now host
  | .spawn .. | .shutdown _ | .release _ => []

/-- The steps of the engine in a turn. -/
def stepsOf (turn : Turn (Hosted (Station σ) σ) Command Answer Journal) : List (Step σ) :=
  turn.before.object.stepsIn turn.command turn.before.host

/-- Whether a command is a tick of the pump of that number. -/
def Command.isTickOf (index : Nat) : Command → Bool
  | .tick other _ => other == index
  | _ => false

/-- Whether a command is a tick, of whatever pump. -/
def Command.isTick : Command → Bool
  | .tick .. => true
  | _ => false

/-- Whether a command goes to the service. -/
def Command.isServed : Command → Bool
  | .serve _ => true
  | _ => false

/-- The records that turns dispatched on the commands of a kind. -/
def dispatchedOn (kind : Command → Bool)
    (turns : List (Turn (Hosted (Station σ) σ) Command Answer Journal)) : List Record :=
  turns.flatMap fun turn ↦ if kind turn.command then Engine.dispatched (stepsOf turn) else []

/-- How many records the pump of a number has dispatched. -/
def count (station : Station σ) (index : Nat) : Nat :=
  station.pumps[index]?.elim 0 Pump.dispatched

variable {state : Hosted (Station σ) σ} {index now : Nat} {beat : Beat} {pump : Pump}
  {engine : Engine σ}

/-! ## One turn -/

/-- Without such a pump nothing is done. -/
theorem withPump_of_none {station : Station σ} (h : station.pumps[index]? = none)
    (work : Pump → Act σ (Answer × Pump × Shared σ)) :
    station.withPump index work = pure (.silent, station) := by
  rw [withPump, h]

/-- What is done with a pump leaves another pump in its place. -/
theorem withPump_of_some {station : Station σ} (h : station.pumps[index]? = some pump)
    (work : Pump → Act σ (Answer × Pump × Shared σ)) :
    station.withPump index work =
      (fun done ↦ (done.1,
        ⟨{ station.service with shared := done.2.2 }, station.pumps.set index done.2.1⟩)) <$>
        work pump := by
  rw [withPump, h, ← bind_pure_comp]

/-- A tick goes to the pump of that number. -/
theorem execute_tick {station : Station σ} (h : station.pumps[index]? = some pump) (now : Nat) :
    station.execute (.tick index now) =
      (fun done ↦ (.silent,
        ⟨{ station.service with shared := done.2 }, station.pumps.set index done.1⟩)) <$>
        pump.tick now station.service.shared := by
  rw [execute, withPump_of_some h, Functor.map_map]

/-- What a tick can be: it is missed, because there is no such pump at work or the tick is not due;
it ends the pump, because the engine is closed; it skips the engine, which is not running; or it has
all records dispatched. -/
inductive Ticks (state : Hosted (Station σ) σ) (index now : Nat) :
    List (Step σ) → Journal → Hosted (Station σ) σ → Prop where
  | missed
    (early : ∀ beat, state.object.pumps[index]? = some (.beating beat) → ¬ beat.due ≤ now) :
    Ticks state index now [] [] state
  | ends (beat : Beat) (atWork : state.object.pumps[index]? = some (.beating beat))
    (due : beat.due ≤ now) (closed : state.object.service.shared.engine = none) :
    Ticks state index now []
      [.traced (.pumpStopped state.object.service.shared.name beat.dispatched)]
      ⟨{ state.object with pumps := state.object.pumps.set index (.ended beat.dispatched) },
        state.host⟩
  | skips (beat : Beat) (engine : Engine σ)
    (atWork : state.object.pumps[index]? = some (.beating beat)) (due : beat.due ≤ now)
    (opened : state.object.service.shared.engine = some engine)
    (stopped : ¬ engine.state.isRunning) :
    Ticks state index now [] []
      ⟨{ state.object with pumps := state.object.pumps.set index (.beating (beat.next now 0)) },
        state.host⟩
  | drains (beat : Beat) (engine : Engine σ)
    (atWork : state.object.pumps[index]? = some (.beating beat)) (due : beat.due ≤ now)
    (opened : state.object.service.shared.engine = some engine)
    (running : engine.state.isRunning) :
    Ticks state index now [engine.step .processAll state.host]
      (engine.step .processAll state.host).journal
      ⟨⟨state.object.service.withEngine (engine.step .processAll state.host).after,
        state.object.pumps.set index (.beating (beat.next now
          (Engine.dispatched [engine.step .processAll state.host]).length))⟩,
        (engine.step .processAll state.host).host⟩

/-- A tick that is not due is no step. -/
theorem tickSteps_of_early {station : Station σ}
    (h : ∀ beat, station.pumps[index]? = some (.beating beat) → ¬ beat.due ≤ now) (host : σ) :
    station.tickSteps index now host = [] := by
  unfold tickSteps
  split
  · rename_i beat engine hpump hopen
    exact if_neg fun hdue ↦ h beat hpump hdue.1
  · rfl

/-- A tick on a closed engine is no step. -/
theorem tickSteps_of_closed {station : Station σ} (h : station.service.shared.engine = none)
    (host : σ) : station.tickSteps index now host = [] := by
  rw [tickSteps, h]
  split <;> first | rfl | contradiction

/-- A tick that is due has a running engine dispatch everything, and is no step otherwise. -/
theorem tickSteps_of_open {station : Station σ}
    (hpump : station.pumps[index]? = some (.beating beat))
    (hopen : station.service.shared.engine = some engine) (host : σ) :
    station.tickSteps index now host =
      if beat.due ≤ now ∧ engine.state.isRunning then [engine.step .processAll host] else [] := by
  rw [tickSteps, hpump, hopen]

/-- A running engine dispatches every record in one step and counts them. -/
theorem run_processAll_of_running (hrunning : engine.state.isRunning) (host : σ) :
    let step := engine.step .processAll host
    engine.processAll.run host =
      ⟨((Engine.dispatched [step]).length, step.after), step.journal, step.host⟩ := by
  intro step
  have hstep : step = _ := Engine.step_of_apply_eq engine.apply_processAll host
  have hremoved : step.removed = (engine.queue.popUpTo engine.queueSize).1.map .dispatched :=
    if_pos hrunning
  have hcount : (engine.processAll.run host).value.1 = (Engine.dispatched [step]).length := by
    rw [Engine.dispatched_of_dispatched hremoved, (Engine.processAll_run hrunning host).1]
  rw [← hcount, hstep]
  rfl

/-- A tick that is missed changes nothing. -/
theorem execute_tick_of_early {station : Station σ}
    (h : ∀ beat, station.pumps[index]? = some (.beating beat) → ¬ beat.due ≤ now) :
    station.execute (.tick index now) = pure (.silent, station) := by
  cases hpump : station.pumps[index]? with
  | none => rw [execute, withPump_of_none hpump]
  | some pump =>
      have htick : pump.tick now station.service.shared = pure (pump, station.service.shared) := by
        cases pump with
        | beating beat => exact Pump.tick_of_early (h beat hpump) _
        | ended count => exact Pump.catchUp_of_finished rfl 1 _
        | broken => exact Pump.catchUp_of_finished rfl 1 _
      -- The pump is put back where it was.
      have hset : station.pumps.set index pump = station.pumps := by
        obtain ⟨hindex, rfl⟩ := List.getElem?_eq_some_iff.mp hpump
        exact List.set_getElem_self hindex
      rw [execute_tick hpump, htick, map_pure, hset]

/-- A turn that is a tick is one of the things that a tick can be. -/
theorem ticks_turn (state : Hosted (Station σ) σ) (index now : Nat) :
    let turn := (system σ).turn state (.tick index now)
    Ticks state index now (stepsOf turn) turn.journal turn.after := by
  show Ticks state index now (state.object.tickSteps index now state.host)
    ((state.object.execute (.tick index now)).run state.host).journal
    ⟨((state.object.execute (.tick index now)).run state.host).value.2,
      ((state.object.execute (.tick index now)).run state.host).host⟩
  -- Whether the tick is due is asked before the engine is, so an early tick says nothing of it.
  by_cases hearly : ∀ beat, state.object.pumps[index]? = some (.beating beat) → ¬ beat.due ≤ now
  · rw [tickSteps_of_early hearly, execute_tick_of_early hearly]
    exact .missed hearly
  obtain ⟨beat, hpump, hdue⟩ : ∃ beat, state.object.pumps[index]? = some (.beating beat) ∧
      beat.due ≤ now := by
    simpa using hearly
  rw [execute_tick hpump]
  cases hopen : state.object.service.shared.engine with
  | none =>
      rw [tickSteps_of_closed hopen, Pump.tick_of_closed hdue hopen]
      exact .ends beat hpump hdue hopen
  | some engine =>
      rw [tickSteps_of_open hpump hopen]
      by_cases hrunning : engine.state.isRunning
      · rw [if_pos ⟨hdue, hrunning⟩, Pump.tick_of_running hdue hopen hrunning, Act.run_map,
          Act.run_map, run_processAll_of_running hrunning]
        exact .drains beat engine hpump hdue hopen hrunning
      · rw [if_neg fun h ↦ hrunning h.2, Pump.tick_of_not_running hdue hopen hrunning]
        exact .skips beat engine hpump hdue hopen hrunning

/-- A pump that is shut down says how many records it has dispatched, and the engine stays as it
is. -/
theorem run_shutdown {station : Station σ} (h : station.pumps[index]? = some pump) (host : σ) :
    ∃ events : List Trace.Event, (station.execute (.shutdown index)).run host =
      ⟨(.counted pump.dispatched,
        ⟨station.service, station.pumps.set index (.ended pump.dispatched)⟩),
        events.map .traced, host⟩ := by
  rw [execute, withPump_of_some h, Functor.map_map]
  cases pump with
  | beating beat => exact ⟨[.pumpStopped station.service.shared.name beat.dispatched], rfl⟩
  | ended count => exact ⟨[], rfl⟩
  | broken => exact ⟨[.pumpFailed], rfl⟩

/-- Letting go of a pump ends it and reports so at most. -/
theorem run_release {station : Station σ} (h : station.pumps[index]? = some pump) (host : σ) :
    ∃ events : List Trace.Event, (station.execute (.release index)).run host =
      ⟨(.silent, ⟨station.service, station.pumps.set index (.ended pump.dispatched)⟩),
        events.map .traced, host⟩ := by
  rw [execute, withPump_of_some h, Functor.map_map]
  cases pump with
  | beating beat => exact ⟨[.pumpStopped station.service.shared.name beat.dispatched], rfl⟩
  | ended count => exact ⟨[], rfl⟩
  | broken => exact ⟨[], rfl⟩

theorem answer_shutdown {station : Station σ} (h : station.pumps[index]? = some pump) (host : σ) :
    ((system σ).turn ⟨station, host⟩ (.shutdown index)).answer =
      .counted (station.count index) := by
  obtain ⟨events, hrun⟩ := run_shutdown h host
  rw [count, h]
  unfold System.turn system System.ofAct
  simp only [hrun]
  rfl

/-- A command ends a pump. -/
inductive Command.Stops (index : Nat) : Command → Prop where
  | shutdown : Stops index (.shutdown index)
  | release : Stops index (.release index)

/-- A command that ends a pump keeps its count and lets the engine be. -/
theorem turn_of_stops {command : Command} (h : command.Stops index) (state : Hosted (Station σ) σ) :
    let turn := (system σ).turn state command
    turn.journal.Only Observation.isReport ∧
      (turn.after = state ∨ ∃ pump, state.object.pumps[index]? = some pump ∧ turn.after =
        ⟨⟨state.object.service, state.object.pumps.set index (.ended pump.dispatched)⟩,
          state.host⟩) := by
  unfold System.turn system System.ofAct
  cases hpump : state.object.pumps[index]? with
  | none =>
      have hexecute : state.object.execute command = pure (.silent, state.object) := by
        cases h <;> exact withPump_of_none hpump _
      simp only [hexecute]
      exact ⟨.nil, .inl rfl⟩
  | some pump =>
      cases h with
      | shutdown =>
          obtain ⟨events, hrun⟩ := run_shutdown hpump state.host
          simp only [hrun]
          exact ⟨.traced events, .inr ⟨pump, rfl, rfl⟩⟩
      | release =>
          obtain ⟨events, hrun⟩ := run_release hpump state.host
          simp only [hrun]
          exact ⟨.traced events, .inr ⟨pump, rfl, rfl⟩⟩

/-- A command that ends a pump lets the service be, and the host. -/
theorem service_of_stops {command : Command} (h : command.Stops index)
    (state : Hosted (Station σ) σ) :
    ((system σ).turn state command).after.object.service = state.object.service ∧
      ((system σ).turn state command).after.host = state.host := by
  obtain ⟨-, hafter | ⟨pump, -, hafter⟩⟩ := turn_of_stops h state
  · rw [hafter]
    exact ⟨rfl, rfl⟩
  · rw [hafter]
    exact ⟨rfl, rfl⟩

/-! ## What a turn keeps -/

/-- What a service does in a turn: its state after the turn, with what was observed. -/
def served (turn : Turn (Hosted (Station σ) σ) Command Answer Journal) :
    Done σ (Unit × Service σ) :=
  ⟨((), turn.after.object.service), turn.journal, turn.after.host⟩

theorem Ticks.conduct {steps : List (Step σ)} {journal : Journal} {after : Hosted (Station σ) σ}
    (hticks : Ticks state index now steps journal after)
    (h : Holding state.object.service.shared.engine) :
    Service.Conduct state.object.service steps
      ⟨((), after.object.service), journal, after.host⟩ := by
  cases hticks with
  | missed _ => exact .idle h rfl .nil
  | ends beat _ _ _ => exact .idle h rfl (.traced [.pumpStopped _ beat.dispatched])
  | skips _ _ _ _ _ _ => exact .idle h rfl .nil
  | drains beat engine _ _ hopen _ =>
      exact .perform hopen h .processAll state.host rfl [] (List.append_nil _).symm

/-- Every turn conducts its steps. -/
theorem conduct_turn (h : Holding state.object.service.shared.engine) (command : Command) :
    let turn := (system σ).turn state command
    Service.Conduct state.object.service (stepsOf turn) (served turn) := by
  intro turn
  have hstops : ∀ index, command.Stops index → stepsOf turn = [] →
      Service.Conduct state.object.service (stepsOf turn) (served turn) := by
    intro index hstops hsteps
    rw [hsteps]
    exact .idle h (congrArg (·.shared.engine) (service_of_stops hstops state).1)
      (turn_of_stops hstops state).1
  cases command with
  | serve command =>
      obtain ⟨hconducts, hdelivers⟩ := Service.conduct_execute h command state.host
      exact ⟨hconducts, hdelivers⟩
  | spawn interval now => exact .idle h rfl .nil
  | tick index now => exact (ticks_turn state index now).conduct h
  | shutdown index => exact hstops index .shutdown rfl
  | release index => exact hstops index .release rfl

theorem count_set {station : Station σ} {old : Pump} (h : station.pumps[index]? = some old)
    (service : Service σ) (pump : Pump) (other : Nat) :
    count ⟨service, station.pumps.set index pump⟩ other =
      if index = other then pump.dispatched else station.count other := by
  obtain ⟨hindex, -⟩ := List.getElem?_eq_some_iff.mp h
  unfold count
  split
  · rename_i heq
    subst heq
    rw [List.getElem?_set_self hindex]
    rfl
  · rename_i hne
    rw [List.getElem?_set_ne hne]

/-- A pump that is there has counted what it says. -/
theorem count_of_some {station : Station σ} (h : station.pumps[index]? = some pump) :
    station.count index = pump.dispatched := by
  rw [count, h]
  rfl

/-- A pump that has dispatched nothing changes no count. -/
theorem count_append (station : Station σ) (h : pump.dispatched = 0) (index : Nat) :
    count ⟨station.service, station.pumps ++ [pump]⟩ index = station.count index := by
  unfold count
  rcases Nat.lt_trichotomy index station.pumps.length with hlt | rfl | hgt
  · rw [List.getElem?_append_left hlt]
  · rw [List.getElem?_concat_length, List.getElem?_eq_none (Nat.le_refl _)]
    exact h
  · rw [List.getElem?_eq_none, List.getElem?_eq_none (Nat.le_of_lt hgt)]
    rw [List.length_append, List.length_singleton]
    exact hgt

/-- A tick adds to the count of its own pump what it dispatches, and nothing to another one. -/
theorem Ticks.count_eq {steps : List (Step σ)} {journal : Journal} {after : Hosted (Station σ) σ}
    (hticks : Ticks state index now steps journal after) (other : Nat) :
    after.object.count other = state.object.count other +
      if index == other then (Engine.dispatched steps).length else 0 := by
  have hlook : ∀ old, state.object.pumps[index]? = some old →
      ∀ (service : Service σ) (pump : Pump) (more : Nat), pump.dispatched = old.dispatched + more →
      count ⟨service, state.object.pumps.set index pump⟩ other =
        state.object.count other + if index == other then more else 0 := by
    intro old hold service pump more hmore
    rw [count_set hold]
    by_cases hindex : index = other
    · subst hindex
      rw [if_pos rfl, if_pos (beq_self_eq_true index), count_of_some hold, hmore]
    · rw [if_neg hindex, if_neg (by simpa using hindex), Nat.add_zero]
  cases hticks with
  | missed _ => exact (congrArg (state.object.count other + ·) (ite_self 0)).symm
  | ends beat hpump _ _ => exact hlook _ hpump _ _ 0 rfl
  | skips beat engine hpump _ _ _ => exact hlook _ hpump _ _ 0 rfl
  | drains beat engine hpump _ _ _ => exact hlook _ hpump _ _ _ rfl

/-- A turn adds to the count of a pump what it dispatches in a tick of that pump, and nothing
else. -/
theorem count_turn (state : Hosted (Station σ) σ) (command : Command) (index : Nat) :
    let turn := (system σ).turn state command
    turn.after.object.count index = state.object.count index +
      if command.isTickOf index then (Engine.dispatched (stepsOf turn)).length else 0 := by
  intro turn
  have hstops : ∀ other, command.Stops other →
      turn.after.object.count index = state.object.count index := by
    intro other hstops
    obtain ⟨-, hafter | ⟨pump, hpump, hafter⟩⟩ := turn_of_stops hstops state
    · exact congrArg (fun state ↦ state.object.count index) hafter
    · refine (congrArg (fun state ↦ state.object.count index) hafter).trans ?_
      show count ⟨_, _⟩ index = _
      rw [count_set hpump]
      split
      · rename_i heq
        exact heq ▸ (count_of_some hpump).symm
      · rfl
  cases command with
  | serve command => rfl
  | spawn interval now =>
      exact count_append state.object (Pump.dispatched_spawned interval now) index
  | tick other now => exact (ticks_turn state other now).count_eq index
  | shutdown other => exact hstops other .shutdown
  | release other => exact hstops other .release

/-- A pump that has ended stays so over every tick. -/
theorem Ticks.ended {steps : List (Step σ)} {journal : Journal} {after : Hosted (Station σ) σ}
    {other count : Nat} (hticks : Ticks state other now steps journal after)
    (h : state.object.pumps[index]? = some (.ended count)) :
    after.object.pumps[index]? = some (.ended count) := by
  -- A pump at work is another one.
  have hset : ∀ beat, state.object.pumps[other]? = some (.beating beat) → ∀ pump,
      (state.object.pumps.set other pump)[index]? = some (.ended count) := by
    intro beat hbeat pump
    have hne : other ≠ index := by
      rintro rfl
      cases hbeat.symm.trans h
    rw [List.getElem?_set_ne hne]
    exact h
  cases hticks with
  | missed _ => exact h
  | ends beat hbeat _ _ => exact hset beat hbeat _
  | skips beat _ hbeat _ _ _ => exact hset beat hbeat _
  | drains beat _ hbeat _ _ _ => exact hset beat hbeat _

/-- A pump that has ended stays so. -/
theorem ended_turn {count : Nat} (h : state.object.pumps[index]? = some (.ended count))
    (command : Command) :
    ((system σ).turn state command).after.object.pumps[index]? = some (.ended count) := by
  have hstops : ∀ other, command.Stops other →
      ((system σ).turn state command).after.object.pumps[index]? = some (.ended count) := by
    intro other hstops
    obtain ⟨-, hafter | ⟨pump, hpump, hafter⟩⟩ := turn_of_stops hstops state
    · rw [hafter]
      exact h
    · rw [hafter]
      show (state.object.pumps.set other (.ended pump.dispatched))[index]? = _
      by_cases hother : other = index
      · subst hother
        obtain rfl : pump = .ended count := Option.some.inj (hpump.symm.trans h)
        obtain ⟨hindex, -⟩ := List.getElem?_eq_some_iff.mp h
        exact List.getElem?_set_self hindex
      · rw [List.getElem?_set_ne hother]
        exact h
  -- A shutdown may be of another pump, whose place is not this one.
  cases command with
  | serve command => exact h
  | spawn interval now =>
      obtain ⟨hindex, -⟩ := List.getElem?_eq_some_iff.mp h
      exact (List.getElem?_append_left hindex).trans h
  | tick other now =>
      exact (ticks_turn state other now).ended h
  | shutdown other => exact hstops other .shutdown
  | release other => exact hstops other .release

/-- A tick on an engine that is open but not running is silent. -/
theorem Ticks.of_not_running {steps : List (Step σ)} {journal : Journal}
    {after : Hosted (Station σ) σ} {lifecycle : Lifecycle}
    (hticks : Ticks state index now steps journal after)
    (hstate : state.object.service.shared.state = some lifecycle)
    (hrunning : ¬ lifecycle.isRunning) :
    steps = [] ∧ journal = [] ∧ after.host = state.host ∧
      after.object.service = state.object.service := by
  cases hticks with
  | missed _ => exact ⟨rfl, rfl, rfl, rfl⟩
  | ends _ _ _ hclosed =>
      rw [Shared.state, hclosed] at hstate
      cases hstate
  | skips _ _ _ _ _ _ => exact ⟨rfl, rfl, rfl, rfl⟩
  | drains _ engine _ _ hopen hengine =>
      rw [Shared.state, hopen] at hstate
      obtain rfl : engine.state = lifecycle := Option.some.inj hstate
      exact absurd hengine hrunning

/-- A tick that is due on a closed engine ends its pump. -/
theorem Ticks.of_closed {steps : List (Step σ)} {journal : Journal} {after : Hosted (Station σ) σ}
    (hticks : Ticks state index now steps journal after)
    (hclosed : state.object.service.shared.engine = none)
    (hpump : state.object.pumps[index]? = some (.beating beat)) (hdue : beat.due ≤ now) :
    journal = [.traced (.pumpStopped state.object.service.shared.name beat.dispatched)] ∧
      after = ⟨{ state.object with pumps := state.object.pumps.set index (.ended beat.dispatched) },
        state.host⟩ := by
  cases hticks with
  | missed hearly => exact absurd hdue (hearly beat hpump)
  | ends other hother _ _ =>
      obtain rfl : beat = other := Pump.beating.inj (Option.some.inj (hpump.symm.trans hother))
      exact ⟨rfl, rfl⟩
  | skips _ _ _ _ hopen _ => cases hclosed.symm.trans hopen
  | drains _ _ _ _ hopen _ => cases hclosed.symm.trans hopen

/-- A tick on an engine that is open but not running changes neither the engine nor the host nor any
count, calls nothing and logs nothing. -/
theorem turn_tick_of_not_running {lifecycle : Lifecycle}
    (hstate : state.object.service.shared.state = some lifecycle)
    (hrunning : ¬ lifecycle.isRunning) (index now : Nat) :
    let tick := (system σ).turn state (.tick index now)
    tick.journal = [] ∧ tick.after.host = state.host ∧
      tick.after.object.service = state.object.service ∧
      ∀ other, tick.after.object.count other = state.object.count other := by
  intro tick
  have hticks := ticks_turn state index now
  obtain ⟨hsteps, hjournal, hhost, hservice⟩ := hticks.of_not_running hstate hrunning
  refine ⟨hjournal, hhost, hservice, ?_⟩
  intro other
  have hcount := hticks.count_eq other
  rw [hsteps] at hcount
  exact hcount.trans (congrArg (state.object.count other + ·) (ite_self 0))

/-- A tick that falls due on a closed engine ends the pump, and does nothing else but report it. -/
theorem turn_tick_of_closed (hclosed : state.object.service.shared.isClosed)
    (hpump : state.object.pumps[index]? = some (.beating beat)) (hdue : beat.due ≤ now) :
    let tick := (system σ).turn state (.tick index now)
    tick.after.object.pumps[index]? = some (.ended beat.dispatched) ∧
      tick.journal = [.traced (.pumpStopped state.object.service.shared.name beat.dispatched)] ∧
      tick.after.host = state.host ∧ tick.after.object.service = state.object.service := by
  intro tick
  have hnone : state.object.service.shared.engine = none := Option.isNone_iff_eq_none.mp hclosed
  obtain ⟨hjournal, hafter⟩ := (ticks_turn state index now).of_closed hnone hpump hdue
  obtain ⟨hindex, -⟩ := List.getElem?_eq_some_iff.mp hpump
  refine ⟨?_, hjournal, ?_, ?_⟩
  · rw [hafter]
    exact List.getElem?_set_self hindex
  · rw [hafter]
  · rw [hafter]

/-- A pump that has ended has no further ticks. -/
theorem turn_tick_of_ended {count : Nat} (h : state.object.pumps[index]? = some (.ended count))
    (now : Nat) :
    ((system σ).turn state (.tick index now)).after = state ∧
      ((system σ).turn state (.tick index now)).journal = [] := by
  have hearly : ∀ beat, state.object.pumps[index]? = some (.beating beat) → ¬ beat.due ≤ now := by
    intro beat hbeat
    cases hbeat.symm.trans h
  unfold System.turn system System.ofAct
  simp only [execute_tick_of_early hearly]
  exact ⟨rfl, rfl⟩

/-- Once it has ended, a pump stays so, whatever comes, and all its ticks are missed. -/
theorem ended_history {count : Nat} (h : state.object.pumps[index]? = some (.ended count))
    (later : List Command) :
    ((system σ).final state later).object.pumps[index]? = some (.ended count) ∧
      ∀ turn ∈ (system σ).history state later, ∀ now, turn.command = .tick index now →
        turn.after = turn.before ∧ turn.journal = [] := by
  induction later generalizing state with
  | nil =>
      refine ⟨h, ?_⟩
      intro turn hmem
      cases hmem
  | cons command later ih =>
      obtain ⟨hfinal, hrest⟩ := ih (ended_turn h command)
      refine ⟨hfinal, ?_⟩
      intro turn hmem now hcommand
      rcases List.mem_cons.mp hmem with rfl | hmem
      · obtain rfl : command = .tick index now := hcommand
        exact turn_tick_of_ended h now
      · exact hrest turn hmem now hcommand

/-! ## Whole runs -/

/-- What holds of the turns of a run and the state that they lead to. Every pump has counted what
was dispatched in its ticks, the turns conduct the steps of the engine, and the handler, if there is
one, is given what is dispatched. -/
structure Kept (engine : Engine σ)
    (turns : List (Turn (Hosted (Station σ) σ) Command Answer Journal))
    (state : Hosted (Station σ) σ) : Prop where
  count_eq : ∀ index,
    state.object.count index = (dispatchedOn (Command.isTickOf index) turns).length
  conducts : Conducts (some engine) (turns.flatMap stepsOf) state.object.service.shared.engine
  deliveries_eq : ∀ turn ∈ turns, turn.journal.deliveries =
    if engine.callbacks.handler.isSome then Engine.dispatched (stepsOf turn) else []

/-- What is dispatched in turns of a kind is what is dispatched in the earlier and then in the later
ones. -/
theorem dispatchedOn_append (kind : Command → Bool)
    (first second : List (Turn (Hosted (Station σ) σ) Command Answer Journal)) :
    dispatchedOn kind (first ++ second) = dispatchedOn kind first ++ dispatchedOn kind second :=
  List.flatMap_append

theorem dispatchedOn_singleton (kind : Command → Bool)
    (turn : Turn (Hosted (Station σ) σ) Command Answer Journal) :
    dispatchedOn kind [turn] =
      if kind turn.command then Engine.dispatched (stepsOf turn) else [] :=
  List.flatMap_singleton ..

/-- What is dispatched is dispatched on a command to the service or in a tick, and never both. -/
theorem length_dispatched_eq (turns : List (Turn (Hosted (Station σ) σ) Command Answer Journal)) :
    (Engine.dispatched (turns.flatMap stepsOf)).length =
      (dispatchedOn Command.isServed turns).length +
        (dispatchedOn Command.isTick turns).length := by
  induction turns with
  | nil => rfl
  | cons turn turns ih =>
      have hturn : (Engine.dispatched (stepsOf turn)).length =
          (dispatchedOn Command.isServed [turn]).length +
            (dispatchedOn Command.isTick [turn]).length := by
        simp only [dispatchedOn_singleton]
        cases hcommand : turn.command with
        | serve command => exact (Nat.add_zero _).symm
        | tick index now => exact (Nat.zero_add _).symm
        | _ =>
            rw [stepsOf, hcommand]
            rfl
      rw [← List.singleton_append, dispatchedOn_append, dispatchedOn_append, List.flatMap_append,
        Engine.dispatched_append, List.flatMap_singleton, List.length_append, List.length_append,
        List.length_append]
      omega

namespace Kept

variable {first : Engine σ} {turns : List (Turn (Hosted (Station σ) σ) Command Answer Journal)}

/-- One more turn keeps what holds. -/
theorem turn (h : Kept first turns state) (command : Command) :
    Kept first (turns ++ [(system σ).turn state command])
      ((system σ).turn state command).after := by
  obtain ⟨hconducts, hdelivers⟩ := conduct_turn h.conducts.holding command
  constructor
  case count_eq =>
    intro index
    rw [count_turn, h.count_eq, dispatchedOn_append, List.length_append, dispatchedOn_singleton]
    congr 1
    show (if command.isTickOf index then _ else 0) =
      (if command.isTickOf index then _ else []).length
    split <;> rfl
  case conducts =>
    rw [List.flatMap_append, List.flatMap_singleton]
    exact h.conducts.append hconducts
  case deliveries_eq =>
    intro turn hmem
    rcases List.mem_append.mp hmem with hmem | hmem
    · exact h.deliveries_eq turn hmem
    · obtain rfl := List.mem_singleton.mp hmem
      exact hdelivers.trans (h.conducts.deliveries_eq hconducts)

/-- Before the first turn all that is kept holds of a service with an open engine. -/
theorem start (hholds : first.queue.Holds first.queue.toList) (service : Service σ)
    (hopen : service.shared.engine = some first) (host : σ) :
    Kept first [] ⟨{ service }, host⟩ where
  count_eq _ := rfl
  conducts := by
    show Conducts (some first) [] service.shared.engine
    rw [hopen]
    refine .refl fun engine hengine ↦ ?_
    cases hengine
    exact hholds
  deliveries_eq := by
    intro turn hmem
    cases hmem

end Kept

/-- All that is kept holds after every run. -/
theorem kept_history (config : Config σ) (threshold : Float) (metrics : Cell σ Metrics) (host : σ)
    (commands : List Command) :
    let start : Hosted (Station σ) σ :=
      ⟨{ service := { shared := .ofEngine (.ofConfig config), threshold, metrics } }, host⟩
    Kept (.ofConfig config) ((system σ).history start commands)
      ((system σ).final start commands) := by
  intro start
  have hempty : (Engine.ofConfig config).queue.Holds [] := Ring.Holds.empty config.maxQueueSize
  have hqueue : (Engine.ofConfig config).queue.toList = [] := hempty.toList_eq
  refine System.run_induction (.start (hqueue.symm ▸ hempty) _ rfl host) ?_ commands
  intro turns state command h
  exact h.turn command

/-- The accounting of pumps is exact under any interleaving. The commands are whatever is done with
a service, with the engine behind it and with the pumps that work on this engine, in any order. Then

* a pump that is shut down answers how many records were dispatched in its ticks, also when the
  engine was closed meanwhile;
* a tick on an engine that is open but not running changes neither the engine nor the host nor any
  count, calls nothing and logs nothing;
* the first tick of a pump at work that falls due on a closed engine ends the pump and does nothing
  else but report it; from then on, whatever comes later, the pump has no further ticks and keeps
  its answer;
* while the engine is open, it has counted the records that were dispatched on commands to the
  service and those that were dispatched in ticks;
* every record that was admitted left the queue in one of the steps of one of the turns, in the
  order of admission, or it did not leave it: so none is dispatched twice, be it by a command and by
  a tick;
* the handler, if there is one, is given in every turn the records that are dispatched in it. -/
theorem pumping_exact (config : Config σ) (threshold : Float) (metrics : Cell σ Metrics) (host : σ)
    (commands : List Command) :
    let start : Hosted (Station σ) σ :=
      ⟨{ service := { shared := .ofEngine (.ofConfig config), threshold, metrics } }, host⟩
    let turns := (system σ).history start commands
    let last := (system σ).final start commands
    let shared := last.object.service.shared
    let steps := turns.flatMap stepsOf
    (∀ index < last.object.pumps.length, ((system σ).turn last (.shutdown index)).answer =
        .counted (dispatchedOn (Command.isTickOf index) turns).length) ∧
      (∀ index now lifecycle, shared.state = some lifecycle → ¬ lifecycle.isRunning →
        let tick := (system σ).turn last (.tick index now)
        tick.journal = [] ∧ tick.after.host = last.host ∧
          tick.after.object.service = last.object.service ∧
          ∀ other, tick.after.object.count other = last.object.count other) ∧
      (∀ index beat now, shared.isClosed → last.object.pumps[index]? = some (.beating beat) →
        beat.due ≤ now →
        let tick := (system σ).turn last (.tick index now)
        (tick.after.object.pumps[index]? = some (.ended beat.dispatched) ∧
            tick.journal = [.traced (.pumpStopped shared.name beat.dispatched)] ∧
            tick.after.host = last.host ∧ tick.after.object.service = last.object.service) ∧
          ∀ later,
            (∀ turn ∈ (system σ).history tick.after later, ∀ time,
              turn.command = .tick index time → turn.after = turn.before ∧ turn.journal = []) ∧
            ((system σ).turn ((system σ).final tick.after later) (.shutdown index)).answer =
              .counted (dispatchedOn (Command.isTickOf index) turns).length) ∧
      (shared.isClosed = false → shared.processed =
        (dispatchedOn Command.isServed turns).length +
          (dispatchedOn Command.isTick turns).length) ∧
      (∃ rest, Engine.admitted steps = (Engine.removed steps).map Removal.record ++ rest ∧
        ∀ engine, shared.engine = some engine → rest = engine.queue.toList) ∧
      ∀ turn ∈ turns, turn.journal.deliveries =
        if config.callbacks.handler.isSome then Engine.dispatched (stepsOf turn) else [] := by
  intro start turns last shared steps
  have hkept : Kept (.ofConfig config) turns last :=
    kept_history config threshold metrics host commands
  obtain ⟨engine, hbooks, hengine⟩ := hkept.conducts.books
  refine ⟨?_, ?_, ?_, ?_, ?_, hkept.deliveries_eq⟩
  -- The count that a pump keeps is what was dispatched in its ticks, so a shutdown reads it off.
  case refine_1 =>
    intro index hindex
    rw [← hkept.count_eq]
    exact answer_shutdown (List.getElem?_eq_getElem hindex) last.host
  case refine_2 =>
    intro index now lifecycle hstate hrunning
    exact turn_tick_of_not_running hstate hrunning index now
  case refine_3 =>
    intro index beat now hclosed hpump hdue tick
    have htick := turn_tick_of_closed hclosed hpump hdue
    refine ⟨htick, ?_⟩
    intro later
    -- That it has ended is kept by every later command, and so is the count it ended with.
    obtain ⟨hfinal, hticks⟩ := ended_history htick.1 later
    refine ⟨hticks, ?_⟩
    rw [← hkept.count_eq, count_of_some hpump]
    refine (answer_shutdown hfinal _).trans ?_
    rw [count_of_some hfinal]
    rfl
  case refine_4 =>
    intro hopen
    obtain ⟨engine', hshared⟩ : ∃ engine, shared.engine = some engine :=
      Option.isSome_iff_exists.mp (Option.isNone_eq_false_iff.mp hopen)
    -- The books speak of an engine of their own; while the service is open it is the service's.
    obtain rfl := hengine engine' hshared
    rw [← length_dispatched_eq, Shared.processed, hshared]
    exact hbooks.processed_eq.trans (Nat.zero_add _)
  case refine_5 =>
    refine ⟨engine.queue.toList, ?_, ?_⟩
    · have hqueue : (Engine.ofConfig config).queue.toList = [] :=
        (Ring.Holds.empty config.maxQueueSize).toList_eq
      have hbalance := hbooks.queue_eq
      rwa [hqueue, List.nil_append] at hbalance
    · intro engine' hshared
      rw [hengine engine' hshared]

/-- After two records were dispatched in a tick, an engine that is stopped is skipped, and one that
is closed ends the pump. -/
example :
    let service : Service Doubles.Bench :=
      { shared := .ofEngine (.ofConfig { name := "pumped" }), metrics := Doubles.Bench.metricsCell }
    let push := Service.Command.enqueue .unlimited ⟨0, "a", []⟩
    let commands : List Command :=
      [.spawn 10 0, .serve push, .tick 0 0, .serve (.direct (.perform .start)), .serve push,
        .tick 0 10, .serve (.direct (.perform .stop)), .serve push, .tick 0 20,
        .serve (.direct .close), .tick 0 30, .tick 0 40]
    ((system Doubles.Bench).final ⟨{ service }, {}⟩ commands).object.pumps = [.ended 2] := by
  decide +kernel

end Station

end EventStaging
