import EventStaging.Proofs.Engine.Logging
import Mathlib.Data.List.Chain

/-!
# Changes of state

An engine changes its state when it is started or stopped in another state, and at no other time.
`Step.moves` are the changes that a step makes, read off the engine before and after it, whoever is
told of them. Main statement (`Engine.told_of_every_change`): over the life of an engine the
observer is told of these changes and of nothing else, the log spells them out in the same order,
and they form a chain from the idle state to the state of the engine.
-/

namespace EventStaging

variable {σ : Type}

/-! ## Chains -/

/-- Changes of state, as pairs of the old and the new state, that lead from one state to another and
never back to the idle state. Each of them is a change, and begins where the one before it leads to.
If nothing changes, the last state is the first one. -/
structure Lifecycle.Chain (first : Lifecycle) (moves : List (Lifecycle × Lifecycle))
    (last : Lifecycle) : Prop where
  starts : ∀ move ∈ moves.head?, move.1 = first
  differs : ∀ move ∈ moves, move.1 ≠ move.2
  links : moves.IsChain fun earlier later ↦ earlier.2 = later.1
  never_idle : ∀ move ∈ moves, move.2 ≠ .idle
  ends : (moves.getLast?.map Prod.snd).getD first = last

namespace Lifecycle.Chain

variable {old new last : Lifecycle} {moves : List (Lifecycle × Lifecycle)}

/-- No change leads from a state to itself. -/
theorem nil (state : Lifecycle) : Chain state [] state where
  starts := by simp
  differs := by simp
  links := .nil
  never_idle := by simp
  ends := rfl

/-- A chain may be prolonged at its beginning. -/
theorem cons (hdiffers : old ≠ new) (hidle : new ≠ .idle) (h : Chain new moves last) :
    Chain old ((old, new) :: moves) last where
  starts := by simp
  differs := by simpa using ⟨hdiffers, fun _ _ hmem ↦ h.differs _ hmem⟩
  links := List.isChain_cons.mpr ⟨fun move hmem ↦ (h.starts move hmem).symm, h.links⟩
  never_idle := by simpa using ⟨hidle, fun _ _ hmem ↦ h.never_idle _ hmem⟩
  ends := by
    rw [← h.ends, List.getLast?_cons]
    cases moves.getLast? <;> rfl

end Lifecycle.Chain

/-! ## What an operation changes -/

/-- The change of state in a step, if there is one. -/
def Step.moves (step : Step σ) : List (Lifecycle × Lifecycle) :=
  if step.before.state = step.after.state then [] else [(step.before.state, step.after.state)]

/-- The log lines about changes of state. -/
def Journal.movingLines (journal : Journal) : List (Level × String) :=
  journal.lines.filter fun line ↦ Engine.isMoving line.2

/-- The lines about changes in two journals in turn are those of the one and then of the other. -/
@[simp] theorem Journal.movingLines_append (first second : Journal) :
    (first ++ second).movingLines = first.movingLines ++ second.movingLines := by
  rw [movingLines, lines_append, List.filter_append]
  rfl

namespace Engine

open Act (Only)

variable {engine : Engine σ} {op : Op} {host : σ}

/-- The changes of state in a run. -/
def moves (steps : List (Step σ)) : List (Lifecycle × Lifecycle) := steps.flatMap Step.moves

/-- The changes of a run are those of its first step and then of the others. -/
@[simp] theorem moves_cons (step : Step σ) (steps : List (Step σ)) :
    moves (step :: steps) = step.moves ++ moves steps := rfl

/-- The log line about a change of state. -/
def moveLine (move : Lifecycle × Lifecycle) : Level × String :=
  (.info, s!"State change: {move.1.name} -> {move.2.name}")

/-- The change that an operation asks for: one that is about the state asks for it if it finds the
engine in another state. -/
def asked (engine : Engine σ) (op : Op) : List (Lifecycle × Lifecycle) :=
  match op.target? with
  | some new => if engine.state = new then [] else [(engine.state, new)]
  | none => []

/-- What is observed of an engine tells of changes of state: the observer hears of each, if there is
one, and each has its line in the log. -/
structure Tells (engine : Engine σ) (changes : List (Lifecycle × Lifecycle)) (journal : Journal) :
    Prop where
  transitions : journal.transitions = if engine.callbacks.observer.isSome then changes else []
  lines : journal.movingLines =
    if engine.logging && engine.callbacks.sink.isSome then changes.map moveLine else []

/-- What is told of changes in turn is told of all of them. -/
theorem Tells.append {first second : List (Lifecycle × Lifecycle)} {journal journal' : Journal}
    (h : engine.Tells first journal) (h' : engine.Tells second journal') :
    engine.Tells (first ++ second) (journal ++ journal') where
  transitions := by
    rw [Journal.transitions_append, h.transitions, h'.transitions]
    split <;> rfl
  lines := by
    rw [Journal.movingLines_append, h.lines, h'.lines]
    split
    · exact List.map_append.symm
    · rfl

/-- An operation leads to the state that it asks for, or leaves the state as it is. -/
theorem state_step (engine : Engine σ) (op : Op) (host : σ) :
    (engine.step op host).after.state = op.target?.getD engine.state := by
  obtain ⟨queue, processed, -, hvalue⟩ := engine.exists_eq_apply_target op host
  show ((engine.apply op).run host).value.2.state = _
  rw [hvalue]

/-- A step changes the state exactly as its operation asks. -/
theorem moves_step (engine : Engine σ) (op : Op) (host : σ) :
    (engine.step op host).moves = engine.asked op := by
  show (if engine.state = (engine.step op host).after.state then _ else [(engine.state, _)]) = _
  rw [state_step, asked]
  cases op.target? with
  | none => exact if_pos rfl
  | some new => rfl

/-! ## What an operation shows of it -/

/-- Whether an observation has nothing to do with changes of state. -/
def isStill : Observation → Bool
  | .notified .. => false
  | .logged _ message _ => !isMoving message
  | .offered .. | .delivered .. | .traced _ => true

/-- A journal that is still tells of no change. -/
theorem Tells.of_still {journal : Journal} (h : journal.Only isStill) :
    engine.Tells [] journal where
  transitions := by
    rw [ite_self]
    exact h.filterMap_eq_nil fun observation hstill ↦ by cases observation <;> trivial
  lines := by
    rw [List.map_nil, ite_self, Journal.movingLines, List.filter_eq_nil_iff]
    intro line hline
    obtain ⟨observation, hmem, hread⟩ := List.mem_filterMap.mp hline
    have hstill := h observation hmem
    cases observation with
    | logged level message outcome =>
        cases hread
        simpa [isStill] using hstill
    | _ => cases hread

/-- Reports are still. -/
theorem reports_still (engine : Engine σ) : Reports (.only σ isStill) engine where
  log level message hmessage :=
    engine.only_log (fun _ ↦ by simp [isStill, hmessage.2]) fun _ ↦ rfl
  trace _ := Only.observe rfl

/-- Nothing is told of changes when an engine is made. -/
theorem still_create (config : Config σ) : Only isStill (create config) := by
  unfold create
  split
  · exact Only.pure _
  · refine Only.bind (Only.observe rfl) fun _ ↦ Only.bind ?_ fun _ ↦ Only.pure _
    refine (reports_still (ofConfig config)).log _ _ ?_
    simp [IsOrdinary, isParting, isMoving, Text.beginsWith, Text.after?]

/-- Nothing is told of changes when an engine is taken down. -/
theorem still_retire (engine : Engine σ) : Only isStill engine.retire := by
  refine Only.bind (engine.only_log (fun _ ↦ ?_) fun _ ↦ rfl) fun _ ↦
    Only.bind engine.reports_still.clear fun _ ↦ Only.pure _
  simp [isStill, isMoving, Text.beginsWith, Text.after?]

/-- An operation that is not about the state shows nothing of it. -/
theorem still_apply (h : op.target? = none) (engine : Engine σ) :
    Only isStill (engine.apply op) := by
  have hreports := engine.reports_still
  have hoffers : engine.Offers (.only σ isStill) := fun _ _ _ ↦ Only.call fun _ ↦ rfl
  have hdelivers : engine.Delivers (.only σ isStill) := fun _ _ _ ↦ Only.call fun _ ↦ rfl
  cases op with
  | push allocator kind source payload =>
      rw [apply_push]
      exact (hreports.push hoffers allocator kind source payload).map _
  | process =>
      rw [apply_process]
      exact (hreports.process hdelivers).map _
  | processAll =>
      rw [apply_processAll]
      exact (hreports.processAll hdelivers).map _
  | clear =>
      rw [apply_clear]
      exact hreports.clear.map _
  | start => cases h
  | stop => cases h

/-- The observer, if there is one, is told once, however it takes it. -/
theorem journal_announce (engine : Engine σ) (old new : Lifecycle) (host : σ) :
    let journal := ((engine.announce old new).run host).journal
    journal.transitions = (if engine.callbacks.observer.isSome then [(old, new)] else []) ∧
      journal.movingLines = [] := by
  rw [announce_eq]
  cases engine.callbacks.observer with
  | none => exact ⟨rfl, rfl⟩
  | some observer =>
      have hcontained (outcome : Outcome Unit) (host : σ) : engine.Tells []
          ((engine.contain .stateChange none () outcome).run host).journal :=
        .of_still (engine.reports_still.contain .stateChange none () outcome host)
      simp only [Option.elim_some, Act.journal_bind, Journal.transitions_append,
        Journal.movingLines_append, (hcontained _ _).transitions, (hcontained _ _).lines,
        List.map_nil, ite_self, List.append_nil]
      exact ⟨rfl, rfl⟩

/-- The line about a change is told as one. -/
theorem movingLines_log_moveLine (engine : Engine σ) (move : Lifecycle × Lifecycle) (host : σ) :
    ((engine.log .info (moveLine move).2).run host).journal.movingLines =
      engine.offeredLines (moveLine move) := by
  have hmoving : isMoving (moveLine move).2 := by
    rcases move with ⟨old, new⟩
    cases old <;> cases new <;> rfl
  rw [Journal.movingLines, lines_log, offeredLines, offeredLines]
  split
  · exact List.filter_cons_of_pos hmoving
  · rfl

/-- A move to another state has its line in the log, and the observer is told of it. -/
theorem tells_moveTo (engine : Engine σ) (new : Lifecycle) (host : σ) :
    engine.Tells (if engine.state = new then [] else [(engine.state, new)])
      ((engine.moveTo new).run host).journal := by
  unfold moveTo
  by_cases hstate : engine.state = new
  · rw [if_pos hstate, if_pos hstate]
    exact .of_still .nil
  · have hline := engine.movingLines_log_moveLine (engine.state, new) host
    obtain ⟨htransitions, hlines⟩ := journal_announce { engine with state := new } engine.state new
      ((engine.log .info (moveLine (engine.state, new)).2).run host).host
    rw [if_neg hstate, if_neg hstate]
    constructor
    · rw [Act.journal_bind, Journal.transitions_append,
        (engine.quiet_log _ _ _).transitions_eq, Act.journal_bind, Journal.transitions_append]
      exact (List.append_nil _).trans htransitions
    · rw [Act.journal_bind, Journal.movingLines_append, Act.journal_bind,
        Journal.movingLines_append]
      refine (congr (congrArg _ hline) (congrArg (· ++ _) hlines)).trans ?_
      exact List.append_nil _

/-- A step tells of the change of state that its operation asks for. -/
theorem tells_step (engine : Engine σ) (op : Op) (host : σ) :
    engine.Tells (engine.asked op) (engine.step op host).journal := by
  cases htarget : op.target? with
  | none =>
      rw [asked, htarget]
      exact .of_still (engine.still_apply htarget host)
  | some new =>
      rw [asked, htarget]
      cases op with
      | start =>
          cases htarget
          rw [step_of_apply_eq engine.apply_start]
          exact engine.tells_moveTo .running host
      | stop =>
          cases htarget
          rw [step_of_apply_eq engine.apply_stop]
          exact engine.tells_moveTo .stopped host
      | _ => cases htarget

/-! ## Whole runs -/

/-- A step prolongs a chain of changes at its beginning. -/
theorem chain_step {changes : List (Lifecycle × Lifecycle)} {last : Lifecycle}
    (h : Lifecycle.Chain (engine.step op host).after.state changes last) :
    Lifecycle.Chain engine.state (engine.asked op ++ changes) last := by
  rw [state_step] at h
  unfold asked
  cases htarget : op.target? with
  | none =>
      rw [htarget] at h
      exact h
  | some new =>
      rw [htarget, Option.getD_some] at h
      have hidle : new ≠ .idle := by
        cases op <;> cases htarget <;> decide
      simp only
      by_cases hstate : engine.state = new
      · rw [if_pos hstate, hstate]
        exact h
      · rw [if_neg hstate]
        exact .cons hstate hidle h

/-- The changes of state in a run form a chain. -/
theorem chain_moves (engine : Engine σ) (ops : List Op) (host : σ) :
    Lifecycle.Chain engine.state (moves (engine.steps ops host)) (engine.after ops host).state := by
  induction ops generalizing engine host with
  | nil => exact .nil engine.state
  | cons op ops ih =>
      rw [steps_cons, moves_cons, moves_step]
      exact chain_step (ih _ _)

/-- Every engine in a run has the same observer and the same sink. -/
theorem Tells.of_after {changes : List (Lifecycle × Lifecycle)} {journal : Journal}
    (h : (engine.step op host).after.Tells changes journal) : engine.Tells changes journal := by
  obtain ⟨state, queue, processed, -, hafter⟩ := engine.exists_eq_apply op host
  rw [show (engine.step op host).after = _ from hafter] at h
  exact ⟨h.transitions, h.lines⟩

/-- Every step of a run tells of the change that it makes, which is the one asked for. -/
theorem tells_of_mem_steps {ops : List Op} {step : Step σ} (hmem : step ∈ engine.steps ops host) :
    step.moves = step.before.asked step.op ∧ engine.Tells step.moves step.journal := by
  induction ops generalizing engine host with
  | nil => cases hmem
  | cons op ops ih =>
      rcases List.mem_cons.mp hmem with rfl | hmem
      · have hmoves := engine.moves_step op host
        exact ⟨hmoves, hmoves.symm ▸ engine.tells_step op host⟩
      · exact (ih hmem).imp_right Tells.of_after

/-- If every step tells of its changes, then all of them do in turn. -/
theorem Tells.flatMap {steps : List (Step σ)}
    (h : ∀ step ∈ steps, engine.Tells step.moves step.journal) :
    engine.Tells (moves steps) (steps.flatMap Step.journal) := by
  induction steps with
  | nil => exact .of_still .nil
  | cons step steps ih =>
      rw [moves_cons, List.flatMap_cons]
      have hrest := ih fun other hmem ↦ h other (List.mem_cons_of_mem _ hmem)
      exact (h step List.mem_cons_self).append hrest

/-- A run tells of its changes of state. -/
theorem tells_run (engine : Engine σ) (ops : List Op) (host : σ) :
    engine.Tells (moves (engine.steps ops host)) ((engine.run ops).run host).journal := by
  rw [journal_run]
  exact .flatMap fun _ hmem ↦ (tells_of_mem_steps hmem).2

/-- From its making until it is taken down an engine tells of its changes of state and of nothing
else. The changes form a chain from the idle state. Only operations that find the engine in another
state than the one they ask for make one. -/
theorem told_of_every_change (config : Config σ) (ops : List Op) (host : σ) :
    let made := (create config).run host
    let life := (lifetime config ops).run host
    match made.value with
    | .error _ => life.journal = []
    | .ok engine =>
      let changes := moves (engine.steps ops made.host)
      let last := engine.after ops made.host
      Lifecycle.Chain .idle changes last.state ∧ engine.Tells changes life.journal ∧
        (∀ step ∈ engine.steps ops made.host,
          step.moves = step.before.asked step.op ∧ engine.Tells step.moves step.journal) ∧
        engine.Tells [] made.journal ∧ ∀ now, engine.Tells [] (last.retire.run now).journal := by
  intro made life
  cases hmade : made.value with
  | error error =>
      cases hvalidate : config.validate with
      | error _ =>
          simp only [life, lifetime, create, hvalidate]
          rfl
      | ok _ => simp [made, create, hvalidate] at hmade
  | ok engine =>
      obtain ⟨rfl, -⟩ := create_of_ok hmade
      have hcreate : (ofConfig config).Tells [] made.journal := .of_still (still_create config host)
      have hretire (now : σ) : (ofConfig config).Tells []
          (((ofConfig config).after ops made.host).retire.run now).journal :=
        .of_still (still_retire _ now)
      refine ⟨chain_moves (ofConfig config) ops made.host, ?_, fun _ ↦ tells_of_mem_steps, hcreate,
        hretire⟩
      -- Neither making nor ending moves the engine, so the run makes all the changes.
      have htold := hcreate.append ((tells_run (ofConfig config) ops made.host).append
        (hretire (((ofConfig config).run ops).run made.host).host))
      rw [List.nil_append, List.append_nil] at htold
      exact (journal_lifetime hmade ops).symm ▸ htold

/-- An observer that panics is told of the next change all the same. -/
example :
    let observer : Observer Unit := fun _ new _ ↦
      (if new = .running then some (.text "observer") else none, ())
    let engine := ofConfig { name := "told", callbacks := { observer := some observer } }
    ((engine.run [.start, .start, .process, .stop, .clear, .start]).run ()).journal.transitions =
      [(.idle, .running), (.running, .stopped), (.stopped, .running)] := by
  decide

end Engine

end EventStaging
