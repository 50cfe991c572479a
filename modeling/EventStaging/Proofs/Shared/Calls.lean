import EventStaging.Proofs.Engine.Effects
import EventStaging.Proofs.Engine.Steps
import EventStaging.Proofs.History
import EventStaging.Shared

/-!
# Calls on shared engines

What can be done with a shared engine, as data: the operations of an engine, each by the function of
its name, and closing. `Shared.perform_of_open` says that an open engine does what the engine in it
does, and `Shared.call_of_closed` that a closed one refuses every call and changes nothing. The last
section reads both as turns of a system.
-/

namespace EventStaging

/-- The answer of an engine as a result: a refusal is an error, and any other answer a value. -/
def Reply.result : Reply → Except EngineError Reply
  | .refused error => .error error
  | reply => .ok reply

namespace Shared

/-- What can be done with a shared engine: an operation is carried out, or the engine is closed. -/
inductive Call where
  | perform (op : Op)
  | close

/-- What a call answers: the result of an operation, or whether the engine was open when it was to
be closed. -/
inductive Answer where
  | performed (result : Except EngineError Reply)
  | closed (first : Bool)

/-- What a closed engine answers to a call. -/
def Call.refusal : Call → Answer
  | .perform _ => .performed (.error .closed)
  | .close => .closed false

variable {σ α β : Type}

/-- Carries an operation out by the function of its name. -/
def perform (shared : Shared σ) : Op → Act σ (Except EngineError Reply × Shared σ)
  | .push allocator kind source payload =>
    Prod.map (Except.map fun _ ↦ .accepted) id <$> shared.push allocator kind source payload
  | .process => Prod.map (Except.map .flag) id <$> shared.process
  | .processAll => Prod.map (Except.map .count) id <$> shared.processAll
  | .clear => Prod.map (Except.map .count) id <$> shared.clear
  | .start => Prod.map (Except.map fun _ ↦ .done) id <$> shared.start
  | .stop => Prod.map (Except.map fun _ ↦ .done) id <$> shared.stop

/-- Carries a call out. -/
def call (shared : Shared σ) : Call → Act σ (Answer × Shared σ)
  | .perform op => Prod.map .performed id <$> shared.perform op
  | .close => Prod.map .closed id <$> shared.close

/-- A shared engine as a system that is given calls. -/
def system (σ : Type) : System (Hosted (Shared σ) σ) Call Answer Journal := .ofAct call

variable {shared : Shared σ} {engine : Engine σ}

/-! ## Open engines -/

/-- Work with an open engine is done on the engine, which stays shared. -/
theorem withEngine_of_open (h : shared.engine = some engine)
    (work : Engine σ → Act σ (α × Engine σ)) :
    shared.withEngine work =
      Prod.map .ok (fun engine ↦ { shared with engine := some engine }) <$> work engine := by
  rw [withEngine, h, ← bind_pure_comp]
  rfl

/-- An open engine takes a push as the bare engine does. -/
theorem push_of_open (h : shared.engine = some engine) (allocator : Allocator) (kind : Kind)
    (source : String) (payload : List UInt8) :
    shared.push allocator kind source payload =
      Prod.map id (fun engine ↦ { shared with engine := some engine }) <$>
        engine.push allocator kind source payload := by
  rw [push, withEngine_of_open h, bind_map_left, ← bind_pure_comp]
  rfl

/-- An open engine is started as the bare engine is. -/
theorem start_of_open (h : shared.engine = some engine) :
    shared.start =
      (fun engine ↦ (.ok (), { shared with engine := some engine })) <$>
        engine.moveTo .running := by
  rw [start, withEngine_of_open h, bind_pure_comp, Functor.map_map]
  rfl

/-- An open engine is stopped as the bare engine is. -/
theorem stop_of_open (h : shared.engine = some engine) :
    shared.stop =
      (fun engine ↦ (.ok (), { shared with engine := some engine })) <$>
        engine.moveTo .stopped := by
  rw [stop, withEngine_of_open h, bind_pure_comp, Functor.map_map]
  rfl

/-- An open engine does what the engine in it does, and its result is the answer of that engine. -/
theorem perform_of_open (h : shared.engine = some engine) (op : Op) :
    shared.perform op =
      Prod.map Reply.result (fun engine ↦ { shared with engine := some engine }) <$>
        engine.apply op := by
  cases op with
  | push allocator kind source payload =>
      rw [perform, push_of_open h, Engine.apply_push, Functor.map_map, Functor.map_map]
      congr 1
      funext ⟨result, engine⟩
      cases result <;> rfl
  | process => rw [perform, process, withEngine_of_open h, Engine.apply_process]; rfl
  | processAll => rw [perform, processAll, withEngine_of_open h, Engine.apply_processAll]; rfl
  | clear => rw [perform, clear, withEngine_of_open h, Engine.apply_clear]; rfl
  | start => rw [perform, start_of_open h, Engine.apply_start]; rfl
  | stop => rw [perform, stop_of_open h, Engine.apply_stop]; rfl

/-- Closing an open engine takes it down and reports that it was closed. -/
theorem close_of_open (h : shared.engine = some engine) :
    shared.close = (do
      engine.retire
      Act.trace (.engineClosed shared.name)
      return (true, { shared with engine := none })) := by
  rw [close, h]

/-- Letting go of an open engine takes it down and reports no closing. -/
theorem retire_of_open (h : shared.engine = some engine) :
    shared.retire = (do
      engine.retire
      return { shared with engine := none }) := by
  rw [retire, h]

/-! ## Closed engines -/

/-- No work can be done with a closed engine. -/
theorem withEngine_of_closed (h : shared.engine = none) (work : Engine σ → Act σ (α × Engine σ)) :
    shared.withEngine work = pure (.error .closed, shared) := by
  rw [withEngine, h]

/-- A closed engine refuses every operation. -/
theorem perform_of_closed (h : shared.engine = none) (op : Op) :
    shared.perform op = pure (.error .closed, shared) := by
  cases op with
  | push => rw [perform, push, withEngine_of_closed h]; rfl
  | process => rw [perform, process, withEngine_of_closed h]; rfl
  | processAll => rw [perform, processAll, withEngine_of_closed h]; rfl
  | clear => rw [perform, clear, withEngine_of_closed h]; rfl
  | start => rw [perform, start, withEngine_of_closed h]; rfl
  | stop => rw [perform, stop, withEngine_of_closed h]; rfl

/-- A closed engine cannot be closed again. -/
theorem close_of_closed (h : shared.engine = none) : shared.close = pure (false, shared) := by
  rw [close, h]

/-- A closed engine has nothing to be taken down. -/
theorem retire_of_closed (h : shared.engine = none) : shared.retire = pure shared := by
  rw [retire, h]

/-- A closed engine refuses every call, calls nothing and stays as it is. -/
theorem call_of_closed (h : shared.engine = none) (call : Call) :
    shared.call call = pure (call.refusal, shared) := by
  cases call with
  | perform op => rw [Shared.call, perform_of_closed h]; rfl
  | close => rw [Shared.call, close_of_closed h]; rfl

/-- The name and the capacity are kept, whatever is called. -/
theorem kept_call (shared : Shared σ) (call : Call) (host : σ) :
    ((shared.call call).run host).value.2.name = shared.name ∧
      ((shared.call call).run host).value.2.capacity = shared.capacity := by
  cases h : shared.engine with
  | none =>
      rw [call_of_closed h]
      exact ⟨rfl, rfl⟩
  | some engine =>
      cases call with
      | perform op =>
          rw [Shared.call, perform_of_open h]
          exact ⟨rfl, rfl⟩
      | close =>
          rw [Shared.call, close_of_open h]
          exact ⟨rfl, rfl⟩

/-! ## One call as a turn -/

/-- An operation on an engine that is shared is a step of that engine, which stays shared. -/
theorem turn_perform (engine : Engine σ) (op : Op) (host : σ) :
    (system σ).turn ⟨ofEngine engine, host⟩ (.perform op) =
      let step := engine.step op host
      { before := ⟨ofEngine engine, host⟩, command := .perform op,
        answer := .performed step.reply.result, journal := step.journal,
        after := ⟨ofEngine step.after, step.host⟩ } := by
  have hname := engine.name_apply op host
  have hcapacity := engine.capacity_apply op host
  have hperform := perform_of_open (show (ofEngine engine).engine = some engine from rfl) op
  unfold System.turn system System.ofAct
  simp only [call, hperform, Act.run_map, Prod.map, id]
  -- The name and the capacity that were kept are still those of the engine.
  simp only [Engine.step, ofEngine, hname, hcapacity]

/-- The first closing of an open engine is the one that takes it down. -/
theorem turn_close_of_open (h : shared.engine = some engine) (host : σ) :
    ((system σ).turn ⟨shared, host⟩ .close).answer = .closed true ∧
      ((system σ).turn ⟨shared, host⟩ .close).after.object = { shared with engine := none } := by
  unfold System.turn system System.ofAct
  simp only [call, close_of_open h]
  exact ⟨rfl, rfl⟩

/-- A call on a closed engine is refused. -/
theorem turn_of_closed (h : shared.engine = none) (host : σ) (call : Call) :
    (system σ).turn ⟨shared, host⟩ call =
      { before := ⟨shared, host⟩, command := call, answer := call.refusal, journal := [],
        after := ⟨shared, host⟩ } := by
  unfold System.turn system System.ofAct
  simp only [call_of_closed h, Act.run_pure]

end Shared

end EventStaging
