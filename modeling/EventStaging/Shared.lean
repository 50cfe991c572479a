import EventStaging.Engine.Run

/-!
# Shared engines

An engine that many hold and anyone may close. While it is open it works as the engine does; once
closed it refuses every operation, and only its name and its capacity are still known.
-/

namespace EventStaging

/-- An engine that can be closed. Its name and how many records it may queue, if there is a limit,
are known for ever, and the engine itself until it is closed. -/
structure Shared (σ : Type) where
  name : String
  capacity : Option Nat
  engine : Option (Engine σ)

namespace Shared

variable {σ α : Type}

/-- Shares an engine. -/
def ofEngine (engine : Engine σ) : Shared σ := ⟨engine.name, engine.capacity, some engine⟩

/-- Makes an engine from a valid configuration and shares it. -/
def create (config : Config σ) : Act σ (Except ConfigError (Shared σ)) := do
  match ← Engine.create config with
  | .ok engine => return .ok (ofEngine engine)
  | .error error => return .error error

/-- Works on the engine, unless it is closed. -/
def withEngine (shared : Shared σ) (work : Engine σ → Act σ (α × Engine σ)) :
    Act σ (Except EngineError α × Shared σ) :=
  match shared.engine with
  | none => pure (.error .closed, shared)
  | some engine => do
    let (value, engine) ← work engine
    return (.ok value, { shared with engine := some engine })

/-- Takes an event in. -/
def push (shared : Shared σ) (allocator : Allocator) (kind : Kind) (source : String)
    (payload : List UInt8) : Act σ (Except EngineError Unit × Shared σ) := do
  let (result, shared) ← shared.withEngine fun engine ↦ engine.push allocator kind source payload
  return (result.bind id, shared)

/-- Dispatches one record of a running engine. -/
def process (shared : Shared σ) : Act σ (Except EngineError Bool × Shared σ) :=
  shared.withEngine Engine.process

/-- Dispatches every record of a running engine. -/
def processAll (shared : Shared σ) : Act σ (Except EngineError Nat × Shared σ) :=
  shared.withEngine Engine.processAll

/-- Drops every queued record. -/
def clear (shared : Shared σ) : Act σ (Except EngineError Nat × Shared σ) :=
  shared.withEngine Engine.clear

/-- Lets the engine dispatch. -/
def start (shared : Shared σ) : Act σ (Except EngineError Unit × Shared σ) :=
  shared.withEngine fun engine ↦ do
    let engine ← engine.start
    return ((), engine)

/-- Keeps the engine from dispatching. -/
def stop (shared : Shared σ) : Act σ (Except EngineError Unit × Shared σ) :=
  shared.withEngine fun engine ↦ do
    let engine ← engine.stop
    return ((), engine)

/-- Takes the engine down without a word, if it is open. -/
def retire (shared : Shared σ) : Act σ (Shared σ) :=
  match shared.engine with
  | none => pure shared
  | some engine => do
    engine.retire
    return { shared with engine := none }

/-- Closes the engine and says whether it was open. -/
def close (shared : Shared σ) : Act σ (Bool × Shared σ) :=
  match shared.engine with
  | none => pure (false, shared)
  | some engine => do
    engine.retire
    Act.trace (.engineClosed shared.name)
    return (true, { shared with engine := none })

/-- The state of the engine, while it is open. -/
def state (shared : Shared σ) : Option Lifecycle := shared.engine.map Engine.state

/-- The number of records that wait for dispatch. -/
def queueSize (shared : Shared σ) : Nat := shared.engine.elim 0 Engine.queueSize

/-- How many records have been dispatched. -/
def processed (shared : Shared σ) : Nat := shared.engine.elim 0 Engine.processed

/-- Whether the engine has been closed. -/
def isClosed (shared : Shared σ) : Bool := shared.engine.isNone

/-- Carries an operation out. A closed engine refuses all of them. -/
def apply (shared : Shared σ) (op : Op) : Act σ (Reply × Shared σ) := do
  let (result, shared) ← shared.withEngine fun engine ↦ engine.apply op
  match result with
  | .ok reply => return (reply, shared)
  | .error error => return (.refused error, shared)

/-- Carries operations out one after the other and collects their answers. -/
def run (shared : Shared σ) : List Op → Act σ (List Reply × Shared σ)
  | [] => pure ([], shared)
  | op :: ops => do
    let (reply, shared) ← shared.apply op
    Prod.map (reply :: ·) id <$> shared.run ops

end Shared

end EventStaging
