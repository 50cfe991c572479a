import EventStaging.Engine.Basic

/-!
# Runs of an engine

The operations on an engine as data, what each of them answers, and what a sequence of them does.
-/

namespace EventStaging

/-- An operation on an engine. -/
inductive Op where
  | push (allocator : Allocator) (kind : Kind) (source : String) (payload : List UInt8)
  | process
  | processAll
  | clear
  | start
  | stop

/-- What an operation answers. A push is `accepted` or `refused`, a `flag` says whether a record was
dispatched, a `count` says how many were dispatched or dropped, and `done` says no more than that
the operation was carried out. -/
inductive Reply where
  | accepted
  | refused (error : EngineError)
  | flag (value : Bool)
  | count (value : Nat)
  | done
  deriving DecidableEq, Repr

/-- The answer of a push. -/
def Reply.ofPush : Except EngineError Unit → Reply
  | .ok () => .accepted
  | .error error => .refused error

namespace Engine

variable {σ : Type}

/-- Carries an operation out. -/
def apply (engine : Engine σ) : Op → Act σ (Reply × Engine σ)
  | .push allocator kind source payload => do
    let (result, engine) ← engine.push allocator kind source payload
    return (.ofPush result, engine)
  | .process => do
    let (value, engine) ← engine.process
    return (.flag value, engine)
  | .processAll => do
    let (value, engine) ← engine.processAll
    return (.count value, engine)
  | .clear => do
    let (value, engine) ← engine.clear
    return (.count value, engine)
  | .start => do
    let engine ← engine.start
    return (.done, engine)
  | .stop => do
    let engine ← engine.stop
    return (.done, engine)

/-- Carries operations out one after the other and collects their answers. -/
def run (engine : Engine σ) : List Op → Act σ (List Reply × Engine σ)
  | [] => pure ([], engine)
  | op :: ops => do
    let (reply, engine) ← engine.apply op
    Prod.map (reply :: ·) id <$> engine.run ops

end Engine

end EventStaging
