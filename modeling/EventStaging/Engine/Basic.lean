import EventStaging.Callbacks
import EventStaging.Ring.Basic

/-!
# The engine

An engine stages events: producers push them into its queue, and while it is running its owner has
them dispatched to a handler, the oldest first. A filter may turn records away at the door, an
observer hears of changes of state, and a sink receives log lines. Whatever a callback does, the
engine goes on: an error or a panic is reported and contained.

Every operation gives its result together with the engine after it, as an action on the host.
-/

namespace EventStaging

/-- An engine with its callbacks and its queue. It has a name in diagnostics, it is `logging` if it
offers log lines to its sink, its state says whether it dispatches, and it counts the records that
it has `processed`. -/
structure Engine (σ : Type) where
  name : String
  logging : Bool
  callbacks : Callbacks σ
  state : Lifecycle
  queue : Ring Record
  processed : Nat

namespace Engine

variable {σ α : Type}

/-- The number of records that wait for dispatch. -/
def queueSize (engine : Engine σ) : Nat := engine.queue.length

/-- How many records may be queued, if there is a limit. -/
def capacity (engine : Engine σ) : Option Nat := engine.queue.bound

/-- Offers a log line to the sink, if the engine logs and has one. -/
def log (engine : Engine σ) (level : Level) (message : String) : Act σ Unit :=
  match engine.logging, engine.callbacks.sink with
  | true, some sink => Act.write sink engine.name level message
  | _, _ => pure ()

/-- The log line about a contained failure. -/
def failureLine (role : Role) (kind : Option Kind) (failure : Failure) : String :=
  match kind with
  | some kind =>
    s!"Panic or error in {role.name} handler (type={kind.name}): {failure.message}"
  | none => s!"Panic or error in {role.name} handler: {failure.message}"

/-- Reports a contained failure: first as a trace event, then as a log line. -/
def report (engine : Engine σ) (role : Role) (kind : Option Kind) (failure : Failure) :
    Act σ Unit := do
  Act.trace (.callbackFailed engine.name role kind failure)
  engine.log .error (failureLine role kind failure)

/-- The value of a call into the host; a failure is reported, and `fallback` takes its place. -/
def contain (engine : Engine σ) (role : Role) (kind : Option Kind) (fallback : α)
    (outcome : Outcome α) : Act σ α :=
  match outcome.guarded with
  | .ok value => pure value
  | .error failure => do
    engine.report role kind failure
    return fallback

/-- The engine that a valid configuration describes, before it is announced. -/
def ofConfig (config : Config σ) : Engine σ where
  name := config.name
  logging := config.enableLogging
  callbacks := config.callbacks
  state := .idle
  queue := Ring.empty config.maxQueueSize
  processed := 0

/-- Makes an engine from a valid configuration and announces it. -/
def create (config : Config σ) : Act σ (Except ConfigError (Engine σ)) :=
  match config.validate with
  | .error error => pure (.error error)
  | .ok () => do
    let engine := ofConfig config
    Act.trace (.engineCreated engine.name engine.capacity)
    engine.log .info s!"Event processor '{engine.name}' created"
    return .ok engine

/-! ## Producers -/

/-- Whether the filter lets a record in. A filter that fails lets it in. -/
def admits (engine : Engine σ) (record : Record) : Act σ Bool :=
  match engine.callbacks.filter with
  | none => pure true
  | some filter => do
    let outcome ← Act.offer filter record
    engine.contain .filter (some record.kind) true outcome

/-- Turns a record away because that many bytes could not be had. -/
def refuseStorage (engine : Engine σ) (bytes : Nat) :
    Act σ (Except EngineError Unit × Engine σ) := do
  let error := EngineError.allocation bytes
  engine.log .error s!"Dropping event: {error.message}"
  return (.error error, engine)

/-- Puts a record that has been let in at the end of the queue. -/
def enqueue (engine : Engine σ) (allocator : Allocator) (record : Record) :
    Act σ (Except EngineError Unit × Engine σ) :=
  let (result, queue) := engine.queue.push allocator.slots record
  let engine := { engine with queue }
  match result with
  | .ok () => do
    engine.log .debug
      s!"Event queued (type={record.kind.name}, queue_size={engine.queueSize})"
    return (.ok (), engine)
  | .error (.full record) => do
    let items := engine.queueSize
    engine.log .warn s!"Queue full ({items} items), dropping {record.kind.name}"
    return (.error (.queueFull items), engine)
  | .error (.noStorage _ bytes) => engine.refuseStorage bytes

/-- Takes an event in. A full queue comes first, then the copy of the payload, then the filter, and
last the room in the ring. An event that the filter turns away is no error. -/
def push (engine : Engine σ) (allocator : Allocator) (kind : Kind) (source : String)
    (payload : List UInt8) : Act σ (Except EngineError Unit × Engine σ) :=
  if engine.queue.isFull then do
    let items := engine.queueSize
    engine.log .warn s!"Queue full ({items} items)"
    return (.error (.queueFull items), engine)
  else
    match Record.copy allocator kind source payload with
    | .error bytes => engine.refuseStorage bytes
    | .ok record => do
      match ← engine.admits record with
      | true => engine.enqueue allocator record
      | false => do
        engine.log .debug "Event filtered out"
        return (.ok (), engine)

/-! ## Dispatch -/

/-- Gives a record to the handler, if there is one. -/
def deliver (engine : Engine σ) (record : Record) : Act σ Unit :=
  match engine.callbacks.handler with
  | none => pure ()
  | some handler => do
    let outcome ← Act.deliver handler record
    engine.contain .event (some record.kind) () outcome

/-- Gives a record to the handler and counts it, whatever the handler does. -/
def dispatch (engine : Engine σ) (record : Record) : Act σ (Engine σ) := do
  engine.log .debug s!"Processing event (type={record.kind.name})"
  engine.deliver record
  return { engine with processed := engine.processed + 1 }

/-- Dispatches the oldest record, if there is one. -/
def dispatchNext (engine : Engine σ) : Act σ (Bool × Engine σ) :=
  match engine.queue.pop with
  | (none, queue) => pure (false, { engine with queue })
  | (some record, queue) => do
    let engine ← { engine with queue }.dispatch record
    return (true, engine)

/-- Dispatches until nothing is queued, at most `limit` records, and counts them. -/
def drain : Nat → Engine σ → Act σ (Nat × Engine σ)
  | 0, engine => pure (0, engine)
  | limit + 1, engine => do
    match ← engine.dispatchNext with
    | (false, engine) => return (0, engine)
    | (true, engine) => Prod.map (· + 1) id <$> drain limit engine

/-- Warns that an engine which is not running was asked to dispatch. -/
def warnNotRunning (engine : Engine σ) : Act σ Unit := engine.log .warn "Processor not running"

/-- Dispatches one record of a running engine and says whether there was one. -/
def process (engine : Engine σ) : Act σ (Bool × Engine σ) :=
  if engine.state.isRunning then engine.dispatchNext
  else do
    engine.warnNotRunning
    return (false, engine)

/-- Dispatches every record of a running engine and says how many there were. -/
def processAll (engine : Engine σ) : Act σ (Nat × Engine σ) :=
  if engine.state.isRunning then do
    let (count, engine) ← engine.drain engine.queueSize
    if count > 0 then engine.log .info s!"Processed {count} events"
    return (count, engine)
  else do
    engine.warnNotRunning
    return (0, engine)

/-- Drops every queued record and says how many there were. -/
def clear (engine : Engine σ) : Act σ (Nat × Engine σ) := do
  let (count, queue) := engine.queue.clear
  let engine := { engine with queue }
  if count > 0 then engine.log .info s!"Cleared {count} events from queue"
  return (count, engine)

/-! ## Life -/

/-- Tells the observer, if there is one, of a change of state. -/
def announce (engine : Engine σ) (old new : Lifecycle) : Act σ Unit :=
  match engine.callbacks.observer with
  | none => pure ()
  | some observer => do
    let outcome ← Act.notify observer old new
    engine.contain .stateChange none () outcome

/-- Moves to another state and tells the observer. Nothing happens if the engine is in that state
already. -/
def moveTo (engine : Engine σ) (new : Lifecycle) : Act σ (Engine σ) :=
  if engine.state = new then pure engine
  else do
    engine.log .info s!"State change: {engine.state.name} -> {new.name}"
    let moved := { engine with state := new }
    moved.announce engine.state new
    return moved

/-- Lets the engine dispatch. -/
def start (engine : Engine σ) : Act σ (Engine σ) := engine.moveTo .running

/-- Keeps the engine from dispatching. -/
def stop (engine : Engine σ) : Act σ (Engine σ) := engine.moveTo .stopped

/-- Takes an engine down. Records that still wait are dropped, not dispatched. -/
def retire (engine : Engine σ) : Act σ Unit := do
  engine.log .info s!"Destroying event processor '{engine.name}'"
  let _ ← engine.clear
  return ()

end Engine

end EventStaging
