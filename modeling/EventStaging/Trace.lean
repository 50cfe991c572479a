import EventStaging.Outcome
import EventStaging.Record
import EventStaging.Registry
import EventStaging.Vocabulary

/-!
# Trace events

Beside the log lines that an engine offers to its sink, it reports structured events to whoever
traces the program. Each event has a severity, a message and named fields, which are texts.
-/

namespace EventStaging

namespace Trace

/-- How much a trace event matters. -/
inductive Severity where
  | trace
  | at (level : Level)
  deriving DecidableEq, Repr

/-- The name of a severity. -/
def Severity.name : Severity → String
  | .trace => "TRACE"
  | .at level => level.name

/-- What is reported to whoever traces the program. Engines report that they came into being, that a
callback failed or the sink panicked over a line, and lines that a sink passed on under its label;
services report the events that they accepted, the items of a batch that they refused, and
dispatches; registries report who comes and goes; pumps report that they came to their end, or had
broken down before they were asked to stop. Settings that were read are reported if they are valid.
-/
inductive Event where
  | engineCreated (engine : String) (capacity : Option Nat)
  | callbackFailed (engine : String) (role : Role) (kind : Option Kind) (failure : Failure)
  | sinkPanicked (engine : String) (level : Level)
  | forwarded (label : String) (level : Level) (message : String)
  | settingsLoaded (name : String) (maxQueueSize : Nat) (enableLogging : Bool)
  | eventReceived (kind : Kind) (source : String)
  | batchItemFailed (index : Nat) (error : EngineError)
  | dispatchComplete (processed : Nat)
  | engineClosed (engine : String)
  | engineRegistered (id : EngineId) (engine : String)
  | engineUnregistered (id : EngineId) (engine : String)
  | pumpStopped (engine : String) (dispatched : Nat)
  | pumpFailed
  deriving DecidableEq, Repr

namespace Event

/-- How much the event matters. -/
def severity : Event → Severity
  | .engineCreated .. | .settingsLoaded .. | .dispatchComplete .. | .engineClosed ..
  | .engineRegistered .. | .engineUnregistered .. | .pumpStopped .. => .at .debug
  | .callbackFailed .. | .sinkPanicked .. | .pumpFailed => .at .error
  | .batchItemFailed .. => .at .warn
  | .eventReceived .. => .trace
  | .forwarded _ level _ => .at level

/-- What the event says. -/
def message : Event → String
  | .engineCreated .. => "engine created"
  | .callbackFailed .. => "callback failed"
  | .sinkPanicked .. => "log sink panicked"
  | .forwarded _ _ message => message
  | .settingsLoaded .. => "settings loaded"
  | .eventReceived .. => "event received"
  | .batchItemFailed .. => "failed to queue event in batch"
  | .dispatchComplete .. => "dispatch complete"
  | .engineClosed .. => "engine closed"
  | .engineRegistered .. => "engine registered"
  | .engineUnregistered .. => "engine unregistered"
  | .pumpStopped .. => "pump stopped"
  | .pumpFailed => "pump task failed"

/-- A capacity in words. -/
def capacityText : Option Nat → String
  | none => "None"
  | some max => s!"Some({max})"

/-- The fields of the event, by name. -/
def fields : Event → List (String × String)
  | .engineCreated engine capacity => [("engine", engine), ("capacity", capacityText capacity)]
  | .callbackFailed engine role kind failure =>
    [("engine", engine), ("callback", role.name)] ++ (kind.map fun k ↦ ("kind", k.name)).toList ++
      [("error", failure.message)]
  | .sinkPanicked engine level => [("engine", engine), ("level", level.name)]
  | .forwarded label _ _ => [("engine", label)]
  | .settingsLoaded name size logging =>
    [("name", name), ("max_queue_size", toString size), ("enable_logging", Text.flag logging)]
  | .eventReceived kind source => [("kind", kind.name), ("source", source)]
  | .batchItemFailed index error => [("index", toString index), ("error", error.message)]
  | .dispatchComplete processed => [("processed", toString processed)]
  | .engineClosed engine => [("engine", engine)]
  | .engineRegistered id engine => [("id", id.label), ("engine", engine)]
  | .engineUnregistered id engine => [("id", id.label), ("engine", engine)]
  | .pumpStopped engine dispatched =>
    [("engine", engine), ("dispatched", toString dispatched)]
  | .pumpFailed => []

end Event

end Trace

end EventStaging
