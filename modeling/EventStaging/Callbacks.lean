import EventStaging.Act

/-!
# Callbacks and configurations

The four places at which a host takes part in the work of an engine: it handles records, filters
them, receives log lines and is told of changes of state. Each callback is a function on the state
of the host, so it may remember what it has seen. An engine is made from its callbacks, a name, a
limit for its queue, and whether it logs; the name must be more than blanks and must not hold a zero
character.
-/

namespace EventStaging

/-- Handles a record that an engine dispatches. -/
abbrev Handler (σ : Type) := Record → σ → Outcome Unit × σ

/-- Says whether a record may be queued. -/
abbrev Filter (σ : Type) := Record → σ → Outcome Bool × σ

/-- Is told of the old and the new state. It may panic, but it reports no errors. -/
abbrev Observer (σ : Type) := Lifecycle → Lifecycle → σ → Option PanicPayload × σ

/-- Where the log lines of an engine go: to the host, which may panic but reports no errors, or into
trace events under a label. -/
inductive Sink (σ : Type) where
  | host (write : Level → String → σ → Option PanicPayload × σ)
  | forward (label : String)

/-- The label of forwarded lines if no other is chosen. -/
def Sink.defaultLabel : String := "evstage"

/-- The callbacks of an engine: the handler of dispatched records, the filter that decides which
records are queued, the sink of log lines, and the observer of changes of state. Each of them may be
missing. -/
structure Callbacks (σ : Type) where
  handler : Option (Handler σ) := none
  filter : Option (Filter σ) := none
  sink : Option (Sink σ) := none
  observer : Option (Observer σ) := none

namespace Callbacks

variable {σ : Type}

/-- Which callbacks are present, in words. -/
def summary (callbacks : Callbacks σ) : String :=
  "Callbacks \x7b on_event: " ++ Text.flag callbacks.handler.isSome ++
    ", on_filter: " ++ Text.flag callbacks.filter.isSome ++
    ", on_log: " ++ Text.flag callbacks.sink.isSome ++
    ", on_state_change: " ++ Text.flag callbacks.observer.isSome ++ " \x7d"

end Callbacks

namespace Act

variable {σ : Type}

/-- Gives a record to a handler. -/
def deliver (handler : Handler σ) (record : Record) : Act σ (Outcome Unit) :=
  call (handler record) (.delivered record)

/-- Asks a filter about a record. -/
def offer (filter : Filter σ) (record : Record) : Act σ (Outcome Bool) :=
  call (filter record) (.offered record)

/-- Tells an observer of a change of state. -/
def notify (observer : Observer σ) (old new : Lifecycle) : Act σ (Outcome Unit) := do
  let panic ← call (observer old new) fun panic ↦ .notified old new (Outcome.ofPanic? panic)
  return Outcome.ofPanic? panic

/-- Gives a log line of the named engine to a sink. A panic of the sink is swallowed, but for a
trace event. -/
def write (sink : Sink σ) (engine : String) (level : Level) (message : String) : Act σ Unit :=
  match sink with
  | .host line => do
    let panic ← call (line level message) fun panic ↦
      .logged level message (Outcome.ofPanic? panic)
    if panic.isSome then trace (.sinkPanicked engine level)
  | .forward label => do
    observe (.logged level message (.returned ()))
    trace (.forwarded label level message)

end Act

/-! ## Configurations -/

/-- What an engine is made from: its name in diagnostics, how many records may be queued, where zero
stands for no limit, whether log lines are offered to the sink, and the callbacks. -/
structure Config (σ : Type) where
  name : String
  maxQueueSize : Nat := 0
  enableLogging : Bool := false
  callbacks : Callbacks σ := {}

namespace Config

variable {σ : Type}

/-- Refuses a blank name, and then a name with a zero character. -/
def validate (config : Config σ) : Except ConfigError Unit :=
  if (Text.trimChars config.name.toList).isEmpty then .error .emptyName
  else if config.name.toList.any fun c ↦ c.toNat == 0 then .error (.zeroInName config.name)
  else .ok ()

end Config

end EventStaging
