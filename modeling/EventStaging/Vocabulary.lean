import EventStaging.Text.Basic

/-!
# The words of diagnostics

The states of an engine, the levels of log lines and the roles of callbacks, with their names in
diagnostics. An engine is created idle and moves between running and stopped; only a running engine
dispatches. A host may name a level: blanks around the name and the case of its letters do not
matter, and a name that is not known stands for the ordinary level.
-/

namespace EventStaging

/-! ## States -/

/-- Whether an engine dispatches. -/
inductive Lifecycle where
  | idle
  | running
  | stopped
  deriving DecidableEq, Repr, Inhabited

namespace Lifecycle

/-- The name of a state in diagnostics. -/
def name : Lifecycle → String
  | .idle => "IDLE"
  | .running => "RUNNING"
  | .stopped => "STOPPED"

/-- Only the running state dispatches. -/
def isRunning : Lifecycle → Bool
  | .running => true
  | .idle | .stopped => false

/-- There is only one state in which an engine dispatches. -/
@[simp] theorem isRunning_iff {state : Lifecycle} : state.isRunning ↔ state = .running := by
  cases state <;> simp [isRunning]

end Lifecycle

/-! ## Levels -/

/-- How much a log line matters. -/
inductive Level where
  | debug
  | info
  | warn
  | error
  deriving DecidableEq, Repr, Inhabited

namespace Level

/-- The name of a level. -/
def name : Level → String
  | .debug => "DEBUG"
  | .info => "INFO"
  | .warn => "WARN"
  | .error => "ERROR"

/-- The level that a name stands for, whatever its case and the blanks around it. -/
def ofName (name : String) : Level :=
  let upper := (Text.trim name).toUpper
  if upper = "DEBUG" ∨ upper = "TRACE" then .debug
  else if upper = "WARN" ∨ upper = "WARNING" then .warn
  else if upper = "ERROR" then .error
  else .info

end Level

/-! ## Roles -/

/-- The part that a callback plays in an engine. -/
inductive Role where
  | event
  | filter
  | stateChange
  deriving DecidableEq, Repr

/-- The name of a role in diagnostics. -/
def Role.name : Role → String
  | .event => "event"
  | .filter => "filter"
  | .stateChange => "state change"

end EventStaging
