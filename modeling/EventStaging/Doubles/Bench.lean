import EventStaging.Doubles.Basic
import EventStaging.Metrics.Basic

/-!
# A bench of stand-ins

The state of a host on which every stand-in has a place of its own.
-/

namespace EventStaging.Doubles

/-- What the stand-ins of a host remember: the records of a recording handler, how many a counting
one has counted, the attempts of a failing one, what the scripted filter is told, the captured log
lines, the changes of state, the metrics of handlers and of the service that shares them, and those
of a service that keeps its own. -/
structure Bench where
  recorder : Recorder := {}
  counted : Nat := 0
  attempts : Nat := 0
  script : ScriptedFilter := {}
  capture : LogCapture := {}
  states : StateRecorder := {}
  metrics : Metrics := {}
  ownMetrics : Metrics := {}
  deriving DecidableEq, Repr

namespace Bench

/-- The place of the remembered records. -/
def recorderCell : Cell Bench Recorder := ⟨recorder, fun a b ↦ { b with recorder := a },
  fun _ _ ↦ rfl⟩

/-- The place of the counted records. -/
def countedCell : Cell Bench Nat := ⟨counted, fun a b ↦ { b with counted := a }, fun _ _ ↦ rfl⟩

/-- The place of the attempts. -/
def attemptsCell : Cell Bench Nat := ⟨attempts, fun a b ↦ { b with attempts := a }, fun _ _ ↦ rfl⟩

/-- The place of the scripted filter. -/
def scriptCell : Cell Bench ScriptedFilter := ⟨script, fun a b ↦ { b with script := a },
  fun _ _ ↦ rfl⟩

/-- The place of the log lines. -/
def captureCell : Cell Bench LogCapture := ⟨capture, fun a b ↦ { b with capture := a },
  fun _ _ ↦ rfl⟩

/-- The place of the changes of state. -/
def statesCell : Cell Bench StateRecorder := ⟨states, fun a b ↦ { b with states := a },
  fun _ _ ↦ rfl⟩

/-- The place of the shared metrics. -/
def metricsCell : Cell Bench Metrics := ⟨metrics, fun a b ↦ { b with metrics := a }, fun _ _ ↦ rfl⟩

/-- The place of a service's own metrics. -/
def ownMetricsCell : Cell Bench Metrics := ⟨ownMetrics, fun a b ↦ { b with ownMetrics := a },
  fun _ _ ↦ rfl⟩

end Bench

end EventStaging.Doubles
