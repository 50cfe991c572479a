import EventStaging.Callbacks
import EventStaging.Metrics.Histogram
import EventStaging.Metrics.Labels

/-!
# Metrics of a service

What a service counts: the events it received, the events its handler was given, the last queue
size it saw, and how long its dispatches took.
-/

namespace EventStaging

/-- What a service counts: the events received and the events given to the handler, each by label,
the queue size at the last look, and how long dispatches took. -/
structure Metrics where
  received : Series := {}
  processed : Series := {}
  queueSize : Nat := 0
  durations : Histogram := {}
  deriving DecidableEq, Repr

/-- How often a label has been counted, as it is reported: the name of the kind, the source, and the
count. -/
structure LabeledCount where
  kind : String
  source : String
  count : Nat
  deriving DecidableEq, Repr

/-- Metrics as they are reported, with the same parts. -/
structure MetricsSnapshot where
  received : List LabeledCount
  processed : List LabeledCount
  queueSize : Nat
  dispatchDuration : HistogramSnapshot

/-- A series as it is reported, in the order of the labels. -/
def Series.snapshot (series : Series) : List LabeledCount :=
  series.counts.map fun (label, count) ↦ ⟨label.kind.name, label.source, count⟩

namespace Metrics

/-- Counts an event received. -/
def recordReceived (label : Label) (metrics : Metrics) : Metrics :=
  { metrics with received := metrics.received.bump label }

/-- Counts an event given to the handler. -/
def recordProcessed (label : Label) (metrics : Metrics) : Metrics :=
  { metrics with processed := metrics.processed.bump label }

/-- Takes the queue size down. -/
def setQueueSize (size : Nat) (metrics : Metrics) : Metrics := { metrics with queueSize := size }

/-- Takes the duration of a dispatch in. -/
def observeDispatch (elapsed : Duration) (metrics : Metrics) : Metrics :=
  { metrics with durations := metrics.durations.observe elapsed }

/-- The metrics as they stand. -/
def snapshot (metrics : Metrics) : MetricsSnapshot where
  received := metrics.received.snapshot
  processed := metrics.processed.snapshot
  queueSize := metrics.queueSize
  dispatchDuration := metrics.durations.snapshot

end Metrics

/-- The label under which a record is counted. -/
def Record.label (record : Record) : Label := ⟨record.kind, record.source⟩

/-- A handler that counts each record in the metrics kept in a cell before it handles it. -/
def Handler.metered {σ : Type} (cell : Cell σ Metrics) (handler : Handler σ) : Handler σ :=
  fun record host ↦ handler record (cell.modify (Metrics.recordProcessed record.label) host)

end EventStaging
