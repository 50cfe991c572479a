import EventStaging.Filters

/-!
# Stand-in callbacks

Callbacks that remember what they were given, count it, or fail on purpose. They are what a host
uses to try out an engine. Each keeps what it remembers in a cell of the host. Some take their cue
from the source of a record: the source says whether the call is to fail, in which way, and with
which text.
-/

namespace EventStaging.Doubles

open EventStaging

variable {σ α : Type}

/-- The records that a handler was given, the latest first. -/
structure Recorder where
  latest : List Record := []
  deriving DecidableEq, Repr

namespace Recorder

/-- Remembers one more record. -/
def add (record : Record) (recorder : Recorder) : Recorder := ⟨record :: recorder.latest⟩

/-- The records in the order in which they came. -/
def records (recorder : Recorder) : List Record := recorder.latest.reverse

/-- The number of records. -/
def count (recorder : Recorder) : Nat := recorder.latest.length

/-- The sources of the records. -/
def sources (recorder : Recorder) : List String := recorder.records.map Record.source

/-- The kinds of the records. -/
def kinds (recorder : Recorder) : List Kind := recorder.records.map Record.kind

/-- Handles a record by remembering it. -/
def handler (cell : Cell σ Recorder) : Handler σ :=
  fun record host ↦ (.returned (), cell.modify (add record) host)

end Recorder

/-- Handles a record by counting it. -/
def counting (cell : Cell σ Nat) : Handler σ :=
  fun _ host ↦ (.returned (), cell.modify (· + 1) host)

/-- Handles a record by counting the attempt and failing with the given text, by a panic if `panics`
and by an error otherwise. -/
def failing (cell : Cell σ Nat) (panics : Bool) (message : String) : Handler σ :=
  fun _ host ↦
    (if panics then .panicked (.text message) else .failed message, cell.modify (· + 1) host)

/-- A filter that answers as it is told: whether it lets records in and whether it fails instead. It
counts the records that it has `seen`. -/
structure ScriptedFilter where
  allow : Bool := true
  fail : Bool := false
  seen : Nat := 0
  deriving DecidableEq, Repr

namespace ScriptedFilter

/-- What it answers. -/
def answer (script : ScriptedFilter) : Outcome Bool :=
  if script.fail then .failed "scripted filter failure" else .returned script.allow

/-- Counts the record and answers as it is told. -/
def filter (cell : Cell σ ScriptedFilter) : Filter σ := fun _ host ↦
  let script := cell.get host
  (script.answer, cell.set { script with seen := script.seen + 1 } host)

/-- Answers as it was told once and for all. -/
def fixed (script : ScriptedFilter) : Filter σ := fun _ host ↦ (script.answer, host)

end ScriptedFilter

/-- The log lines that a sink was given, the latest first. -/
structure LogCapture where
  latest : List (Level × String) := []
  deriving DecidableEq, Repr

namespace LogCapture

/-- Remembers one more line. -/
def add (level : Level) (message : String) (capture : LogCapture) : LogCapture :=
  ⟨(level, message) :: capture.latest⟩

/-- The lines in the order in which they came. -/
def lines (capture : LogCapture) : List (Level × String) := capture.latest.reverse

/-- The number of lines. -/
def count (capture : LogCapture) : Nat := capture.latest.length

/-- The messages of a level. -/
def messagesAt (capture : LogCapture) (level : Level) : List String :=
  (capture.lines.filter fun line ↦ line.1 == level).map Prod.snd

/-- Whether some message holds the given text. -/
def contains (capture : LogCapture) (part : String) : Bool :=
  capture.lines.any fun line ↦ Text.contains line.2 part

@[simp] theorem lines_empty : lines {} = [] := rfl

/-- The latest line comes last. -/
@[simp] theorem lines_add (level : Level) (message : String) (capture : LogCapture) :
    (capture.add level message).lines = capture.lines ++ [(level, message)] := by
  simp [add, lines]

/-- Takes a line by remembering it. -/
def sink (cell : Cell σ LogCapture) : Sink σ :=
  .host fun level message host ↦ (none, cell.modify (add level message) host)

/-- Takes a line by remembering it, but panics if the line holds the given text. -/
def panickingSink (cell : Cell σ LogCapture) (part : String) : Sink σ :=
  .host fun level message host ↦
    if Text.contains message part then (some (.text "log sink refused"), host)
    else (none, cell.modify (add level message) host)

end LogCapture

/-- The changes of state that an observer was told of, each with the old and the new state, the
latest first. -/
structure StateRecorder where
  latest : List (Lifecycle × Lifecycle) := []
  deriving DecidableEq, Repr

namespace StateRecorder

/-- Remembers one more change. -/
def add (old new : Lifecycle) (recorder : StateRecorder) : StateRecorder :=
  ⟨(old, new) :: recorder.latest⟩

/-- The changes in the order in which they came. -/
def transitions (recorder : StateRecorder) : List (Lifecycle × Lifecycle) :=
  recorder.latest.reverse

/-- The number of changes. -/
def count (recorder : StateRecorder) : Nat := recorder.latest.length

/-- Hears of a change by remembering it. -/
def observer (cell : Cell σ StateRecorder) : Observer σ :=
  fun old new host ↦ (none, cell.modify (add old new) host)

/-- Hears of a change by remembering it, and then panics if it leads to the given state. -/
def panickingObserver (cell : Cell σ StateRecorder) (state : Lifecycle) : Observer σ :=
  fun old new host ↦
    (if new = state then some (.text "observer down") else none, cell.modify (add old new) host)

end StateRecorder

/-! ## Acting by the source -/

/-- The failure that a source asks for: an error or a panic with the text that follows the cue, a
panic with a fixed text, or a panic with a value that is no text. -/
def cue? (source : String) : Option (Outcome α) :=
  match Text.rest? source "err:", Text.rest? source "panic:" with
  | some error, _ => some (.failed error)
  | none, some message => some (.panicked (.text message))
  | none, none =>
    if source = "panic_static" then some (.panicked (.text "static boom"))
    else if source = "panic_any" then some (.panicked .other)
    else none

/-- Remembers a record, and then fails if its source asks for it. -/
def scriptedHandler (cell : Cell σ Recorder) : Handler σ := fun record host ↦
  ((cue? record.source).getD (.returned ()), cell.modify (Recorder.add record) host)

/-- Fails if the source of a record asks for it. Otherwise it turns away the records whose source
begins with a denial. -/
def scriptedFilter : Filter σ := fun record host ↦
  ((cue? record.source).getD (.returned !Text.beginsWith record.source "deny"), host)

end EventStaging.Doubles
