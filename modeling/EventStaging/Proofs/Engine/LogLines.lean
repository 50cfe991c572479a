import EventStaging.Decimal.Digits
import EventStaging.Proofs.Engine.Traits

/-!
# Reading log lines

What the log lines of an engine say about its queue, its counter and its state. A line is read by
its level and by the words with which it begins; a number is the first one in the line. The lemmas
about `Entry.read` say how each line that an engine can log is read.
-/

namespace EventStaging

namespace Text

/-- The first number in a text, or zero if there is none. -/
def firstNumber (text : String) : Nat :=
  Decimal.valueOf (Decimal.leadingDigits (text.toList.dropWhile (!·.isDigit)))

/-- The first number of a text is read off if no digit comes before it or right after it. -/
theorem firstNumber_append {start rest : String} (n : Nat)
    (hstart : start.toList.all (!·.isDigit)) (hrest : rest.toList.head?.all (!·.isDigit)) :
    firstNumber (start ++ toString n ++ rest) = n := by
  have hdigits : (toString n).toList = Decimal.digitsOf n := String.toList_ofList
  have hall : ∀ c ∈ Decimal.digitsOf n, c.isDigit := fun c hc ↦
    Nat.isDigit_of_mem_toDigits (by decide) (by decide) hc
  have hdrop : (start ++ toString n ++ rest).toList.dropWhile (!·.isDigit) =
      Decimal.digitsOf n ++ rest.toList := by
    rw [String.toList_append, String.toList_append, hdigits, List.append_assoc,
      List.dropWhile_append_of_pos (List.all_eq_true.mp hstart)]
    cases hcs : Decimal.digitsOf n with
    | nil => exact absurd hcs Nat.toDigits_ne_nil
    | cons c cs =>
        rw [hcs] at hall
        rw [List.cons_append, List.dropWhile_cons_of_neg]
        simp [hall c List.mem_cons_self]
  have htake : rest.toList.takeWhile Char.isDigit = [] := by
    cases hcs : rest.toList with
    | nil => rfl
    | cons c cs =>
        rw [hcs] at hrest
        rw [List.takeWhile_cons_of_neg]
        simpa using hrest
  rw [firstNumber, hdrop, Decimal.leadingDigits, List.takeWhile_append_of_pos hall, htake,
    List.append_nil, Decimal.valueOf_digitsOf]

end Text

/-- Every state. -/
def Lifecycle.all : List Lifecycle := [.idle, .running, .stopped]

/-- What a log line says: an event was `queued` and so many wait now, a record is dispatched, so
many records were dropped, the state changes, the queue is `full` with so many records, or something
else. -/
inductive Entry where
  | queued (size : Nat)
  | processing
  | cleared (count : Nat)
  | moved (old new : Lifecycle)
  | full (items : Nat)
  | other
  deriving DecidableEq, Repr

namespace Entry

/-- The change of state that a text tells of. -/
def moveIn? (text : String) : Option (Lifecycle × Lifecycle) :=
  (Lifecycle.all.flatMap fun old ↦ Lifecycle.all.map fun new ↦ (old, new)).find? fun move ↦
    text == s!"State change: {move.1.name} -> {move.2.name}"

/-- Reads a log line. -/
def read (line : Level × String) : Entry :=
  match line.1 with
  | .debug =>
    if Text.beginsWith line.2 "Event queued" then .queued (Text.firstNumber line.2)
    else if Text.beginsWith line.2 "Processing event" then .processing
    else .other
  | .info =>
    if Text.beginsWith line.2 "Cleared" then .cleared (Text.firstNumber line.2)
    else if Text.beginsWith line.2 "State change" then
      (moveIn? line.2).elim .other fun move ↦ .moved move.1 move.2
    else .other
  | .warn =>
    if Text.beginsWith line.2 "Queue full" then .full (Text.firstNumber line.2) else .other
  | .error => .other

/-! ## The lines of an engine -/

/-- The size is read off the line about an event that was queued. -/
theorem read_queued (kind : Kind) (size : Nat) :
    read (.debug, s!"Event queued (type={kind.name}, queue_size={size})") = .queued size := by
  have hnumber : Text.firstNumber s!"Event queued (type={kind.name}, queue_size={size})" = size :=
    Text.firstNumber_append size (by cases kind <;> decide) (by decide)
  have hbegins : Text.beginsWith s!"Event queued (type={kind.name}, queue_size={size})"
      "Event queued" := by
    simp [Text.beginsWith, Text.after?]
  simp only [read, hbegins, hnumber, if_true]

/-- The line about a dispatch is known by its beginning. -/
theorem read_processing (kind : Kind) :
    read (.debug, s!"Processing event (type={kind.name})") = .processing := by
  cases kind <;> rfl

theorem read_filtered : read (.debug, "Event filtered out") = .other := rfl

/-- The count is read off the line about a clear. -/
theorem read_cleared (count : Nat) :
    read (.info, s!"Cleared {count} events from queue") = .cleared count := by
  have hnumber : Text.firstNumber s!"Cleared {count} events from queue" = count :=
    Text.firstNumber_append count (by decide) (by decide)
  have hbegins : Text.beginsWith s!"Cleared {count} events from queue" "Cleared" := by
    simp [Text.beginsWith, Text.after?]
  simp only [read, hbegins, hnumber, if_true]

/-- Both states are read off the line about a change. -/
theorem read_moved (old new : Lifecycle) :
    read (.info, s!"State change: {old.name} -> {new.name}") = .moved old new := by
  cases old <;> cases new <;> rfl

/-- The line that sums a dispatch of everything up says nothing else. -/
theorem read_processed (count : Nat) : read (.info, s!"Processed {count} events") = .other := by
  simp [read, Text.beginsWith, Text.after?]

theorem read_created (name : String) :
    read (.info, s!"Event processor '{name}' created") = .other := by
  simp [read, Text.beginsWith, Text.after?]

/-- The number of records is read off the warning of a full queue. -/
theorem read_full (items : Nat) :
    read (.warn, s!"Queue full ({items} items)") = .full items := by
  have hnumber : Text.firstNumber s!"Queue full ({items} items)" = items :=
    Text.firstNumber_append items (by decide) (by decide)
  have hbegins : Text.beginsWith s!"Queue full ({items} items)" "Queue full" := by
    simp [Text.beginsWith, Text.after?]
  simp only [read, hbegins, hnumber, if_true]

/-- The number of records is read off the warning that also names the record dropped. -/
theorem read_full_dropping (items : Nat) (kind : Kind) :
    read (.warn, s!"Queue full ({items} items), dropping {kind.name}") = .full items := by
  have hnumber :
      Text.firstNumber s!"Queue full ({items} items), dropping {kind.name}" = items := by
    show Text.firstNumber
      ("Queue full (" ++ toString items ++ " items), dropping " ++ kind.name) = _
    rw [String.append_assoc]
    exact Text.firstNumber_append items (by decide) (by cases kind <;> decide)
  have hbegins : Text.beginsWith s!"Queue full ({items} items), dropping {kind.name}"
      "Queue full" := by
    simp [Text.beginsWith, Text.after?]
  simp only [read, hbegins, hnumber, if_true]

theorem read_notRunning : read (.warn, "Processor not running") = .other := rfl

end Entry

end EventStaging
