import EventStaging.Callbacks

/-!
# Filters

Filters that most hosts need: by source, by kind, by the size of the payload, and the conjunction of
filters. The first three decide by the record alone.
-/

namespace EventStaging

/-- The filter that decides by a property of the record. -/
def Filter.ofVerdict {σ : Type} (verdict : Record → Bool) : Filter σ :=
  fun record host ↦ (.returned (verdict record), host)

/-- Sources whose events are turned away. -/
structure SourceBlocklist where
  blocked : List String := []
  deriving Repr

namespace SourceBlocklist

/-- Blocks one more source. -/
def block (list : SourceBlocklist) (source : String) : SourceBlocklist :=
  if list.blocked.contains source then list else ⟨source :: list.blocked⟩

/-- Whether events of a source are turned away. -/
def isBlocked (list : SourceBlocklist) (source : String) : Bool := list.blocked.contains source

/-- Turns away the events of blocked sources. -/
def filter {σ : Type} (list : SourceBlocklist) : Filter σ :=
  Filter.ofVerdict fun record ↦ !list.isBlocked record.source

end SourceBlocklist

/-- Kinds whose events are let in. -/
structure KindFilter where
  allows : Kind → Bool

namespace KindFilter

/-- Lets in events of the given kinds. -/
def only (kinds : List Kind) : KindFilter := ⟨fun kind ↦ kinds.contains kind⟩

/-- Lets in events of all kinds but the given ones. -/
def except (kinds : List Kind) : KindFilter := ⟨fun kind ↦ !kinds.contains kind⟩

/-- Turns away the events of other kinds. -/
def filter {σ : Type} (kinds : KindFilter) : Filter σ :=
  Filter.ofVerdict fun record ↦ kinds.allows record.kind

end KindFilter

namespace Filter

variable {σ : Type}

/-- Turns away payloads of more than `limit` bytes. -/
def maxPayload (limit : Nat) : Filter σ :=
  ofVerdict fun record ↦ record.payload.length ≤ limit

/-- Turns away the events of one source. -/
def notSource (source : String) : Filter σ := ofVerdict fun record ↦ record.source != source

/-- Lets a record in when all of the filters do. They are asked in order, and the first that turns
the record away or fails decides. -/
def all : List (Filter σ) → Filter σ
  | [] => fun _ host ↦ (.returned true, host)
  | filter :: filters => fun record host ↦
    match filter record host with
    | (.returned true, host) => all filters record host
    | answer => answer

end Filter

end EventStaging
