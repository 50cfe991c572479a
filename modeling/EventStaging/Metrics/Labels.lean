import EventStaging.Record

/-!
# Labelled counters

A series of counters, one for each label that has occurred. A label is a kind of event and the name
of a source, and a series is kept in the order of the labels: by the wire numbers of the kinds
first, then by the code points of the sources.
-/

namespace EventStaging

/-- What a counter counts events by: their kind and their source. -/
structure Label where
  kind : Kind
  source : String
  deriving DecidableEq, Repr

namespace Label

/-- One label comes before another when its kind does, or when the kinds are the same and its
source comes first. -/
def before (a b : Label) : Bool :=
  a.kind.rank < b.kind.rank || (a.kind.rank == b.kind.rank && a.source < b.source)

end Label

/-- The labels that have occurred, each with its count, in ascending order. -/
structure Series where
  counts : List (Label × Nat) := []
  deriving DecidableEq, Repr

namespace Series

/-- Counts one more under a label in a list of counts. -/
def bumpIn (label : Label) : List (Label × Nat) → List (Label × Nat)
  | [] => [(label, 1)]
  | (other, count) :: rest =>
    if label = other then (other, count + 1) :: rest
    else if label.before other then (label, 1) :: (other, count) :: rest
    else (other, count) :: bumpIn label rest

/-- Counts one more under a label. -/
def bump (series : Series) (label : Label) : Series := ⟨bumpIn label series.counts⟩

/-- How often a label has been counted. -/
def count (series : Series) (label : Label) : Nat := (series.counts.lookup label).getD 0

end Series

end EventStaging
