import EventStaging.Proofs.Metrics.Series
import EventStaging.Proofs.Text.Bytes
import Mathlib.Algebra.BigOperators.Group.List.Basic
import Mathlib.Data.List.Induction
import Mathlib.Data.List.Sort

/-!
# What labelled counters report

The metrics of a service are told of events received and of events processed, in any order. A series
in which no count is zero is settled by how often it counted each label (`Series.Exact.ext`), so
metrics report exactly the labels that occurred, in the order of the wire numbers and then of the
bytes of the sources, each with the number of its calls; and neither the order of the calls nor the
calls of the other series matter (`Metrics.marked_exact`).
-/

namespace EventStaging

/-- The wire numbers are in the order of the ranks. -/
theorem Kind.wire_lt_wire_iff {a b : Kind} : a.wire < b.wire ↔ a.rank < b.rank := by
  cases a <;> cases b <;> decide

/-- No two kinds have the same name. -/
theorem Kind.name_injective : Function.Injective Kind.name := by
  intro a b h
  cases a <;> cases b <;> first | rfl | exact absurd h (by decide)

namespace Label

/-- Labels are in the order of the wire numbers of their kinds, and labels of one kind are in the
order of the bytes of their sources. -/
theorem before_iff_wire {a b : Label} :
    a.before b ↔ a.kind.wire < b.kind.wire ∨
      a.kind = b.kind ∧ Text.bytes a.source < Text.bytes b.source := by
  rw [before_iff, Kind.wire_lt_wire_iff, Text.lt_iff_bytes_lt]
  have hkind : a.kind.rank = b.kind.rank ↔ a.kind = b.kind :=
    ⟨Kind.eq_of_rank_eq, congrArg Kind.rank⟩
  rw [hkind]

end Label

namespace Series

variable {series : Series} {label : Label} {number : Nat}

/-! ## A series is settled by its counts -/

/-- The labels of a series are in ascending order, and none has been counted zero times. -/
structure Exact (series : Series) : Prop where
  ascending : series.Ascending
  positive : ∀ entry ∈ series.counts, 0 < entry.2

/-- A series that was told of nothing is exact. -/
theorem exact_empty : Exact {} := ⟨ascending_empty, fun _ hmem ↦ absurd hmem List.not_mem_nil⟩

/-- Counting a label leaves a series exact. -/
theorem Exact.bump (h : series.Exact) (label : Label) : (series.bump label).Exact := by
  refine ⟨h.ascending.bump label, ?_⟩
  obtain ⟨counts⟩ := series
  have hpositive : ∀ entry ∈ counts, 0 < entry.2 := h.positive
  clear h
  show ∀ entry ∈ bumpIn label counts, 0 < entry.2
  induction counts with
  | nil => exact fun entry hmem ↦ List.mem_singleton.mp hmem ▸ Nat.one_pos
  | cons head rest ih =>
      obtain ⟨hhead, hrest⟩ := List.forall_mem_cons.mp hpositive
      unfold bumpIn
      split
      · exact List.forall_mem_cons.mpr ⟨Nat.succ_pos _, hrest⟩
      · split
        · exact List.forall_mem_cons.mpr ⟨Nat.one_pos, hpositive⟩
        · exact List.forall_mem_cons.mpr ⟨hhead, ih hrest⟩

/-- Every tally is exact. -/
theorem exact_tally (labels : List Label) : (tally labels).Exact :=
  List.foldlRecOn labels Series.bump exact_empty fun _ h label _ ↦ h.bump label

/-- A series lists a label with a number exactly when that is how often it counted the label, and
not zero. -/
theorem Exact.mem_counts_iff (h : series.Exact) :
    (label, number) ∈ series.counts ↔ 0 < number ∧ series.count label = number := by
  obtain ⟨counts⟩ := series
  have hascending : counts.Pairwise fun one other ↦ one.1.before other.1 := h.ascending
  have hpositive : ∀ entry ∈ counts, 0 < entry.2 := h.positive
  clear h
  show _ ↔ 0 < number ∧ (counts.lookup label).getD 0 = number
  induction counts with
  | nil =>
      simp only [List.not_mem_nil, List.lookup_nil, Option.getD_none, false_iff]
      omega
  | cons head rest ih =>
      obtain ⟨first, count⟩ := head
      obtain ⟨hhead, hrest⟩ := List.pairwise_cons.mp hascending
      obtain ⟨hcount, hothers⟩ := List.forall_mem_cons.mp hpositive
      by_cases heq : first = label
      · subst heq
        -- Labels ascend, so the one at the head does not come again.
        have hnot : (first, number) ∉ rest := fun hmem ↦
          Label.before_irrefl first (hhead _ hmem)
        simp only [List.mem_cons, Prod.mk.injEq, true_and, hnot, or_false, List.lookup_cons_self,
          Option.getD_some]
        exact ⟨fun hnumber ↦ ⟨hnumber ▸ hcount, hnumber.symm⟩, fun hnumber ↦ hnumber.2.symm⟩
      · rw [lookup_cons_of_ne heq, ← ih hrest hothers, List.mem_cons]
        exact or_iff_right fun hentry ↦ heq (congrArg Prod.fst hentry).symm

/-- Two series that counted every label alike are the same. -/
theorem Exact.ext {other : Series} (h : series.Exact) (hother : other.Exact)
    (hcount : ∀ label, series.count label = other.count label) : series = other := by
  have hcounts : series.counts = other.counts := by
    have : Std.Irrefl fun one other : Label × Nat ↦ (one.1.before other.1 : Prop) :=
      ⟨fun entry ↦ Label.before_irrefl entry.1⟩
    have : Std.Antisymm fun one other : Label × Nat ↦ (one.1.before other.1 : Prop) :=
      ⟨fun _ _ hone hother ↦ absurd (Label.before_trans hone hother) (Label.before_irrefl _)⟩
    refine h.ascending.eq_of_mem_iff hother.ascending ?_
    rintro ⟨label, number⟩
    rw [h.mem_counts_iff, hother.mem_counts_iff, hcount]
  cases series
  cases other
  exact congrArg Series.mk hcounts

/-- The order in which labels are counted does not matter. -/
theorem tally_perm {labels others : List Label} (h : labels.Perm others) :
    tally labels = tally others := by
  refine (exact_tally labels).ext (exact_tally others) fun label ↦ ?_
  rw [count_tally, count_tally, h.count_eq]

/-! ## What a series reports -/

/-- What a series reports of the labels it was told of: each label that occurred, once and in order,
with the number of times it occurred. The order is that of the wire numbers of the kinds and then of
the bytes of the sources. The counts add up to the number of times any label occurred. -/
structure Reports (series : Series) (labels : List Label) : Prop where
  count_eq : ∀ label, series.count label = labels.count label
  snapshot_eq : ∃ distinct : List Label,
    series.snapshot =
      distinct.map (fun label ↦ ⟨label.kind.name, label.source, labels.count label⟩) ∧
    (∀ label, label ∈ distinct ↔ label ∈ labels) ∧
    distinct.Pairwise fun a b ↦ a.kind.wire < b.kind.wire ∨
      a.kind = b.kind ∧ Text.bytes a.source < Text.bytes b.source
  once : (series.snapshot.map fun entry ↦ (entry.kind, entry.source)).Nodup
  positive : ∀ entry ∈ series.snapshot, 0 < entry.count
  sum_eq : (series.snapshot.map LabeledCount.count).sum = labels.length

/-- The report of a tally tells how often each label occurred. -/
theorem snapshot_tally (labels : List Label) :
    (tally labels).snapshot =
      ((tally labels).counts.map Prod.fst).map
        fun label ↦ ⟨label.kind.name, label.source, labels.count label⟩ := by
  rw [snapshot, List.map_map]
  refine List.map_congr_left fun entry hmem ↦ ?_
  have hcount : (tally labels).count entry.1 = entry.2 :=
    ((exact_tally labels).mem_counts_iff.mp hmem).2
  rw [count_tally] at hcount
  exact congrArg (LabeledCount.mk _ _) hcount.symm

/-- A tally knows exactly the labels that occurred. -/
theorem mem_tally_iff (labels : List Label) (label : Label) :
    label ∈ (tally labels).counts.map Prod.fst ↔ label ∈ labels := by
  rw [List.mem_map, ← List.count_pos_iff (l := labels)]
  constructor
  · rintro ⟨⟨_, number⟩, hmem, rfl⟩
    obtain ⟨hpositive, hcount⟩ := (exact_tally labels).mem_counts_iff.mp hmem
    rwa [← count_tally, hcount]
  · intro hpositive
    refine ⟨(label, labels.count label), ?_, rfl⟩
    exact (exact_tally labels).mem_counts_iff.mpr ⟨hpositive, count_tally labels label⟩

/-- In ascending order no label stands twice. -/
theorem Ascending.nodup (h : series.Ascending) : (series.counts.map Prod.fst).Nodup := by
  refine List.Pairwise.map Prod.fst ?_ h
  intro one other hbefore heq
  exact Label.before_irrefl _ (heq ▸ hbefore)

/-- A tally reports exactly the labels it has counted. -/
theorem reports_tally (labels : List Label) : (tally labels).Reports labels where
  count_eq := count_tally labels
  snapshot_eq := by
    refine ⟨_, snapshot_tally labels, mem_tally_iff labels, ?_⟩
    exact List.Pairwise.map Prod.fst (fun _ _ ↦ Label.before_iff_wire.mp)
      (exact_tally labels).ascending
  once := by
    rw [snapshot_tally, List.map_map]
    refine (exact_tally labels).ascending.nodup.map ?_
    rintro ⟨kind, source⟩ ⟨otherKind, otherSource⟩ heq
    obtain ⟨hkind, hsource⟩ := Prod.mk.inj heq
    exact congr (congrArg Label.mk (Kind.name_injective hkind)) hsource
  positive := by
    intro entry hmem
    obtain ⟨former, hformer, rfl⟩ := List.mem_map.mp hmem
    exact (exact_tally labels).positive former hformer
  sum_eq := by
    rw [snapshot, List.map_map]
    exact total_tally labels

end Series

/-! ## Calls -/

/-- What the counters by label are told: an event of the label was received, or it was processed. -/
inductive Mark where
  | received (label : Label)
  | processed (label : Label)
  deriving DecidableEq, Repr

namespace Mark

/-- What metrics make of a call. -/
def record : Mark → Metrics → Metrics
  | received label => Metrics.recordReceived label
  | processed label => Metrics.recordProcessed label

/-- The label of an event received. -/
def received? : Mark → Option Label
  | received label => some label
  | processed _ => none

/-- The label of an event processed. -/
def processed? : Mark → Option Label
  | received _ => none
  | processed label => some label

end Mark

namespace Metrics

/-- New metrics that were told of some events. -/
def marked (marks : List Mark) : Metrics :=
  marks.foldl (fun metrics mark ↦ mark.record metrics) {}

/-- Each series counts the calls of its own, and nothing else changes. -/
theorem marked_eq (marks : List Mark) :
    marked marks = {
      received := Series.tally (marks.filterMap Mark.received?)
      processed := Series.tally (marks.filterMap Mark.processed?) } := by
  induction marks using List.reverseRecOn with
  | nil => rfl
  | append_singleton marks mark ih =>
      rw [marked, List.foldl_append]
      show mark.record (marked marks) = _
      rw [ih, List.filterMap_append, List.filterMap_append, Series.tally_append,
        Series.tally_append]
      cases mark <;> rfl

/-- Each series reports exactly the calls of its own: the other calls leave it alone, and the order
of the calls does not matter. -/
theorem marked_exact (marks : List Mark) :
    (marked marks).received.Reports (marks.filterMap Mark.received?) ∧
      (marked marks).processed.Reports (marks.filterMap Mark.processed?) ∧
      (∀ others : List Mark,
        others.filterMap Mark.received? = marks.filterMap Mark.received? →
          (marked others).received = (marked marks).received) ∧
      (∀ others : List Mark,
        others.filterMap Mark.processed? = marks.filterMap Mark.processed? →
          (marked others).processed = (marked marks).processed) ∧
      ∀ others : List Mark,
        marks.Perm others → (marked others).snapshot = (marked marks).snapshot := by
  simp only [marked_eq]
  refine ⟨Series.reports_tally _, Series.reports_tally _, ?_, ?_, ?_⟩
  · exact fun others h ↦ congrArg Series.tally h
  · exact fun others h ↦ congrArg Series.tally h
  · intro others h
    rw [Series.tally_perm (h.filterMap Mark.received?),
      Series.tally_perm (h.filterMap Mark.processed?)]

/-- Two events of one label, one of a source that starts like it and one of another kind, in the
order of their report. -/
example :
    (marked [.received ⟨.connect, "a"⟩, .received ⟨.data, "ab"⟩, .processed ⟨.data, "b"⟩,
        .received ⟨.data, "a"⟩, .received ⟨.data, "ab"⟩]).snapshot.received =
      [⟨"DATA", "a", 1⟩, ⟨"DATA", "ab", 2⟩, ⟨"CONNECT", "a", 1⟩] := by
  decide +kernel

end Metrics

end EventStaging
