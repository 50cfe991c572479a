import EventStaging.Metrics.Basic
import Mathlib.Algebra.Ring.Nat
import Mathlib.Data.List.Basic

/-!
# Counting by labels

The labels are in a strict order (`Label.before_trans`, `Label.before_of_not`), and a series keeps its
labels in that order. So counting one more under a label changes the count of that label only
(`Series.Ascending.count_bump`), and a series that has counted a list of labels tells of every label
how often it is in the list (`Series.count_tally`), and in total how long the list is
(`Series.total_tally`).
-/

namespace EventStaging

/-- Kinds of equal rank are equal. -/
theorem Kind.eq_of_rank_eq {a b : Kind} (h : a.rank = b.rank) : a = b := by
  cases a <;> cases b <;> trivial

namespace Label

variable {a b c : Label}

/-- Labels are ordered by their kinds first and then by their sources. -/
theorem before_iff :
    a.before b ↔ a.kind.rank < b.kind.rank ∨ a.kind.rank = b.kind.rank ∧ a.source < b.source := by
  simp [before]

/-- No label comes before itself. -/
theorem before_irrefl (a : Label) : ¬ a.before a := by
  rw [before_iff]
  rintro (hrank | ⟨-, hsource⟩)
  · exact Nat.lt_irrefl _ hrank
  · exact String.lt_irrefl _ hsource

/-- The order of labels is transitive. -/
theorem before_trans (hab : a.before b) (hbc : b.before c) : a.before c := by
  rw [before_iff] at hab hbc ⊢
  rcases hab with hab | ⟨hab, hab'⟩ <;> rcases hbc with hbc | ⟨hbc, hbc'⟩
  · exact .inl (Nat.lt_trans hab hbc)
  · exact .inl (hbc ▸ hab)
  · exact .inl (hab ▸ hbc)
  · exact .inr ⟨hab.trans hbc, String.lt_trans hab' hbc'⟩

/-- Of two different labels one comes before the other. -/
theorem before_of_not (hne : a ≠ b) (h : ¬ a.before b) : b.before a := by
  rw [before_iff] at h ⊢
  rcases Nat.lt_trichotomy a.kind.rank b.kind.rank with hlt | heq | hgt
  · exact absurd (.inl hlt) h
  · refine .inr ⟨heq.symm, ?_⟩
    have hle : b.source ≤ a.source := String.not_lt.mp fun hlt ↦ h (.inr ⟨heq, hlt⟩)
    by_contra hnot
    have hsource : a.source = b.source := String.le_antisymm (String.not_lt.mp hnot) hle
    cases a
    cases b
    exact hne (congr (congrArg Label.mk (Kind.eq_of_rank_eq heq)) hsource)
  · exact .inl hgt

end Label

namespace Series

variable {series : Series} {label other : Label}

/-! ## One more -/

/-- The labels of a series are in ascending order. -/
def Ascending (series : Series) : Prop :=
  series.counts.Pairwise fun one other ↦ one.1.before other.1

/-- An empty series is in order. -/
theorem ascending_empty : Ascending {} := .nil

/-- Counting a label brings no other label in. -/
theorem eq_or_mem_of_mem_bumpIn {counts : List (Label × Nat)} {entry : Label × Nat}
    (h : entry ∈ bumpIn label counts) :
    entry.1 = label ∨ ∃ former ∈ counts, former.1 = entry.1 := by
  induction counts with
  | nil => exact .inl (congrArg Prod.fst (List.mem_singleton.mp h))
  | cons head rest ih =>
      unfold bumpIn at h
      split at h
      · rcases List.mem_cons.mp h with rfl | h
        · exact .inr ⟨head, List.mem_cons_self, rfl⟩
        · exact .inr ⟨entry, List.mem_cons_of_mem _ h, rfl⟩
      · split at h
        · rcases List.mem_cons.mp h with rfl | h
          · exact .inl rfl
          · exact .inr ⟨entry, h, rfl⟩
        · rcases List.mem_cons.mp h with rfl | h
          · exact .inr ⟨_, List.mem_cons_self, rfl⟩
          · rcases ih h with heq | ⟨former, hmem, heq⟩
            · exact .inl heq
            · exact .inr ⟨former, List.mem_cons_of_mem _ hmem, heq⟩

/-- Counting a label leaves a series in order. -/
theorem Ascending.bump (h : series.Ascending) (label : Label) : (series.bump label).Ascending := by
  obtain ⟨counts⟩ := series
  show (bumpIn label counts).Pairwise _
  induction counts with
  | nil => exact List.pairwise_singleton _ _
  | cons head rest ih =>
      obtain ⟨hhead, hrest⟩ := List.pairwise_cons.mp h
      unfold bumpIn
      split
      · exact List.pairwise_cons.mpr ⟨hhead, hrest⟩
      · rename_i hne
        split
        · rename_i hbefore
          refine List.pairwise_cons.mpr ⟨?_, h⟩
          intro entry hmem
          rcases List.mem_cons.mp hmem with rfl | hmem
          · exact hbefore
          · exact Label.before_trans hbefore (hhead entry hmem)
        · rename_i hnot
          refine List.pairwise_cons.mpr ⟨?_, ih hrest⟩
          intro entry hmem
          -- An entry further on is of the label itself, or of one that was there before.
          rcases eq_or_mem_of_mem_bumpIn hmem with heq | ⟨former, hformer, heq⟩
          · exact heq ▸ Label.before_of_not hne hnot
          · exact heq ▸ hhead former hformer

/-- A label that comes before all others of a list is not in the list. -/
theorem lookup_eq_none_of_before {counts : List (Label × Nat)}
    (h : ∀ entry ∈ counts, label.before entry.1) : counts.lookup label = none := by
  rw [List.lookup_eq_none_iff]
  intro entry hmem
  refine bne_iff_ne.mpr fun heq ↦ ?_
  exact Label.before_irrefl label (heq ▸ h entry hmem)

/-- The count of another label is looked up further on. -/
theorem lookup_cons_of_ne (hne : label ≠ other) (count : Nat) (counts : List (Label × Nat)) :
    ((label, count) :: counts).lookup other = counts.lookup other := by
  simp [List.lookup_cons, beq_false_of_ne hne.symm]

/-- Counting under a label counts one more under that label, and nothing else. -/
theorem Ascending.count_bump (h : series.Ascending) (label other : Label) :
    (series.bump label).count other = series.count other + if label = other then 1 else 0 := by
  obtain ⟨counts⟩ := series
  show ((bumpIn label counts).lookup other).getD 0 = (counts.lookup other).getD 0 + _
  induction counts with
  | nil =>
      by_cases hother : label = other
      · simp [bumpIn, hother]
      · simp [bumpIn, hother, lookup_cons_of_ne]
  | cons head rest ih =>
      obtain ⟨hhead, hrest⟩ := List.pairwise_cons.mp h
      obtain ⟨first, count⟩ := head
      unfold bumpIn
      split
      case isTrue heq =>
        subst heq
        by_cases hother : label = other
        · simp [hother]
        · simp [hother, lookup_cons_of_ne]
      case isFalse hne =>
        split
        case isTrue hbefore =>
          -- A label that comes first was not counted before.
          have hnone : ((first, count) :: rest).lookup label = none := by
            refine lookup_eq_none_of_before ?_
            intro entry hmem
            rcases List.mem_cons.mp hmem with rfl | hmem
            · exact hbefore
            · exact Label.before_trans hbefore (hhead entry hmem)
          by_cases hother : label = other
          · subst hother
            simp [hnone]
          · rw [lookup_cons_of_ne hother, if_neg hother, Nat.add_zero]
        case isFalse hnot =>
          by_cases hother : first = other
          · subst hother
            simp [hne]
          · rw [lookup_cons_of_ne hother, lookup_cons_of_ne hother]
            exact ih hrest

/-! ## Tallies -/

/-- How often labels have been counted altogether. -/
def total (series : Series) : Nat := (series.counts.map Prod.snd).sum

/-- Counting a label adds one to the total. -/
theorem total_bump (series : Series) (label : Label) :
    (series.bump label).total = series.total + 1 := by
  obtain ⟨counts⟩ := series
  show ((bumpIn label counts).map Prod.snd).sum = (counts.map Prod.snd).sum + 1
  induction counts with
  | nil => rfl
  | cons head rest ih =>
      unfold bumpIn
      split
      · simp only [List.map_cons, List.sum_cons]
        omega
      · split
        · simp only [List.map_cons, List.sum_cons]
          omega
        · simp only [List.map_cons, List.sum_cons, ih]
          omega

/-- The series that has counted some labels. -/
def tally (labels : List Label) : Series := labels.foldl bump {}

/-- Labels are counted one after the other. -/
theorem tally_append (first second : List Label) :
    tally (first ++ second) = second.foldl bump (tally first) :=
  List.foldl_append

/-- Each label is counted as often as it occurs. -/
theorem Ascending.count_foldl_bump (h : series.Ascending) (labels : List Label) (label : Label) :
    (labels.foldl Series.bump series).count label = series.count label + labels.count label := by
  induction labels generalizing series with
  | nil => rfl
  | cons head labels ih =>
      rw [List.foldl_cons, ih (h.bump head), h.count_bump, List.count_cons]
      simp only [beq_iff_eq]
      omega

/-- A tally tells how often each label was counted. -/
theorem count_tally (labels : List Label) (label : Label) :
    (tally labels).count label = labels.count label :=
  (ascending_empty.count_foldl_bump labels label).trans (Nat.zero_add _)

/-- A tally tells how many labels were counted. -/
theorem total_tally (labels : List Label) : (tally labels).total = labels.length := by
  have hfold : ∀ series : Series,
      (labels.foldl bump series).total = series.total + labels.length := by
    induction labels with
    | nil => exact fun _ ↦ rfl
    | cons label labels ih =>
        intro series
        rw [List.foldl_cons, ih, total_bump, List.length_cons]
        omega
  exact (hfold {}).trans (Nat.zero_add _)

end Series

end EventStaging
