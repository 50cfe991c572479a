import EventStaging.Proofs.Metrics.Durations
import Mathlib.Algebra.Ring.Nat
import Mathlib.Data.List.Forall2
import Mathlib.Data.List.Induction

/-!
# What the buckets count

A histogram is told of durations one after the other. Each of its buckets has counted exactly the
samples at or below its bound (`Histogram.buckets_foldl`), so the buckets are cumulative, no count
ever falls, and the order of the samples does not matter. The sum leaves out less than a microsecond
of each sample (`Duration.total_bounds`). Main statement: `Metrics.buckets_exact`.
-/

namespace EventStaging

namespace Duration

/-! ## Counting samples -/

/-- How many samples do not exceed a bound in nanoseconds. -/
def countUpTo (samples : List Duration) (bound : Nat) : Nat :=
  samples.countP fun sample ↦ sample.totalNanos ≤ bound

/-- How many samples exceed a bound in nanoseconds. -/
def countAbove (samples : List Duration) (bound : Nat) : Nat :=
  samples.countP fun sample ↦ bound < sample.totalNanos

/-- How long samples are together, in nanoseconds. -/
def sumNanos (samples : List Duration) : Nat := (samples.map totalNanos).sum

/-- No fewer samples lie at or below a larger bound. -/
theorem countUpTo_mono (samples : List Duration) {lower upper : Nat} (h : lower ≤ upper) :
    countUpTo samples lower ≤ countUpTo samples upper := by
  refine List.countP_mono_left fun sample _ hle ↦ ?_
  rw [decide_eq_true_eq] at hle ⊢
  exact Nat.le_trans hle h

/-- Every sample lies at or below a bound, or above it. -/
theorem countUpTo_add_countAbove (samples : List Duration) (bound : Nat) :
    countUpTo samples bound + countAbove samples bound = samples.length := by
  rw [List.length_eq_countP_add_countP fun sample ↦ decide (sample.totalNanos ≤ bound)]
  simp [countUpTo, countAbove]

/-- The samples at or below a bound add up. -/
theorem countUpTo_append (samples more : List Duration) (bound : Nat) :
    countUpTo (samples ++ more) bound = countUpTo samples bound + countUpTo more bound :=
  List.countP_append

/-- If samples together stay below `2 ^ 64` microseconds, then no sample is cut short, and the sum
of their whole microseconds leaves out at most 999 nanoseconds of each. -/
theorem total_bounds {samples : List Duration} (h : sumNanos samples < 1000 * 2 ^ 64) :
    1000 * total samples ≤ sumNanos samples ∧
      sumNanos samples ≤ 1000 * total samples + 999 * samples.length := by
  induction samples with
  | nil => decide
  | cons sample samples ih =>
      have hsum : sumNanos (sample :: samples) = sample.totalNanos + sumNanos samples := rfl
      rw [hsum] at h ⊢
      obtain ⟨hlower, hupper⟩ := ih (by omega)
      have hcounted : sample.counted = sample.totalNanos / 1000 :=
        Nat.min_eq_left (by unfold totalMicros wordMax; omega)
      rw [total, hcounted, List.length_cons]
      omega

end Duration

namespace Histogram

variable {histogram : Histogram}

/-! ## Taking samples in -/

/-- One more sample counts in a bucket if it does not exceed the bound. -/
theorem observeIn_countUpTo (samples : List Duration) (sample : Duration) (bound : Nat) :
    observeIn sample bound (Duration.countUpTo samples bound) =
      Duration.countUpTo (samples ++ [sample]) bound := by
  rw [Duration.countUpTo_append, observeIn]
  by_cases hle : sample.totalNanos ≤ bound <;> simp [Duration.countUpTo, hle]

/-- Each bucket has counted the samples that do not exceed its bound. -/
theorem buckets_foldl (samples : List Duration) :
    (samples.foldl observe {}).buckets = bucketBounds.map (Duration.countUpTo samples) := by
  induction samples using List.reverseRecOn with
  | nil => rfl
  | append_singleton samples sample ih =>
      rw [List.foldl_append]
      show List.zipWith (observeIn sample) bucketBounds (samples.foldl observe {}).buckets = _
      rw [ih, List.zipWith_map_right, List.zipWith_self]
      exact List.map_congr_left fun bound _ ↦ observeIn_countUpTo samples sample bound

/-- Every sample is counted. -/
theorem count_foldl (histogram : Histogram) (samples : List Duration) :
    (samples.foldl observe histogram).count = histogram.count + samples.length := by
  induction samples generalizing histogram with
  | nil => rfl
  | cons sample samples ih =>
      rw [List.foldl_cons, ih, List.length_cons]
      show histogram.count + 1 + samples.length = _
      omega

end Histogram

/-! ## What is reported -/

/-- The bounds are in ascending order. -/
theorem bucketBounds_ascending : bucketBounds.Pairwise (· < ·) := by decide

/-- The bounds of the buckets in seconds. -/
theorem seconds_bucketBounds :
    bucketBounds.map nanosToSeconds =
      [0.005, 0.01, 0.025, 0.05, 0.1, 0.25, 0.5, 1.0, 2.5, 5.0, 10.0] := by
  decide +kernel

namespace HistogramSnapshot

/-- What a histogram reports of the samples it was told of. Each bucket counts the samples that do
not exceed its bound, so that one with a larger bound counts no fewer. The last bucket counts no
more than there are, and what it leaves out exceeds ten seconds. -/
structure Counts (snapshot : HistogramSnapshot) (samples : List Duration) : Prop where
  count_eq : snapshot.count = samples.length
  buckets_eq : snapshot.buckets =
    bucketBounds.map fun bound ↦ (nanosToSeconds bound, Duration.countUpTo samples bound)
  bounds_eq : snapshot.buckets.map Prod.fst =
    [0.005, 0.01, 0.025, 0.05, 0.1, 0.25, 0.5, 1.0, 2.5, 5.0, 10.0]
  ascending : snapshot.buckets.Pairwise fun lower upper ↦ lower.2 ≤ upper.2
  last : ∃ last, snapshot.buckets.getLast? = some last ∧ last.2 ≤ snapshot.count ∧
    snapshot.count - last.2 = Duration.countAbove samples (10 * nanosPerSecond)

/-- No count of a histogram is smaller in a later report. -/
structure GrowsTo (former later : HistogramSnapshot) : Prop where
  count_le : former.count ≤ later.count
  buckets_le : List.Forall₂ (fun bucket bucket' ↦ bucket.1 = bucket'.1 ∧ bucket.2 ≤ bucket'.2)
    former.buckets later.buckets

end HistogramSnapshot

namespace Metrics

/-- Each bucket reports the samples that do not exceed its bound. -/
theorem buckets_snapshot (samples : List Duration) :
    (observeEach {} samples).snapshot.dispatchDuration.buckets =
      bucketBounds.map fun bound ↦ (nanosToSeconds bound, Duration.countUpTo samples bound) := by
  rw [observeEach_eq]
  show (bucketBounds.map nanosToSeconds).zip (samples.foldl Histogram.observe {}).buckets = _
  rw [Histogram.buckets_foldl, List.zip_map']

/-- The report counts all samples. -/
theorem count_snapshot (samples : List Duration) :
    (observeEach {} samples).snapshot.dispatchDuration.count = samples.length := by
  rw [observeEach_eq]
  exact (Histogram.count_foldl {} samples).trans (Nat.zero_add _)

/-- Samples are taken in one after the other. -/
theorem observeEach_append (metrics : Metrics) (samples more : List Duration) :
    metrics.observeEach (samples ++ more) = (metrics.observeEach samples).observeEach more :=
  List.foldl_append

/-- The report of a new histogram counts the samples it was told of. -/
theorem counts_snapshot (samples : List Duration) :
    (observeEach {} samples).snapshot.dispatchDuration.Counts samples where
  count_eq := count_snapshot samples
  buckets_eq := buckets_snapshot samples
  bounds_eq := by
    rw [buckets_snapshot, List.map_map]
    exact seconds_bucketBounds
  ascending := by
    rw [buckets_snapshot]
    refine List.Pairwise.map _ (fun lower upper hlt ↦ ?_) bucketBounds_ascending
    exact Duration.countUpTo_mono samples (Nat.le_of_lt hlt)
  last := by
    -- The last bucket and those above it share out all the samples.
    have hsplit := Duration.countUpTo_add_countAbove samples (10 * nanosPerSecond)
    refine ⟨(nanosToSeconds (10 * nanosPerSecond),
      Duration.countUpTo samples (10 * nanosPerSecond)), ?_, ?_, ?_⟩
    · rw [buckets_snapshot]
      rfl
    · rw [count_snapshot]
      omega
    · rw [count_snapshot]
      omega

/-- With more samples no count becomes smaller. -/
theorem growsTo_snapshot (samples more : List Duration) :
    (observeEach {} samples).snapshot.dispatchDuration.GrowsTo
      ((observeEach {} samples).observeEach more).snapshot.dispatchDuration where
  count_le := by
    rw [← observeEach_append, count_snapshot, count_snapshot, List.length_append]
    omega
  buckets_le := by
    rw [← observeEach_append, buckets_snapshot, buckets_snapshot, List.forall₂_map_left_iff,
      List.forall₂_map_right_iff, List.forall₂_same]
    intro bound _
    rw [Duration.countUpTo_append]
    exact ⟨rfl, Nat.le_add_right _ _⟩

/-- The report on samples counts them all, and in each bucket those that do not exceed its bound.
Further samples make no count smaller, and the order of the samples does not matter. As long as the
samples together stay below `2 ^ 64` microseconds, the sum falls short of their length by less than
a microsecond for each sample. -/
theorem buckets_exact (samples : List Duration) :
    let metrics := observeEach {} samples
    let snapshot := metrics.snapshot.dispatchDuration
    let micros := metrics.durations.sumMicros.toNat
    snapshot.Counts samples ∧
      (∀ more, snapshot.GrowsTo (metrics.observeEach more).snapshot.dispatchDuration) ∧
      (∀ others : List Duration, samples.Perm others →
        let other := (observeEach {} others).snapshot.dispatchDuration
        other.buckets = snapshot.buckets ∧ other.count = snapshot.count) ∧
      (samples ≠ [] → Duration.sumNanos samples < 1000 * 2 ^ 64 →
        1000 * micros ≤ Duration.sumNanos samples ∧
          Duration.sumNanos samples < 1000 * (micros + snapshot.count)) := by
  intro metrics snapshot micros
  refine ⟨counts_snapshot samples, growsTo_snapshot samples, ?_, ?_⟩
  · intro others hperm other
    refine ⟨?_, ?_⟩
    · rw [buckets_snapshot, buckets_snapshot]
      have hcount := fun bound ↦ hperm.countP_eq fun sample ↦ decide (sample.totalNanos ≤ bound)
      exact List.map_congr_left fun bound _ ↦ congrArg _ (hcount bound).symm
    · rw [count_snapshot, count_snapshot, hperm.length_eq]
  · intro hne hfits
    -- The sum of the nanoseconds fits, so the sum in microseconds did not wrap around.
    obtain ⟨hlower, hupper⟩ := Duration.total_bounds hfits
    have hlength := List.length_pos_iff.mpr hne
    have hmicros : micros = Duration.total samples := by
      show (observeEach {} samples).durations.sumMicros.toNat = _
      rw [observeEach_eq, Histogram.toNat_sumMicros_foldl]
      show (0 + Duration.total samples) % (wordMax + 1) = _
      rw [Nat.zero_add]
      exact Nat.mod_eq_of_lt (by unfold wordMax; omega)
    have hcount : snapshot.count = samples.length := count_snapshot samples
    omega

/-- Two samples, one of which lies on the first bound and the other above the last one. -/
theorem buckets_exact_of_sample_on_bound :
    let samples : List Duration := [⟨0, 5000000, by decide⟩, ⟨30, 999, by decide⟩]
    let metrics := observeEach {} samples
    let micros := metrics.durations.sumMicros.toNat
    metrics.durations.buckets = List.replicate 11 1 ∧
      (samples.Perm samples.reverse ∧
        (observeEach {} samples.reverse).snapshot.dispatchDuration.buckets =
          metrics.snapshot.dispatchDuration.buckets) ∧
      (samples ≠ [] ∧ Duration.sumNanos samples < 1000 * 2 ^ 64) ∧
      micros = 30005000 ∧ 1000 * micros ≤ Duration.sumNanos samples ∧
        Duration.sumNanos samples < 1000 * (micros + 2) := by
  intro samples metrics micros
  have hperm : samples.Perm samples.reverse := samples.reverse_perm.symm
  have hfits : Duration.sumNanos samples < 1000 * 2 ^ 64 := by decide
  obtain ⟨-, -, horder, hsum⟩ := buckets_exact samples
  obtain ⟨hlower, hupper⟩ := hsum (List.cons_ne_nil _ _) hfits
  exact ⟨by decide +kernel, ⟨hperm, (horder samples.reverse hperm).1⟩,
    ⟨List.cons_ne_nil _ _, hfits⟩, by decide +kernel, hlower, hupper⟩

end Metrics

end EventStaging
