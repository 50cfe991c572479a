import EventStaging.Metrics.Basic

/-!
# The sum of the durations

A histogram keeps the sum of its samples in one word of whole microseconds. A sample adds no more
than the largest word (`Histogram.toNat_micros`), but the sum itself begins again at zero when it
passes the end of the word. Main statement (`Metrics.sum_modulo_word`): the sum is the total modulo
one more than the largest word, so that it is the total as long as this fits into a word, and a
sample makes the sum smaller exactly when it takes the sum past the end of the word.
-/

namespace EventStaging

/-- What a sample adds to the sum of a histogram: its whole microseconds, and no more than the
largest word. -/
def Duration.counted (sample : Duration) : Nat := min sample.totalMicros wordMax

/-- What samples add up to. -/
def Duration.total : List Duration → Nat
  | [] => 0
  | sample :: samples => sample.counted + total samples

namespace Histogram

variable {histogram : Histogram} {sample : Duration}

/-- A sample counts with its whole microseconds, up to the largest word. -/
theorem toNat_micros (sample : Duration) : (micros sample).toNat = sample.counted := by
  have hle : sample.counted ≤ wordMax := Nat.min_le_right _ _
  rw [micros, UInt64.toNat_ofNat']
  exact Nat.mod_eq_of_lt (Nat.lt_succ_of_le hle)

/-- A sample is added to the sum within a word. -/
theorem toNat_sumMicros_observe (histogram : Histogram) (sample : Duration) :
    (histogram.observe sample).sumMicros.toNat =
      (histogram.sumMicros.toNat + sample.counted) % (wordMax + 1) := by
  rw [← toNat_micros]
  exact UInt64.toNat_add ..

/-- A sample makes the sum smaller exactly when it takes the sum past the end of the word. -/
theorem sumMicros_observe_lt_iff :
    (histogram.observe sample).sumMicros < histogram.sumMicros ↔
      wordMax < histogram.sumMicros.toNat + sample.counted := by
  have hsum : histogram.sumMicros.toNat < wordMax + 1 := UInt64.toNat_lt _
  have hle : sample.counted ≤ wordMax := Nat.min_le_right _ _
  rw [UInt64.lt_iff_toNat_lt, toNat_sumMicros_observe]
  by_cases hpast : wordMax < histogram.sumMicros.toNat + sample.counted
  · rw [Nat.mod_eq_sub_mod (by omega), Nat.mod_eq_of_lt (by omega)]
    exact iff_of_true (by omega) hpast
  · rw [Nat.mod_eq_of_lt (by omega)]
    exact iff_of_false (by omega) hpast

/-- The sum of several samples is their total within a word. -/
theorem toNat_sumMicros_foldl (histogram : Histogram) (samples : List Duration) :
    (samples.foldl observe histogram).sumMicros.toNat =
      (histogram.sumMicros.toNat + Duration.total samples) % (wordMax + 1) := by
  induction samples generalizing histogram with
  | nil => exact (Nat.mod_eq_of_lt (UInt64.toNat_lt _)).symm
  | cons sample samples ih =>
      rw [List.foldl_cons, ih, toNat_sumMicros_observe, Nat.mod_add_mod, Nat.add_assoc]
      rfl

end Histogram

namespace Metrics

/-- Takes durations in, one after the other. -/
def observeEach (metrics : Metrics) (samples : List Duration) : Metrics :=
  samples.foldl (fun metrics sample ↦ metrics.observeDispatch sample) metrics

/-- Durations go into the histogram, and nowhere else. -/
theorem observeEach_eq (metrics : Metrics) (samples : List Duration) :
    metrics.observeEach samples =
      { metrics with durations := samples.foldl Histogram.observe metrics.durations } := by
  induction samples generalizing metrics with
  | nil => rfl
  | cons sample samples ih => exact ih (metrics.observeDispatch sample)

/-- The sum behind the reported seconds is the total of the samples modulo one more than the largest
word, where a sample counts no more than the largest word. So it is the total cut off at the largest
word only if the total fits into a word, or else happens to end there. A further sample makes the sum
smaller exactly when it takes the sum past the end of the word. -/
theorem sum_modulo_word (samples : List Duration) :
    let metrics := observeEach {} samples
    let total := Duration.total samples
    let sum := metrics.durations.sumMicros
    metrics.snapshot.dispatchDuration.sumSeconds = sum.toFloat / 1000000 ∧
      sum.toNat = total % (wordMax + 1) ∧
      (sum.toNat = min wordMax total ↔ total ≤ wordMax ∨ total % (wordMax + 1) = wordMax) ∧
      ∀ sample, (metrics.observeDispatch sample).durations.sumMicros < sum ↔
        wordMax < sum.toNat + sample.counted := by
  intro metrics total sum
  have hsum : sum.toNat = total % (wordMax + 1) := by
    show (observeEach {} samples).durations.sumMicros.toNat = _
    rw [observeEach_eq, Histogram.toNat_sumMicros_foldl]
    exact congrArg (· % (wordMax + 1)) (Nat.zero_add _)
  refine ⟨rfl, hsum, ?_, fun sample ↦ Histogram.sumMicros_observe_lt_iff⟩
  rw [hsum]
  by_cases hfits : total ≤ wordMax
  · rw [Nat.mod_eq_of_lt (Nat.lt_succ_of_le hfits), Nat.min_eq_right hfits]
    exact iff_of_true rfl (.inl hfits)
  · rw [Nat.min_eq_left (Nat.le_of_not_le hfits)]
    exact ⟨.inr, fun h ↦ h.resolve_left hfits⟩

/-- A sample of one microsecond after one that fills the word: the sum falls back to zero. -/
theorem sum_falls_back_to_zero :
    let full : Duration := ⟨18446744073709551615, 0, by decide⟩
    let one : Duration := ⟨0, 1000, by decide⟩
    (observeEach {} [full]).durations.sumMicros.toNat = wordMax ∧
      (observeEach {} [full, one]).durations.sumMicros.toNat = 0 ∧
      (observeEach {} [full, one]).durations.sumMicros.toNat ≠
        min wordMax (Duration.total [full, one]) := by
  decide +kernel

end Metrics

end EventStaging
