import EventStaging.Host

/-!
# Histograms of durations

A duration is a span of time in whole seconds and the nanoseconds of the second begun. A histogram
counts how many samples lie at or below each of eleven bounds, how many samples there were, and the
sum of their whole microseconds. A single sample adds no more than the largest word, and the sum
wraps around at the end of a word.
-/

namespace EventStaging

/-! ## Durations -/

/-- The nanoseconds of a second. -/
def nanosPerSecond : Nat := 1000000000

/-- A span of time: whole seconds, and nanoseconds that make less than a second. -/
structure Duration where
  secs : UInt64
  nanos : Nat
  nanos_lt : nanos < nanosPerSecond

namespace Duration

/-- The span of a number of seconds and a number of nanoseconds, which may be more than a second.
There is none if the seconds do not fit into a word. -/
def of? (secs nanos : Nat) : Option Duration :=
  let total := secs + nanos / nanosPerSecond
  if total ≤ wordMax then
    some ⟨UInt64.ofNat total, nanos % nanosPerSecond, Nat.mod_lt _ (by decide)⟩
  else none

/-- The whole span in nanoseconds. -/
def totalNanos (duration : Duration) : Nat :=
  duration.secs.toNat * nanosPerSecond + duration.nanos

/-- The whole microseconds of the span. -/
def totalMicros (duration : Duration) : Nat := duration.totalNanos / 1000

end Duration

/-! ## Histograms -/

/-- The bounds of the buckets in nanoseconds: from five milliseconds to ten seconds. -/
def bucketBounds : List Nat :=
  [5000000, 10000000, 25000000, 50000000, 100000000, 250000000, 500000000, 1000000000, 2500000000,
    5000000000, 10000000000]

/-- A number of nanoseconds in seconds. -/
def nanosToSeconds (nanos : Nat) : Float := Float.ofScientific nanos true 9

/-- How many samples lie at or below each bound, in the order of the bounds, how many there are, and
the sum of their whole microseconds. -/
structure Histogram where
  buckets : List Nat := List.replicate bucketBounds.length 0
  count : Nat := 0
  sumMicros : UInt64 := 0
  deriving DecidableEq, Repr

namespace Histogram

/-- The whole microseconds of a sample, or the largest word if they do not fit into one. -/
def micros (sample : Duration) : UInt64 := UInt64.ofNat (min sample.totalMicros wordMax)

/-- Counts a sample in a bucket if it does not exceed the bucket's bound. -/
def observeIn (sample : Duration) (bound count : Nat) : Nat :=
  if sample.totalNanos ≤ bound then count + 1 else count

/-- Takes a sample in. -/
def observe (histogram : Histogram) (sample : Duration) : Histogram where
  buckets := List.zipWith (observeIn sample) bucketBounds histogram.buckets
  count := histogram.count + 1
  sumMicros := histogram.sumMicros + micros sample

/-- The sum of the samples in seconds. -/
def sumSeconds (histogram : Histogram) : Float := histogram.sumMicros.toFloat / 1000000

end Histogram

/-- A histogram as it is reported: each bound in seconds with the number of samples at or below it,
how many samples there are, and their sum in seconds. -/
structure HistogramSnapshot where
  buckets : List (Float × Nat)
  count : Nat
  sumSeconds : Float

/-- The histogram as it stands. -/
def Histogram.snapshot (histogram : Histogram) : HistogramSnapshot where
  buckets := (bucketBounds.map nanosToSeconds).zip histogram.buckets
  count := histogram.count
  sumSeconds := histogram.sumSeconds

end EventStaging
