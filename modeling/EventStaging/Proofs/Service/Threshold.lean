import EventStaging.Proofs.Decimal.Order
import EventStaging.Service
import EventStaging.Settings

/-!
# The range of the threshold

Settings refuse a threshold that is not above zero and at most one, and a service brings any
threshold into that range. The two ranges differ at their lower end, which is the least normal
number for a service: main statement (`Service.threshold_range`). A subnormal threshold passes the
check and is raised by the service; any other threshold that passes is kept, and one that the check
refuses is never kept.
-/

namespace EventStaging

open Decimal (infinityPlace isNaN_ofBits_iff le_iff_rank lt_iff_rank place rank rank_ofBits
  signedPlace)

/-! ## The range as places -/

/-- The place of the least normal number, which is the least threshold of a service. -/
def leastPlace : Nat := 0x0010000000000000

/-- The place of the number one, which is the largest threshold. -/
def wholePlace : Nat := 0x3ff0000000000000

/-- The float is a number at or above one place and at or below another. -/
structure Between (low high : Int) (x : Float) : Prop where
  isNaN : x.isNaN = false
  low_le : low ≤ rank x
  le_high : rank x ≤ high

/-- A float above zero has no sign, so that its place is all of its bits. -/
theorem between_ofBits_iff {low high : Nat} (hlow : 0 < low) (hhigh : high ≤ infinityPlace)
    (bits : UInt64) :
    Between low high (Float.ofBits bits) ↔ low ≤ bits.toNat ∧ bits.toNat ≤ high := by
  have hinfinity : infinityPlace < 2 ^ 63 := by decide
  constructor
  · rintro ⟨hnan, hlow', hhigh'⟩
    have hplace : place bits ≤ infinityPlace := by
      rw [← Nat.not_lt, ← isNaN_ofBits_iff, hnan]
      exact Bool.false_ne_true
    rw [rank_ofBits hplace, signedPlace] at hlow' hhigh'
    unfold place at hlow' hhigh'
    split at hlow' <;> omega
  · rintro ⟨hlow', hhigh'⟩
    have hplace : place bits = bits.toNat := Nat.mod_eq_of_lt (by omega)
    have hle : place bits ≤ infinityPlace := by omega
    have hrank : rank (Float.ofBits bits) = bits.toNat := by
      rw [rank_ofBits hle, signedPlace, if_pos (by omega), hplace]
    refine ⟨Bool.eq_false_iff.mpr (mt (isNaN_ofBits_iff bits).mp (by omega)), ?_, ?_⟩
    · omega
    · omega

/-- Zero is a number of rank zero. -/
theorem rank_zero : (0 : Float).isNaN = false ∧ rank 0 = 0 := by decide +kernel

/-- One is a number, in the place of the largest threshold. -/
theorem rank_one : (1 : Float).isNaN = false ∧ rank 1 = wholePlace := by decide +kernel

/-- The least threshold is a number, in the place of the least normal one. -/
theorem rank_least :
    leastHealthThreshold.isNaN = false ∧ rank leastHealthThreshold = leastPlace := by
  decide +kernel

/-- The default threshold is a share. -/
theorem between_default : Between leastPlace wholePlace defaultHealthThreshold :=
  ⟨by decide +kernel, by decide +kernel, by decide +kernel⟩

/-- Above zero and not above one is a matter of ranks. -/
theorem pos_and_le_one_iff (x : Float) : 0 < x ∧ x ≤ 1 ↔ Between 1 wholePlace x := by
  rw [lt_iff_rank, le_iff_rank, rank_zero.2, rank_one.2]
  exact ⟨fun ⟨⟨_, hnan, hpos⟩, _, _, hle⟩ ↦ ⟨hnan, hpos, hle⟩,
    fun ⟨hnan, hpos, hle⟩ ↦ ⟨⟨rank_zero.1, hnan, hpos⟩, hnan, rank_one.1, hle⟩⟩

/-! ## What is refused and what is kept -/

/-- Settings are valid exactly if the threshold is above zero and not above one. -/
theorem Settings.validate_eq_ok_iff (settings : Settings) :
    settings.validate = .ok () ↔ Between 1 wholePlace settings.healthThreshold := by
  have hcheck : (settings.healthThreshold > 0 && settings.healthThreshold ≤ 1) = true ↔
      Between 1 wholePlace settings.healthThreshold := by
    rw [Bool.and_eq_true, decide_eq_true_iff, decide_eq_true_iff]
    exact pos_and_le_one_iff _
  rw [← hcheck, validate]
  split
  case isTrue h => exact iff_of_true rfl h
  case isFalse h => exact iff_of_false nofun h

/-- A threshold in effect is never below the least one nor above one. -/
theorem between_effectiveThreshold (threshold : Float) :
    Between leastPlace wholePlace (effectiveThreshold threshold) := by
  unfold effectiveThreshold
  split
  case isTrue => exact between_default
  case isFalse hnan =>
    have hnan : threshold.isNaN = false := Bool.eq_false_iff.mpr hnan
    split
    case isTrue => exact ⟨rank_least.1, by rw [rank_least.2], by rw [rank_least.2]; decide⟩
    case isFalse hlow =>
      split
      case isTrue => exact ⟨rank_one.1, by rw [rank_one.2]; decide, by rw [rank_one.2]⟩
      case isFalse hhigh =>
        rw [lt_iff_rank, rank_least.2] at hlow
        rw [gt_iff_lt, lt_iff_rank, rank_one.2] at hhigh
        exact ⟨hnan, Int.not_lt.mp fun h ↦ hlow ⟨hnan, rank_least.1, h⟩,
          Int.not_lt.mp fun h ↦ hhigh ⟨rank_one.1, hnan, h⟩⟩

/-- A threshold takes effect as it is exactly if it lies in that range. -/
theorem effectiveThreshold_eq_self_iff (threshold : Float) :
    effectiveThreshold threshold = threshold ↔ Between leastPlace wholePlace threshold := by
  constructor
  · intro h
    rw [← h]
    exact between_effectiveThreshold threshold
  · intro ⟨hnan, hlow, hhigh⟩
    have hlow' : ¬ threshold < leastHealthThreshold := by
      rw [lt_iff_rank, rank_least.2]
      omega
    have hhigh' : ¬ threshold > 1 := by
      rw [gt_iff_lt, lt_iff_rank, rank_one.2]
      omega
    rw [effectiveThreshold, hnan, if_neg Bool.false_ne_true, if_neg hlow', if_neg hhigh']

namespace Service

variable {σ : Type}

/-- For every threshold that bits can hold: what the service makes of it lies above zero and at most
at one, and the service leaves that as it is. The check lets through what lies above zero and at
most at one, and the service keeps what the check lets through and is not subnormal. -/
theorem threshold_range (service : Service σ) (settings : Settings) (bits : UInt64) :
    let threshold := Float.ofBits bits
    let set := service.withHealthThreshold threshold
    let validated := ({ settings with healthThreshold := threshold } : Settings).validate
    (0 < set.threshold ∧ set.threshold ≤ 1) ∧
      set.withHealthThreshold set.threshold = set ∧
      (validated = .ok () ↔ 0 < bits.toNat ∧ bits.toNat ≤ wholePlace) ∧
      (set.threshold = threshold ↔ validated = .ok () ∧ leastPlace ≤ bits.toNat) := by
  intro threshold set validated
  have hkept : Between leastPlace wholePlace set.threshold := between_effectiveThreshold threshold
  have hvalidated : validated = .ok () ↔ 0 < bits.toNat ∧ bits.toNat ≤ wholePlace :=
    (Settings.validate_eq_ok_iff _).trans (between_ofBits_iff Nat.one_pos (by decide) bits)
  refine ⟨(pos_and_le_one_iff _).mpr ⟨hkept.isNaN, ?_, hkept.le_high⟩, ?_, hvalidated, ?_⟩
  · exact Int.le_trans (by decide) hkept.low_le
  · exact congrArg (Service.mk service.shared · service.metrics)
      ((effectiveThreshold_eq_self_iff _).mpr hkept)
  · rw [hvalidated]
    show effectiveThreshold threshold = threshold ↔ _
    rw [effectiveThreshold_eq_self_iff, between_ofBits_iff (by decide) (by decide)]
    have hleast : 0 < leastPlace := by decide
    omega

/-- The smallest number above zero passes the check, and the service raises it. -/
theorem subnormal_threshold_is_raised :
    let threshold := Float.ofBits 1
    let service : Service Metrics :=
      { shared := .ofEngine (.ofConfig { name := "evstage" }), metrics := .whole }
    ({ healthThreshold := threshold } : Settings).validate = .ok () ∧
      (service.withHealthThreshold threshold).threshold ≠ threshold := by
  decide +kernel

end Service

end EventStaging
