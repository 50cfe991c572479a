import EventStaging.Proofs.Decimal.Order

/-!
# Rounded results

A positive number that is no float is rounded to a float at one of the two places next to it.
`Rounds` says where a number is rounded to, and `Rounds.mono` that a larger number is never rounded
to a lower place, whatever the two exponents are. Main statements: a natural number is rounded
(`Decimal.isRounded_ofNat`), so that a larger one is not a lower float (`Decimal.rank_ofNat_mono`),
and times a float between the least normal number and one it is above zero and not above itself
(`Decimal.rank_mul_le`).
-/

namespace EventStaging.Decimal

open Float.Model (Format totalExponent UnpackedFloat)
open Float.Model.UnpackedFloat

/-! ## Nearest numbers -/

/-- The natural number is nearest to another number, and even if two of them are. -/
structure Nearest (x : ℚ) (nearest : Nat) : Prop where
  low : nearest - 1 / 2 ≤ x
  high : x ≤ nearest + 1 / 2
  even_of_low : x = nearest - 1 / 2 → nearest % 2 = 0
  even_of_high : x = nearest + 1 / 2 → nearest % 2 = 0

/-- What lies less than one half away is nearest. -/
theorem nearest_of_lt {x : ℚ} {n : Nat} (hlow : n - 1 / 2 < x) (hhigh : x < n + 1 / 2) :
    Nearest x n :=
  ⟨hlow.le, hhigh.le, fun h ↦ absurd h hlow.ne', fun h ↦ absurd h hhigh.ne⟩

/-- A natural number is nearest to itself. -/
theorem nearest_natCast (n : Nat) : Nearest n n :=
  nearest_of_lt (sub_lt_self _ one_half_pos) (lt_add_of_pos_right _ one_half_pos)

/-- The nearest natural number of a larger number is not smaller. -/
theorem Nearest.mono {x y : ℚ} {m n : Nat} (hx : Nearest x m) (hy : Nearest y n) (h : x ≤ y) :
    m ≤ n := by
  by_contra hlt
  have hcast : (n : ℚ) + 1 ≤ m := by exact_mod_cast Nat.not_le.mp hlt
  have hlow := hx.low
  have hhigh := hy.high
  -- Both lie halfway between two neighbours, of which only one is even.
  have hm := hx.even_of_low (by linarith)
  have hn := hy.even_of_high (by linarith)
  have heq : m = n + 1 := by
    have : (m : ℚ) = n + 1 := by linarith
    exact_mod_cast this
  omega

/-- A mantissa is the whole part of a number, its round bit says whether the rest is one half or
more, and its sticky bit whether the rest is neither zero nor one half. -/
structure Marks (em : ExtendedMantissa) (x : ℚ) : Prop where
  low : em.mantissa ≤ x
  high : x < em.mantissa + 1
  round_iff : em.roundBit ↔ em.mantissa + 1 / 2 ≤ x
  sticky_iff : em.stickyBit ↔ x ≠ em.mantissa ∧ x ≠ em.mantissa + 1 / 2

namespace Marks

variable {em : ExtendedMantissa} {x : ℚ}

/-- A natural number is a mantissa that leaves no rest. -/
theorem natCast (m : Nat) : Marks (.ofMantissaAndAccuracy m .exact) m where
  low := le_rfl
  high := lt_add_one _
  round_iff := iff_of_false nofun fun h ↦ by
    have h : (m : ℚ) + 1 / 2 ≤ m := h
    linarith
  sticky_iff := iff_of_false nofun fun h ↦ h.1 rfl

/-- One of the two bits is set exactly if there is a rest. -/
theorem rest_iff (h : Marks em x) : (em.roundBit || em.stickyBit) = true ↔ x ≠ em.mantissa := by
  rw [Bool.or_eq_true, h.round_iff, h.sticky_iff]
  constructor
  · rintro (hround | ⟨hne, -⟩) heq
    · linarith
    · exact hne heq
  · intro hne
    by_cases hhalf : x = em.mantissa + 1 / 2
    · exact .inl (by linarith)
    · exact .inr ⟨hne, hhalf⟩

/-- Shifting the mantissa by one bit halves the number. -/
theorem shiftRightOne (h : Marks em x) : Marks em.shiftRightOne (x / 2) := by
  have hrest := h.rest_iff
  obtain ⟨hlow, hhigh, -, -⟩ := h
  obtain ⟨m, r, s⟩ := em
  have hsplit : (m : ℚ) = 2 * (m / 2 : Nat) + (m % 2 : Nat) := by
    exact_mod_cast (Nat.div_add_mod m 2).symm
  have hbit : ((m % 2 : Nat) : ℚ) = 0 ∨ ((m % 2 : Nat) : ℚ) = 1 := by
    exact_mod_cast Nat.mod_two_eq_zero_or_one m
  have hround : (m % 2 != 0) = true ↔ ((m % 2 : Nat) : ℚ) = 1 := by
    rw [bne_iff_ne]
    constructor
    · exact fun hne ↦ hbit.resolve_left (by exact_mod_cast hne)
    · intro hone hzero
      rw [hzero] at hone
      exact zero_ne_one hone
  constructor
  case low =>
    show ((m / 2 : Nat) : ℚ) ≤ x / 2
    rcases hbit with hbit | hbit <;> linarith
  case high =>
    show x / 2 < ((m / 2 : Nat) : ℚ) + 1
    rcases hbit with hbit | hbit <;> linarith
  case round_iff =>
    show (m % 2 != 0) = true ↔ ((m / 2 : Nat) : ℚ) + 1 / 2 ≤ x / 2
    rw [hround]
    constructor
    · intro hone
      linarith
    · intro hle
      refine hbit.resolve_left fun hzero ↦ ?_
      linarith
  case sticky_iff =>
    show (r || s) = true ↔ x / 2 ≠ ((m / 2 : Nat) : ℚ) ∧ x / 2 ≠ ((m / 2 : Nat) : ℚ) + 1 / 2
    rw [hrest]
    -- The half that is dropped is zero or one half itself, as the last bit of the mantissa says.
    rcases hbit with hbit | hbit
    · exact ⟨fun hne ↦ ⟨fun heq ↦ hne (by linarith), fun heq ↦ by linarith⟩,
        fun hne heq ↦ hne.1 (by linarith)⟩
    · exact ⟨fun hne ↦ ⟨fun heq ↦ by linarith, fun heq ↦ hne (by linarith)⟩,
        fun hne heq ↦ hne.2 (by linarith)⟩

/-- Shifting the mantissa by several bits divides the number by that power of two. -/
theorem shiftRight (h : Marks em x) (k : Nat) : Marks (em >>> k) (x / 2 ^ k) := by
  induction k with
  | zero =>
      rw [pow_zero, div_one]
      exact h
  | succ k ih =>
      rw [pow_succ, ← div_div]
      exact ih.shiftRightOne

/-- The rounded mantissa is the nearest natural number. -/
theorem nearest (h : Marks em x) : Nearest x em.roundedMantissa := by
  obtain ⟨m, r, s⟩ := em
  obtain ⟨hlow, hhigh, hround, hsticky⟩ := h
  cases r with
  | false =>
      have hhalf : ¬ (m : ℚ) + 1 / 2 ≤ x := fun h ↦ Bool.false_ne_true (hround.mpr h)
      have hrounded : (ExtendedMantissa.mk m false s).roundedMantissa = m := by
        cases s <;> rfl
      rw [hrounded]
      exact nearest_of_lt (by linarith) (by linarith)
  | true =>
      have hhalf : (m : ℚ) + 1 / 2 ≤ x := hround.mp rfl
      cases s with
      | true =>
          have hne : x ≠ (m : ℚ) + 1 / 2 := (hsticky.mp rfl).2
          have hlt : (m : ℚ) + 1 / 2 < x := lt_of_le_of_ne hhalf hne.symm
          show Nearest x (m + 1)
          exact nearest_of_lt (by push_cast; linarith) (by push_cast; linarith)
      | false =>
          -- Halfway between two neighbours the even one is taken.
          have hx : x = (m : ℚ) + 1 / 2 := by
            by_contra hne
            exact Bool.false_ne_true (hsticky.mpr ⟨fun heq ↦ by linarith, hne⟩)
          show Nearest x (m + m % 2)
          rcases Nat.mod_two_eq_zero_or_one m with hbit | hbit <;> rw [hbit]
          · rw [Nat.add_zero]
            exact ⟨by linarith, hx.le, fun _ ↦ hbit, fun _ ↦ hbit⟩
          · have heven : (m + 1) % 2 = 0 := by omega
            refine ⟨?_, ?_, fun _ ↦ heven, fun _ ↦ heven⟩
            · push_cast
              linarith
            · push_cast
              linarith

end Marks

/-! ## Rounded numbers -/

/-- The number that a mantissa and an exponent stand for. -/
def value (mantissa : Nat) (exponent : Int) : ℚ := mantissa * 2 ^ exponent

theorem two_zpow_pos (e : Int) : (0 : ℚ) < 2 ^ e := zpow_pos two_pos e

theorem value_pos {m : Nat} (h : 0 < m) (e : Int) : 0 < value m e :=
  mul_pos (by exact_mod_cast h) (two_zpow_pos e)

/-- A power of two moves from the mantissa to the exponent. -/
theorem value_mul_pow (m k : Nat) (e : Int) : value (m * 2 ^ k) e = value m (e + k) := by
  rw [value, value, zpow_add₀ two_ne_zero, zpow_natCast]
  push_cast
  ring

theorem value_pow (k : Nat) (e : Int) : value (2 ^ k) e = 2 ^ (k + e) := by
  rw [value, zpow_add₀ two_ne_zero, zpow_natCast, Nat.cast_pow, Nat.cast_ofNat]

/-- With a larger exponent a mantissa stands for no smaller a number. -/
theorem value_mono {m : Nat} {e e' : Int} (h : e ≤ e') : value m e ≤ value m e' :=
  mul_le_mul_of_nonneg_left (zpow_le_zpow_right₀ one_le_two h) (Nat.cast_nonneg m)

/-- A number is rounded to a multiple of a power of two: the power is the one that leaves it fewer
than 54 bits, and just so many unless the power is the smallest one. -/
structure Rounds (x : ℚ) (mantissa : Nat) (exponent : Int) : Prop where
  least : -1074 ≤ exponent
  lt : x < value (2 ^ 53) exponent
  normal : exponent = -1074 ∨ value (2 ^ 52) exponent ≤ x
  nearest : Nearest (x / 2 ^ exponent) mantissa

namespace Rounds

variable {x y : ℚ} {m m' : Nat} {e e' : Int}

/-- Rounding makes a mantissa too long by at most one. -/
theorem mantissa_le (h : Rounds x m e) : m ≤ 2 ^ 53 := by
  refine h.nearest.mono (nearest_natCast _) ?_
  rw [div_le_iff₀ (two_zpow_pos e)]
  exact h.lt.le

/-- A rounded mantissa has all its bits unless the exponent is the smallest one. -/
theorem le_mantissa (h : Rounds x m e) (he : e ≠ -1074) : 2 ^ 52 ≤ m := by
  refine (nearest_natCast _).mono h.nearest ?_
  rw [le_div_iff₀ (two_zpow_pos e)]
  exact h.normal.resolve_left he

/-- A larger number is not rounded to a lower place. -/
theorem mono (hx : Rounds x m e) (hy : Rounds y m' e') (h : x ≤ y) :
    placeOf m e ≤ placeOf m' e' := by
  unfold placeOf
  rcases lt_trichotomy e e' with hlt | rfl | hgt
  · -- The smaller exponent has at most the mantissa with which the larger one begins.
    have hm := hx.mantissa_le
    have hm' := hy.le_mantissa (by have := hx.least; omega)
    omega
  · have hm := hx.nearest.mono hy.nearest (div_le_div_of_nonneg_right h (two_zpow_pos e).le)
    omega
  · have hge := hx.normal.resolve_left (by have := hy.least; omega)
    have hle : value (2 ^ 53) e' ≤ value (2 ^ 52) e := by
      rw [show 2 ^ 53 = 2 ^ 52 * 2 ^ 1 from rfl, value_mul_pow]
      exact value_mono hgt
    exact absurd (hy.lt.trans_le hle) (not_lt.mpr (hge.trans h))

/-- A number that fits is rounded to itself. -/
theorem of_inRange (h : InRange m e) : Rounds (value m e) m e where
  least := h.least
  lt := mul_lt_mul_of_pos_right (by exact_mod_cast h.lt) (two_zpow_pos e)
  normal := h.normal.imp_right fun hm ↦
    mul_le_mul_of_nonneg_right (by exact_mod_cast hm) (two_zpow_pos e).le
  nearest := by
    rw [value, mul_div_assoc, div_self (two_zpow_pos e).ne', mul_one]
    exact nearest_natCast m

end Rounds

/-! ## Rounding as it is carried out -/

variable {m : Nat} {e : Int}

/-- The exponent of a number after rounding, if that has not made the mantissa too long. -/
def roundedExponent (m : Nat) (e : Int) : Int := max (m.log2 + 1 + e - 53) (-1074)

/-- The mantissa of a number, shifted to that exponent. -/
def shifted (m : Nat) (e : Int) : ExtendedMantissa :=
  (⟨m, false, false⟩ : ExtendedMantissa) >>> (roundedExponent m e - e).toNat

/-- A mantissa is shifted to the exponent that it has after rounding, and never to a smaller one. -/
theorem shiftToTargetExponent_eq (m : Nat) (e : Int) :
    shiftToTargetExponent .binary64 m e .exact =
      (shifted m e, e + (roundedExponent m e - e).toNat) := rfl

/-- A mantissa that is not too long is not shifted. -/
theorem shiftToTargetExponent_of_lt (hlt : m < 2 ^ 53) (he : -1074 ≤ e) :
    shiftToTargetExponent .binary64 m e .exact = (⟨m, false, false⟩, e) := by
  have hlog : m.log2 < 53 := by
    rcases Nat.eq_zero_or_pos m with rfl | hpos
    · decide
    · exact (Nat.log2_lt hpos.ne').mpr hlt
  have hshift : (roundedExponent m e - e).toNat = 0 := by
    unfold roundedExponent
    omega
  rw [shiftToTargetExponent_eq, shifted, hshift, Int.natCast_zero, Int.add_zero]
  rfl

/-- A mantissa that rounding has made too long by a bit is shifted by that bit. -/
theorem shiftToTargetExponent_of_carry (he : -1074 ≤ e) :
    shiftToTargetExponent .binary64 (2 ^ 53) e .exact = (⟨2 ^ 52, false, false⟩, e + 1) := by
  have hshift : (roundedExponent (2 ^ 53) e - e).toNat = 1 := by
    rw [roundedExponent, Nat.log2_two_pow]
    omega
  rw [shiftToTargetExponent_eq, shifted, hshift]
  rfl

section Rounding

variable (hm : 2 ^ 52 ≤ m) (e : Int)

include hm

/-- Rounding does not lower the exponent of a long mantissa. -/
theorem le_roundedExponent : e ≤ roundedExponent m e := by
  have hlog : 52 ≤ m.log2 := (Nat.le_log2 (by omega)).mpr hm
  unfold roundedExponent
  omega

/-- A mantissa that is long enough is rounded after it was shifted. -/
theorem rounds_shifted :
    Rounds (value m e) (shifted m e).roundedMantissa (roundedExponent m e) := by
  have hle := le_roundedExponent hm e
  have hlow : value (2 ^ m.log2) e ≤ value m e :=
    mul_le_mul_of_nonneg_right (by exact_mod_cast Nat.log2_self_le (by omega)) (two_zpow_pos e).le
  have hhigh : value m e < value (2 ^ (m.log2 + 1)) e :=
    mul_lt_mul_of_pos_right (by exact_mod_cast Nat.lt_log2_self) (two_zpow_pos e)
  constructor
  case least => exact le_max_right _ _
  case lt =>
    refine hhigh.trans_le ?_
    rw [value_pow, value_pow]
    refine zpow_le_zpow_right₀ one_le_two ?_
    unfold roundedExponent
    omega
  case normal =>
    refine (max_choice (m.log2 + 1 + e - 53) (-1074)).symm.imp_right fun heq ↦ ?_
    refine le_trans ?_ hlow
    rw [roundedExponent, heq, value_pow, value_pow]
    exact zpow_le_zpow_right₀ one_le_two (by omega)
  case nearest =>
    have hshift : value m e / 2 ^ roundedExponent m e =
        (m : ℚ) / 2 ^ (roundedExponent m e - e).toNat := by
      rw [value, mul_div_assoc, ← zpow_sub₀ two_ne_zero, ← neg_sub, zpow_neg, ← div_eq_mul_inv,
        ← zpow_natCast, Int.toNat_of_nonneg (by omega)]
    rw [hshift]
    exact ((Marks.natCast m).shiftRight _).nearest

end Rounding

/-- Rounding a number whose mantissa is long enough. -/
theorem exists_rounds (hm : 2 ^ 52 ≤ m) (e : Int) :
    ∃ rounded : Nat, Rounds (value m e) rounded (roundedExponent m e) ∧
      roundWithAccuracy .binary64 .positive m e .exact =
        if h : rounded = 0 then .zero .positive
        else if rounded < 2 ^ 53 then
          .finite .positive rounded (roundedExponent m e) (Nat.pos_of_ne_zero h)
        else .finite .positive (2 ^ 52) (roundedExponent m e + 1) (by decide) := by
  have hrounds := rounds_shifted hm e
  have hexponent : e + (roundedExponent m e - e).toNat = roundedExponent m e := by
    have hle := le_roundedExponent hm e
    omega
  refine ⟨_, hrounds, ?_⟩
  unfold roundWithAccuracy
  rw [shiftToTargetExponent_eq]
  simp only [hexponent]
  generalize (shifted m e).roundedMantissa = rounded at hrounds ⊢
  rcases hrounds.mantissa_le.lt_or_eq with hlt | rfl
  · simp only [shiftToTargetExponent_of_lt hlt hrounds.least, hlt, if_true]
  · simp only [shiftToTargetExponent_of_carry hrounds.least]
    rfl

/-! ## Packed results -/

/-- A float is a number of that rank. -/
structure HasRank (x : Float) (place : Int) : Prop where
  isNaN : x.isNaN = false
  rank_eq : rank x = place

/-- The exponent and the mantissa of a positive float make up its bits, the exponent above the
mantissa. -/
theorem toNat_packComponents (exponent : BitVec 11) (mantissa : BitVec 52) :
    (packComponents .binary64 .positive exponent mantissa).toNat =
      exponent.toNat * 2 ^ 52 + mantissa.toNat := by
  show ((0#1 ++ exponent) ++ mantissa).toNat = _
  rw [BitVec.toNat_append, ← Nat.shiftLeft_add_eq_or_of_lt mantissa.isLt, Nat.shiftLeft_eq,
    BitVec.toNat_append, BitVec.toNat_zero, Nat.zero_shiftLeft, Nat.zero_or]

/-- A float is no number exactly if its place lies behind infinity. -/
theorem isNaN_iff_place (x : Float) : x.isNaN ↔ infinityPlace < place x.toBits :=
  (reads_unpack x.toBits).isNaN_iff

/-- A float above zero whose bits are put together from an exponent and a mantissa. -/
theorem hasRank_pack {x : UnpackedFloat} {exponent : BitVec 11} {mantissa : BitVec 52} {r : Int}
    (hx : x.pack .binary64 = packComponents .binary64 .positive exponent mantissa)
    (hplace : (exponent.toNat * 2 ^ 52 + mantissa.toNat : Nat) = r)
    (hle : r ≤ infinityPlace) : HasRank (.ofModel (.pack x)) r := by
  have hbits : (Float.ofModel (.pack x)).toBits.toNat =
      exponent.toNat * 2 ^ 52 + mantissa.toNat := by
    show (x.pack .binary64).toNat = _
    rw [hx, toNat_packComponents]
  have hinfinity : infinityPlace < 2 ^ 63 := by decide
  have hsame : place (Float.ofModel (.pack x)).toBits =
      exponent.toNat * 2 ^ 52 + mantissa.toNat := by
    rw [place, hbits]
    exact Nat.mod_eq_of_lt (by omega)
  constructor
  · refine Bool.eq_false_iff.mpr fun h ↦ ?_
    have := (isNaN_iff_place _).mp h
    omega
  · rw [rank, signedPlace, if_pos (by omega), hsame, hplace]

/-- What is packed as infinity has the place of infinity. -/
theorem hasRank_infinity {x : UnpackedFloat}
    (hx : x.pack .binary64 = packComponents .binary64 .positive (-1#11) 0#52) :
    HasRank (.ofModel (.pack x)) infinityPlace :=
  hasRank_pack hx rfl le_rfl

/-- Zero has the place zero. -/
theorem hasRank_zero : HasRank (.ofModel (.pack (.zero .positive))) 0 :=
  @hasRank_pack _ 0#11 0#52 _ rfl rfl (by decide)

/-- A number is packed as infinity if its exponent is too large, with its exponent if its mantissa
has all 53 bits, and as one below the normal numbers otherwise. -/
theorem pack_finite (hpos : 0 < m) (e : Int) :
    (UnpackedFloat.finite .positive m e hpos).pack .binary64 =
      if 2 ^ 11 ≤ (e + 1023 + 52).toNat + 1 then
        packComponents .binary64 .positive (-1#11) 0#52
      else if m.log2 + 1 = 53 then
        packComponents .binary64 .positive (BitVec.ofNat 11 (e + 1023 + 52).toNat)
          (BitVec.ofNat 52 m)
      else packComponents .binary64 .positive 0#11 (BitVec.ofNat 52 m) := rfl

/-- What has too large an exponent becomes infinity. -/
theorem hasRank_finite (hpos : 0 < m) (hlt : m < 2 ^ 53) (he : -1074 ≤ e)
    (hnormal : e = -1074 ∨ 2 ^ 52 ≤ m) :
    HasRank (.ofModel (.pack (.finite .positive m e hpos)))
      (min infinityPlace (placeOf m e)) := by
  have hpack := pack_finite hpos e
  have hlong : m.log2 + 1 = 53 ↔ 2 ^ 52 ≤ m := by
    have hle : 52 ≤ m.log2 ↔ 2 ^ 52 ≤ m := Nat.le_log2 hpos.ne'
    have hlt : m.log2 < 53 ↔ m < 2 ^ 53 := Nat.log2_lt hpos.ne'
    omega
  by_cases hmost : e ≤ 971
  case neg =>
    have hplace : (infinityPlace : Int) ≤ placeOf m e := by
      unfold infinityPlace placeOf
      omega
    rw [if_pos (by omega)] at hpack
    rw [min_eq_left hplace]
    exact hasRank_infinity hpack
  have hplace := (InRange.mk hpos hlt he hmost hnormal).placeOf_lt.le
  rw [if_neg (by omega)] at hpack
  rw [min_eq_right hplace]
  by_cases hm : 2 ^ 52 ≤ m
  · rw [if_pos (hlong.mpr hm)] at hpack
    refine hasRank_pack hpack ?_ hplace
    rw [BitVec.toNat_ofNat, BitVec.toNat_ofNat, placeOf]
    omega
  · rw [if_neg (mt hlong.mp hm)] at hpack
    refine hasRank_pack hpack ?_ hplace
    rw [BitVec.toNat_ofNat, BitVec.toNat_ofNat, placeOf]
    omega

/-! ## Rounded floats -/

/-- A float is what a positive number is rounded to; a number that is too large becomes infinity. -/
def IsRounded (x : ℚ) (y : Float) : Prop :=
  ∃ m e, Rounds x m e ∧ HasRank y (min infinityPlace (placeOf m e))

/-- Rounding results in a number. -/
theorem IsRounded.isNaN {x : ℚ} {y : Float} (h : IsRounded x y) : y.isNaN = false := by
  obtain ⟨m, e, -, hrank⟩ := h
  exact hrank.isNaN

/-- A larger number is not rounded to a lower float. -/
theorem IsRounded.mono {x x' : ℚ} {y y' : Float} (h : IsRounded x y) (h' : IsRounded x' y')
    (hle : x ≤ x') : rank y ≤ rank y' := by
  obtain ⟨m, e, hrounds, hrank⟩ := h
  obtain ⟨m', e', hrounds', hrank'⟩ := h'
  rw [hrank.rank_eq, hrank'.rank_eq]
  exact min_le_min_left _ (hrounds.mono hrounds' hle)

/-- A number whose mantissa is long enough is rounded. -/
theorem isRounded_round (hm : 2 ^ 52 ≤ m) (e : Int) :
    IsRounded (value m e)
      (.ofModel (.pack (roundWithAccuracy .binary64 .positive m e .exact))) := by
  obtain ⟨rounded, hrounds, hround⟩ := exists_rounds hm e
  refine ⟨rounded, roundedExponent m e, hrounds, ?_⟩
  have hleast := hrounds.least
  have hnormal : roundedExponent m e = -1074 ∨ 2 ^ 52 ≤ rounded :=
    or_iff_not_imp_left.mpr hrounds.le_mantissa
  rw [hround]
  split
  · -- Only the smallest exponent leaves nothing.
    rename_i hzero
    subst hzero
    have hplace : placeOf 0 (roundedExponent m e) = 0 := by
      unfold placeOf
      omega
    rw [hplace]
    exact hasRank_zero
  · split
    · rename_i hzero hlt
      exact hasRank_finite _ hlt hleast hnormal
    · rename_i hzero hnot
      have hplace : placeOf rounded (roundedExponent m e) =
          placeOf (2 ^ 52) (roundedExponent m e + 1) := by
        have hle := hrounds.mantissa_le
        unfold placeOf
        omega
      rw [hplace]
      exact hasRank_finite _ (by decide) (by omega) (.inr le_rfl)

namespace InRange

variable {m' : Nat} {e' : Int}

/-- What has the higher place is the larger number. -/
theorem value_le (h : InRange m e) (h' : InRange m' e') (hle : placeOf m e ≤ placeOf m' e') :
    value m e ≤ value m' e' := by
  obtain ⟨-, hlt, hleast, -, hnormal⟩ := h
  obtain ⟨-, hlt', hleast', -, hnormal'⟩ := h'
  unfold placeOf at hle
  rcases lt_trichotomy e e' with he | rfl | he
  · calc value m e ≤ value (2 ^ 52 * 2 ^ 1) e :=
          mul_le_mul_of_nonneg_right (by exact_mod_cast hlt.le) (two_zpow_pos e).le
      _ = value (2 ^ 52) (e + 1) := value_mul_pow _ 1 e
      _ ≤ value (2 ^ 52) e' := value_mono he
      _ ≤ value m' e' :=
          mul_le_mul_of_nonneg_right (by exact_mod_cast hnormal'.resolve_left (by omega))
            (two_zpow_pos e').le
  · exact mul_le_mul_of_nonneg_right (by exact_mod_cast (by omega)) (two_zpow_pos e).le
  · omega

end InRange

/-- A float above zero is infinity or has a mantissa and an exponent. -/
inductive Unpacks (x : Float) : Prop where
  | infinity (unpack_eq : x.toModel.unpack = .infinity .positive) (rank_eq : rank x = infinityPlace)
  | finite (m : Nat) (e : Int) (hpos : 0 < m) (range : InRange m e)
    (unpack_eq : x.toModel.unpack = .finite .positive m e hpos) (rank_eq : rank x = placeOf m e)

/-- Every number above zero is taken apart in one of these two ways. -/
theorem unpacks_of_pos {x : Float} (hnan : x.isNaN = false) (hpos : 0 < rank x) : Unpacks x := by
  have hreads := reads_unpack x.toBits
  have hrank : unpackedRank x.toModel.unpack = rank x := hreads.rank_eq hnan
  have hcanonical : Canonical x.toModel.unpack := hreads.canonical
  generalize hunpack : x.toModel.unpack = unpacked at hrank hcanonical
  cases hcanonical with
  | notANumber =>
      have hyes : x.isNaN := isNaN_iff.mpr hunpack
      exact absurd hyes (Bool.eq_false_iff.mp hnan)
  | infinity sign =>
      cases sign with
      | positive => exact .infinity hunpack hrank.symm
      | negative =>
          have hneg : -(infinityPlace : Int) < 0 := by decide
          exact absurd (hrank ▸ hneg) (not_lt.mpr hpos.le)
  | zero sign => exact absurd hrank hpos.ne
  | finite sign m e hm range =>
      cases sign with
      | positive => exact .finite m e hm range hunpack hrank.symm
      | negative =>
          have hneg : -placeOf m e < 0 := Int.neg_neg_of_pos range.placeOf_pos
          exact absurd (hrank ▸ hneg) (not_lt.mpr hpos.le)

/-- A number that fits is found again in the float that it is rounded to. -/
theorem IsRounded.unpack_of_inRange {x : Float} (h : IsRounded (value m e) x) (hm : InRange m e) :
    ∃ m' e' hpos, x.toModel.unpack = .finite .positive m' e' hpos ∧ value m' e' = value m e := by
  obtain ⟨rounded, exponent, hrounds, hrank⟩ := h
  have hexact := Rounds.of_inRange hm
  have hplace : placeOf rounded exponent = placeOf m e :=
    le_antisymm (hrounds.mono hexact le_rfl) (hexact.mono hrounds le_rfl)
  have hlt := hm.placeOf_lt
  have heq : rank x = placeOf m e := by rw [hrank.rank_eq, hplace, min_eq_right hlt.le]
  cases unpacks_of_pos hrank.isNaN (heq ▸ hm.placeOf_pos) with
  | infinity _ hinfinity => omega
  | finite m' e' hpos range hunpack hplace' =>
      have hsame : placeOf m' e' = placeOf m e := hplace'.symm.trans heq
      exact ⟨m', e', hpos, hunpack,
        le_antisymm (range.value_le hm hsame.le) (hm.value_le range hsame.ge)⟩

/-- A float that a number fits is what the number is rounded to. -/
theorem isRounded_of_inRange {x : Float} (h : InRange m e) (hnan : x.isNaN = false)
    (hrank : rank x = placeOf m e) : IsRounded (value m e) x :=
  ⟨m, e, .of_inRange h, hnan, by rw [hrank, min_eq_right h.placeOf_lt.le]⟩

/-! ## Products and natural numbers -/

/-- Mantissas multiply and exponents add up. -/
theorem value_mul (m m' : Nat) (e e' : Int) :
    value (m * m') (e + e') = value m e * value m' e' := by
  rw [value, value, value, zpow_add₀ two_ne_zero]
  push_cast
  ring

/-- A product is rounded. -/
theorem isRounded_mul {x y : Float} {m m' : Nat} {e e' : Int} {hpos : 0 < m} {hpos' : 0 < m'}
    (hx : x.toModel.unpack = .finite .positive m e hpos)
    (hy : y.toModel.unpack = .finite .positive m' e' hpos') (hm : 2 ^ 52 ≤ m * m') :
    IsRounded (value m e * value m' e') (x * y) := by
  have hmul : x * y = .ofModel (.pack (mul .binary64 x.toModel.unpack y.toModel.unpack)) := rfl
  rw [hmul, hx, hy, ← value_mul]
  exact isRounded_round hm (e + e')

/-- The product of infinity is infinity. -/
theorem hasRank_mul_infinity {x y : Float} {hpos : 0 < m}
    (hx : x.toModel.unpack = .infinity .positive)
    (hy : y.toModel.unpack = .finite .positive m e hpos) : HasRank (x * y) infinityPlace := by
  have hmul : x * y = .ofModel (.pack (mul .binary64 x.toModel.unpack y.toModel.unpack)) := rfl
  rw [hmul, hx, hy]
  exact hasRank_infinity rfl

/-- A natural number of at most 53 bits becomes a float by way of a word. -/
theorem ofNat_of_lt {n : Nat} (h : n < 2 ^ 53) : Float.ofNat n = n.toUInt64.toFloat * 1 := by
  have hone : Float.ofBits 0x3ff0000000000000 = 1 := by decide +kernel
  rw [← hone]
  exact dif_pos ⟨h, by decide⟩

/-- A longer one is rounded. -/
theorem ofNat_of_ge {n : Nat} (h : 2 ^ 53 ≤ n) : Float.ofNat n = .ofModel (.ofScientific n 0) :=
  dif_neg fun hlt ↦ Nat.not_lt.mpr h hlt.1

/-- A positive natural number is rounded as a mantissa with the exponent zero. -/
theorem normalize_of_pos {n : Nat} (hpos : 0 < n) :
    normalize .binary64 n 0 .positive = round .binary64 .positive n 0 := by
  unfold UnpackedFloat.normalize
  rw [compare_gt_iff_gt.mpr (show (0 : Int) < n from by exact_mod_cast hpos)]
  rfl

/-- A natural number of at most 53 bits is lengthened to 53 bits, and so it is a float. -/
theorem isRounded_toFloat {n : Nat} (hpos : 0 < n) (hlt : n < 2 ^ 53) :
    ∃ m e, InRange m e ∧ value m e = n ∧ IsRounded (value m e) n.toUInt64.toFloat := by
  have hlog : n.log2 < 53 := (Nat.log2_lt hpos.ne').mpr hlt
  have hlow : 2 ^ n.log2 ≤ n := Nat.log2_self_le hpos.ne'
  have hhigh : n < 2 ^ (n.log2 + 1) := Nat.lt_log2_self
  have hbits : n.log2 + (52 - n.log2) = 52 := by omega
  have hshift : (0 - roundedExponent n 0).toNat = 52 - n.log2 := by
    unfold roundedExponent
    omega
  generalize 52 - n.log2 = k at hbits hshift
  have hlong : 2 ^ 52 ≤ n * 2 ^ k := by
    rw [← hbits, pow_add]
    exact Nat.mul_le_mul_right _ hlow
  have hshort : n * 2 ^ k < 2 ^ 53 := by
    have hmul := Nat.mul_lt_mul_of_pos_right hhigh (Nat.two_pow_pos k)
    rwa [← pow_add, show n.log2 + 1 + k = 53 by omega] at hmul
  have hvalue : value (n * 2 ^ k) (-k) = n := by
    rw [value_mul_pow, neg_add_cancel, value, zpow_zero, mul_one]
  have hfloat : n.toUInt64.toFloat =
      .ofModel (.pack (roundWithAccuracy .binary64 .positive (n * 2 ^ k) (-k) .exact)) := by
    have hnat : n.toUInt64.toNat = n := Nat.mod_eq_of_lt (by omega)
    have hround : n.toUInt64.toFloat =
        .ofModel (.pack (normalize .binary64 n.toUInt64.toNat 0 .positive)) := rfl
    rw [hround, hnat, normalize_of_pos hpos]
    unfold UnpackedFloat.round
    show Float.ofModel (.pack (roundWithAccuracy .binary64 .positive
      (n <<< (0 - roundedExponent n 0).toNat) (0 - (0 - roundedExponent n 0).toNat) .exact)) = _
    rw [hshift, Nat.shiftLeft_eq, zero_sub]
  refine ⟨n * 2 ^ k, -k, ⟨by omega, hshort, by omega, by omega, .inr hlong⟩, hvalue, ?_⟩
  rw [hfloat]
  exact isRounded_round hlong _

theorem unpack_one : (1 : Float).toModel.unpack = .finite .positive (2 ^ 52) (-52) (by decide) :=
  rfl

theorem inRange_one : InRange (2 ^ 52) (-52) :=
  ⟨by decide, by decide, by decide, by decide, .inr le_rfl⟩

/-- The mantissa and the exponent of the float one stand for the number one. -/
theorem value_one : value (2 ^ 52) (-52) = 1 := by
  rw [value_pow]
  norm_num

/-- Zero is rounded to the float zero. -/
theorem isRounded_zero : IsRounded 0 (Float.ofNat 0) := by
  have hrounds : Rounds 0 0 (-1074) := by
    refine ⟨le_rfl, value_pos (by decide) _, .inl rfl, ?_⟩
    rw [zero_div]
    exact nearest_natCast 0
  exact ⟨0, -1074, hrounds, by decide +kernel, by decide +kernel⟩

/-- A natural number is rounded. -/
theorem isRounded_ofNat (n : Nat) : IsRounded n (Float.ofNat n) := by
  rcases Nat.eq_zero_or_pos n with rfl | hpos
  · exact isRounded_zero
  rcases Nat.lt_or_ge n (2 ^ 53) with hlt | hge
  · obtain ⟨m, e, range, hvalue, hrounded⟩ := isRounded_toFloat hpos hlt
    obtain ⟨m', e', hpos', hunpack, hvalue'⟩ := hrounded.unpack_of_inRange range
    have hproduct := isRounded_mul hunpack unpack_one (Nat.le_mul_of_pos_left _ hpos')
    rwa [hvalue', hvalue, value_one, mul_one, ← ofNat_of_lt hlt] at hproduct
  · have hlong : 2 ^ 52 ≤ n * 2 ^ 53 := by omega
    have hvalue : value (n * 2 ^ 53) (-53) = n := by
      rw [value_mul_pow, Nat.cast_ofNat, neg_add_cancel, value, zpow_zero, mul_one]
    have hfloat : Float.ofNat n =
        .ofModel (.pack (roundWithAccuracy .binary64 .positive (n * 2 ^ 53) (-53) .exact)) := by
      rw [ofNat_of_ge hge]
      unfold Float.Model.ofScientific UnpackedFloat.ofScientific
      rw [dif_neg (show n ≠ 0 by omega), if_neg (by decide), if_neg (by simp), if_pos (by decide)]
      simp only [mul, Nat.shiftLeft_eq, Int.toNat_zero, pow_zero, mul_one]
      rfl
    rw [hfloat, ← hvalue]
    exact isRounded_round hlong _

/-- A larger natural number is not a lower float. -/
theorem rank_ofNat_mono {n n' : Nat} (h : n ≤ n') : rank (Float.ofNat n) ≤ rank (Float.ofNat n') :=
  (isRounded_ofNat n).mono (isRounded_ofNat n') (by exact_mod_cast h)

/-- The product of a natural number that is not zero and a float that is not below the least normal
number and not above one is above zero and not above the natural number. -/
theorem rank_mul_le {n : Nat} (hn : 1 ≤ n) {share : Float} (hnan : share.isNaN = false)
    (hlow : 2 ^ 52 ≤ rank share) (hhigh : rank share ≤ rank 1) :
    (Float.ofNat n * share).isNaN = false ∧ 0 < rank (Float.ofNat n * share) ∧
      rank (Float.ofNat n * share) ≤ rank (Float.ofNat n) := by
  have hone : rank 1 = placeOf (2 ^ 52) (-52) := by decide +kernel
  have hwhole : rank 1 ≤ rank (Float.ofNat n) := rank_ofNat_mono hn
  have hsmall : rank 1 < infinityPlace := hone ▸ inRange_one.placeOf_lt
  have hpositive : 0 < rank share := by omega
  cases unpacks_of_pos hnan hpositive with
  | infinity _ hrank => omega
  | finite m e hpos range hshare hplace =>
      have hshort : value m e ≤ 1 :=
        value_one ▸ range.value_le inRange_one (hplace ▸ hone ▸ hhigh)
      have hnormal : 2 ^ 52 ≤ m := by
        have hor := range.normal
        unfold placeOf at hplace
        omega
      cases unpacks_of_pos (isRounded_ofNat n).isNaN (by omega) with
      | infinity hnumber hrank =>
          have hproduct := hasRank_mul_infinity hnumber hshare
          rw [hproduct.rank_eq, hrank]
          exact ⟨hproduct.isNaN, by decide, le_rfl⟩
      | finite m' e' hpos' range' hnumber hplace' =>
          have hlong : 1 ≤ value m' e' :=
            value_one ▸ inRange_one.value_le range' (hplace' ▸ hone ▸ hwhole)
          have hproduct :=
            isRounded_mul hnumber hshare (hnormal.trans (Nat.le_mul_of_pos_left m hpos'))
          have hfirst := isRounded_of_inRange range' (isRounded_ofNat n).isNaN hplace'
          have hsecond := isRounded_of_inRange range hnan hplace
          -- One factor is not below one, and the other not above it.
          refine ⟨hproduct.isNaN, hpositive.trans_le (hsecond.mono hproduct ?_),
            hproduct.mono hfirst ?_⟩
          · exact le_mul_of_one_le_left (value_pos hpos e).le hlong
          · exact mul_le_of_le_one_right (value_pos hpos' e').le hshort

end EventStaging.Decimal
