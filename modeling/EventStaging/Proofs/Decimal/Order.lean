import Mathlib

/-!
# The order of the floats

The bits of a float are a sign and a place: the places count the numbers from zero upwards, infinity
stands behind the last of them, and the places behind infinity hold no number. Main statements
(`Decimal.lt_iff_rank`, `Decimal.le_iff_rank`): a float is below another exactly when both are
numbers and its rank, which is its place with its sign, is the smaller one.
-/

namespace EventStaging.Decimal

open Float.Model (UnpackedFloat Format)
open Float.Model.UnpackedFloat (Sign isNaNBits isNaN_iff pack_unpack packedNaN unpack
  unpackExponent unpackMantissa unpackSign unpack_packedNaN)

/-- The place of infinity. Every number has a place below it. -/
def infinityPlace : Nat := 2047 * 2 ^ 52

/-- The place of the number that a mantissa and an exponent stand for. -/
def placeOf (mantissa : Nat) (exponent : Int) : Int := (exponent + 1074) * 2 ^ 52 + mantissa

/-- The mantissas and exponents that bits hold: a mantissa that is short of a bit has the smallest
exponent. -/
structure InRange (mantissa : Nat) (exponent : Int) : Prop where
  pos : 0 < mantissa
  lt : mantissa < 2 ^ 53
  least : -1074 ≤ exponent
  most : exponent ≤ 971
  normal : exponent = -1074 ∨ 2 ^ 52 ≤ mantissa

namespace InRange

variable {m m' : Nat} {e e' : Int}

/-- A positive number stands above the place of zero. -/
theorem placeOf_pos (h : InRange m e) : 0 < placeOf m e := by
  have hpos := h.pos
  have hleast := h.least
  unfold placeOf
  omega

/-- A number stands below infinity. -/
theorem placeOf_lt (h : InRange m e) : placeOf m e < infinityPlace := by
  have hlt := h.lt
  have hmost := h.most
  unfold placeOf infinityPlace
  omega

/-- The larger exponent has the higher place, and between equal exponents the larger mantissa. -/
theorem compare_placeOf (h : InRange m e) (h' : InRange m' e') :
    (compare e e').then (compare m m') = compare (placeOf m e) (placeOf m' e') := by
  obtain ⟨-, hlt, hleast, -, hnormal⟩ := h
  obtain ⟨-, hlt', hleast', -, hnormal'⟩ := h'
  unfold placeOf
  rcases lt_trichotomy e e' with he | rfl | he
  · rw [compare_lt_iff_lt.mpr he, eq_comm]
    exact compare_lt_iff_lt.mpr (by omega)
  · rw [compare_eq_iff_eq.mpr rfl, Ordering.then]
    rcases lt_trichotomy m m' with hm | rfl | hm
    · rw [compare_lt_iff_lt.mpr hm, eq_comm]
      exact compare_lt_iff_lt.mpr (by omega)
    · rw [compare_eq_iff_eq.mpr rfl, compare_eq_iff_eq.mpr rfl]
    · rw [compare_gt_iff_gt.mpr hm, eq_comm]
      exact compare_gt_iff_gt.mpr (by omega)
  · rw [compare_gt_iff_gt.mpr he, eq_comm]
    exact compare_gt_iff_gt.mpr (by omega)

end InRange

/-! ## Floats taken apart -/

/-- The floats that bits stand for. -/
inductive Canonical : UnpackedFloat → Prop where
  | notANumber : Canonical .notANumber
  | infinity (sign) : Canonical (.infinity sign)
  | zero (sign) : Canonical (.zero sign)
  | finite (sign mantissa exponent hpos) :
      InRange mantissa exponent → Canonical (.finite sign mantissa exponent hpos)

/-- The place of a number with its sign. -/
def unpackedRank : UnpackedFloat → Int
  | .notANumber | .zero _ => 0
  | .infinity sign => sign.apply infinityPlace
  | .finite sign mantissa exponent _ => sign.apply (placeOf mantissa exponent)

/-- Changing both signs turns a comparison around. -/
theorem swap_compare (a b : Int) : (compare a b).swap = compare (-a) (-b) := by
  rcases lt_trichotomy a b with h | rfl | h
  · rw [compare_lt_iff_lt.mpr h, compare_gt_iff_gt.mpr (Int.neg_lt_neg h)]
    rfl
  · rw [compare_eq_iff_eq.mpr rfl, compare_eq_iff_eq.mpr rfl]
    rfl
  · rw [compare_gt_iff_gt.mpr h, compare_lt_iff_lt.mpr (Int.neg_lt_neg h)]
    rfl

/-- Numbers compare as their ranks do. -/
theorem compare_of_canonical {x y : UnpackedFloat} (hx : Canonical x) (hy : Canonical y)
    (hxnan : x.isNaN = false) (hynan : y.isNaN = false) :
    x.compare y = some (compare (unpackedRank x) (unpackedRank y)) := by
  have lt {a b : Int} (h : a < b) : some Ordering.lt = some (compare a b) :=
    congrArg some (compare_lt_iff_lt.mpr h).symm
  have gt {a b : Int} (h : b < a) : some Ordering.gt = some (compare a b) :=
    congrArg some (compare_gt_iff_gt.mpr h).symm
  have hinfinity : 0 < (infinityPlace : Int) := by decide
  -- The comparison splits on the kinds of both sides before it looks at signs, and so do the cases;
  -- between two finite numbers it compares places, and backwards if both are negative.
  cases hx with
  | notANumber => cases hxnan
  | infinity s =>
      cases hy with
      | notANumber => cases hynan
      | infinity s' => cases s <;> cases s' <;> rfl
      | zero s' => cases s <;> rfl
      | finite s' m e hpos range =>
          have hpos := range.placeOf_pos
          have hlt := range.placeOf_lt
          cases s with
          | negative => cases s' with
            | negative => exact lt (Int.neg_lt_neg hlt)
            | positive => exact lt (Int.lt_trans (Int.neg_neg_of_pos hinfinity) hpos)
          | positive => cases s' with
            | negative => exact gt (Int.lt_trans (Int.neg_neg_of_pos hpos) hinfinity)
            | positive => exact gt hlt
  | zero s =>
      cases hy with
      | notANumber => cases hynan
      | infinity s' => cases s' <;> rfl
      | zero s' => rfl
      | finite s' m e hpos range =>
          cases s' with
          | negative => exact gt (Int.neg_neg_of_pos range.placeOf_pos)
          | positive => exact lt range.placeOf_pos
  | finite s m e hpos range =>
      have hpos := range.placeOf_pos
      have hlt := range.placeOf_lt
      cases hy with
      | notANumber => cases hynan
      | infinity s' =>
          cases s with
          | negative => cases s' with
            | negative => exact gt (Int.neg_lt_neg hlt)
            | positive => exact lt (Int.lt_trans (Int.neg_neg_of_pos hpos) hinfinity)
          | positive => cases s' with
            | negative => exact gt (Int.lt_trans (Int.neg_neg_of_pos hinfinity) hpos)
            | positive => exact lt hlt
      | zero s' =>
          cases s with
          | negative => exact lt (Int.neg_neg_of_pos hpos)
          | positive => exact gt hpos
      | finite s' m' e' hm' range' =>
          have hpos' := range'.placeOf_pos
          have hcompare := range.compare_placeOf range'
          cases s with
          | negative => cases s' with
            | negative =>
                exact congrArg some ((congrArg Ordering.swap hcompare).trans (swap_compare _ _))
            | positive => exact lt (Int.lt_trans (Int.neg_neg_of_pos hpos) hpos')
          | positive => cases s' with
            | negative => exact gt (Int.lt_trans (Int.neg_neg_of_pos hpos') hpos)
            | positive => exact congrArg some hcompare

/-! ## The parts of bits -/

/-- The place that bits hold besides their sign. -/
def place (bits : UInt64) : Nat := bits.toNat % 2 ^ 63

/-- The place that bits hold, with their sign. -/
def signedPlace (bits : UInt64) : Int :=
  if bits.toNat < 2 ^ 63 then place bits else -place bits

section Parts

variable (bits : UInt64)

/-- The sign that bits hold. -/
def signOf : Sign := Sign.ofBitVec (@unpackSign .binary64 bits.toBitVec)

/-- The exponent that bits hold, as it is written there. -/
def exponentOf : BitVec 11 := @unpackExponent .binary64 bits.toBitVec

/-- The mantissa that bits hold, without the leading bit of a normal number. -/
def mantissaOf : BitVec 52 := @unpackMantissa .binary64 bits.toBitVec

/-- The exponent is what the place holds above its lowest 52 bits. -/
theorem toNat_exponentOf : (exponentOf bits).toNat = place bits / 2 ^ 52 := by
  show (bits.toNat >>> 52) % 2 ^ 11 = bits.toNat % 2 ^ 63 / 2 ^ 52
  rw [Nat.shiftRight_eq_div_pow]
  omega

/-- The mantissa is what the place holds in its lowest 52 bits. -/
theorem toNat_mantissaOf : (mantissaOf bits).toNat = place bits % 2 ^ 52 := by
  show bits.toNat % 2 ^ 52 = bits.toNat % 2 ^ 63 % 2 ^ 52
  omega

theorem exponentOf_eq_iff (exponent : BitVec 11) :
    exponentOf bits = exponent ↔ place bits / 2 ^ 52 = exponent.toNat := by
  rw [← BitVec.toNat_inj, toNat_exponentOf]

theorem mantissaOf_eq_zero_iff : mantissaOf bits = 0#52 ↔ place bits % 2 ^ 52 = 0 := by
  rw [← BitVec.toNat_inj, toNat_mantissaOf]
  rfl

/-- The sign is the topmost bit. -/
theorem signOf_eq : signOf bits = if bits.toNat < 2 ^ 63 then .positive else .negative := by
  have htoNat : (@unpackSign .binary64 bits.toBitVec).toNat = bits.toNat / 2 ^ 63 := by
    show (bits.toNat >>> 63) % 2 ^ 1 = _
    have hlt := bits.toNat_lt
    rw [Nat.shiftRight_eq_div_pow]
    omega
  have hzero : @unpackSign .binary64 bits.toBitVec = 0#1 ↔ bits.toNat < 2 ^ 63 := by
    rw [← BitVec.toNat_inj, htoNat, BitVec.toNat_ofNat]
    omega
  simp only [signOf, Sign.ofBitVec, hzero]

/-- A place with the sign of its bits is the signed place. -/
theorem apply_signOf : (signOf bits).apply (place bits) = signedPlace bits := by
  rw [signOf_eq, signedPlace]
  split <;> rfl

/-- With its leading bit the mantissa of a normal number. -/
theorem toNat_one_append (mantissa : BitVec 52) :
    (1#1 ++ mantissa).toNat = 2 ^ 52 + mantissa.toNat := by
  rw [BitVec.toNat_append, Nat.shiftLeft_eq, Nat.or_comm]
  show mantissa.toNat ||| 1 * 2 ^ 52 = _
  rw [Nat.one_mul, Nat.or_two_pow_eq_add_of_lt mantissa.isLt, Nat.add_comm]

end Parts

/-- How bits are read: as no number if their place lies behind infinity, and otherwise as the number
whose rank is their place with their sign. -/
structure Reads (bits : UInt64) (x : UnpackedFloat) : Prop where
  canonical : Canonical x
  isNaN_iff : x.isNaN ↔ infinityPlace < place bits
  rank_eq : x.isNaN = false → unpackedRank x = signedPlace bits

/-- Bits are read as the number whose place they hold. -/
theorem reads_finite {bits : UInt64} {mantissa : Nat} {exponent : Int} (hpos : 0 < mantissa)
    (range : InRange mantissa exponent) (hplace : placeOf mantissa exponent = place bits) :
    Reads bits (.finite (signOf bits) mantissa exponent hpos) := by
  have hlt := range.placeOf_lt
  refine ⟨.finite _ _ _ _ range, iff_of_false nofun (by omega), fun _ ↦ ?_⟩
  rw [← apply_signOf, ← hplace]
  rfl

/-- Bits without an exponent are read as a number below the normal ones. -/
theorem reads_subnormal {bits : UInt64} (hnone : place bits / 2 ^ 52 = 0)
    (hpos : 0 < (mantissaOf bits).toNat) :
    Reads bits (.finite (signOf bits) (mantissaOf bits).toNat
      ((exponentOf bits).toNat - (1023 + 52) + 1) hpos) := by
  have hmantissa := toNat_mantissaOf bits
  have hexponent : ((exponentOf bits).toNat - (1023 + 52) + 1 : Int) = -1074 := by
    rw [toNat_exponentOf]
    omega
  refine reads_finite hpos ?_ ?_
  · rw [hexponent]
    exact ⟨hpos, by omega, by omega, by omega, .inl rfl⟩
  · rw [hexponent, placeOf]
    omega

/-- Bits with an exponent that is not the largest one are read as a normal number. -/
theorem reads_normal {bits : UInt64} (hfull : ¬ place bits / 2 ^ 52 = 2047)
    (hnone : ¬ place bits / 2 ^ 52 = 0) (hpos : 0 < (1#1 ++ mantissaOf bits).toNat) :
    Reads bits (.finite (signOf bits) (1#1 ++ mantissaOf bits).toNat
      ((exponentOf bits).toNat - (1023 + 52)) hpos) := by
  have hplace : place bits < 2 ^ 63 := Nat.mod_lt _ (by decide)
  have hmantissa : (1#1 ++ mantissaOf bits).toNat = 2 ^ 52 + place bits % 2 ^ 52 := by
    rw [toNat_one_append, toNat_mantissaOf]
  have hexponent := toNat_exponentOf bits
  refine reads_finite hpos ⟨hpos, by omega, by omega, by omega, .inr (by omega)⟩ ?_
  rw [placeOf]
  omega

/-- Bits of every kind are read in this way. -/
theorem reads_unpack (bits : UInt64) : Reads bits (unpack .binary64 bits.toBitVec) := by
  have hplace : place bits < 2 ^ 63 := Nat.mod_lt _ (by decide)
  have hfull : _ ↔ _ = 2047 := exponentOf_eq_iff bits (-1#11)
  have hnone : _ ↔ _ = 0 := exponentOf_eq_iff bits 0#11
  have hzero := mantissaOf_eq_zero_iff bits
  unfold unpack
  simp only
  -- A full exponent is an infinity or no number, an empty one zero or a subnormal number, and any
  -- other a normal one.
  split
  case isTrue h =>
    have h := hfull.mp h
    split
    case isTrue h' =>
      have h' := hzero.mp h'
      have hinfinity : place bits = infinityPlace := by unfold infinityPlace; omega
      refine ⟨.infinity _, iff_of_false nofun (by omega), fun _ ↦ ?_⟩
      rw [← apply_signOf, hinfinity]
      rfl
    case isFalse h' =>
      have h' := mt hzero.mpr h'
      exact ⟨.notANumber, iff_of_true rfl (by unfold infinityPlace; omega), nofun⟩
  case isFalse h =>
    have h := mt hfull.mpr h
    split
    case isTrue h' =>
      have h' := hnone.mp h'
      split
      case isTrue h'' =>
        have h'' := hzero.mp h''
        have hzero : place bits = 0 := by omega
        refine ⟨.zero _, iff_of_false nofun (by omega), fun _ ↦ ?_⟩
        rw [signedPlace, hzero]
        exact (ite_self _).symm
      case isFalse h'' => exact reads_subnormal h' _
    case isFalse h' => exact reads_normal h (mt hnone.mpr h') _

/-! ## Floats -/

/-- The place of a number with its sign. -/
def rank (x : Float) : Int := signedPlace x.toBits

/-- Two numbers compare as their ranks do. -/
theorem compare_unpack {x y : Float} (hx : x.isNaN = false) (hy : y.isNaN = false) :
    x.toModel.unpack.compare y.toModel.unpack = some (compare (rank x) (rank y)) := by
  have hreads := reads_unpack x.toBits
  have hreads' := reads_unpack y.toBits
  rw [rank, rank, ← hreads.rank_eq hx, ← hreads'.rank_eq hy]
  exact compare_of_canonical hreads.canonical hreads'.canonical hx hy

/-- What is no number compares with nothing. -/
theorem compare_unpack_eq_none {x y : Float} (hxy : x.isNaN ∨ y.isNaN) :
    x.toModel.unpack.compare y.toModel.unpack = none := by
  cases hxy with
  | inl hx => rw [isNaN_iff.mp hx]; rfl
  | inr hy =>
      rw [isNaN_iff.mp hy]
      cases x.toModel.unpack <;> rfl

/-- What no number is compared with is neither below nor above it. -/
theorem lt_iff_rank {x y : Float} :
    x < y ↔ x.isNaN = false ∧ y.isNaN = false ∧ rank x < rank y := by
  have hlt : x < y ↔ x.toModel.unpack.compare y.toModel.unpack = some .lt := by
    show decide ((x.toModel.unpack.compare y.toModel.unpack == some .lt) = true) = true ↔ _
    rw [decide_eq_true_iff, beq_iff_eq]
  rw [hlt]
  cases hx : x.isNaN with
  | true => rw [compare_unpack_eq_none (.inl hx)]; exact iff_of_false nofun nofun
  | false => cases hy : y.isNaN with
    | true => rw [compare_unpack_eq_none (.inr hy)]; exact iff_of_false nofun nofun
    | false =>
        rw [compare_unpack hx hy, Option.some_inj, compare_lt_iff_lt]
        exact ⟨fun h ↦ ⟨rfl, rfl, h⟩, fun h ↦ h.2.2⟩

/-- A float is at most another exactly when both are numbers and its rank is no larger. -/
theorem le_iff_rank {x y : Float} :
    x ≤ y ↔ x.isNaN = false ∧ y.isNaN = false ∧ rank x ≤ rank y := by
  have hle : x ≤ y ↔ (x.toModel.unpack.compare y.toModel.unpack).any Ordering.isLE := by
    show decide (_ = true) = true ↔ _
    rw [decide_eq_true_iff]
    rfl
  rw [hle]
  cases hx : x.isNaN with
  | true => rw [compare_unpack_eq_none (.inl hx)]; exact iff_of_false nofun nofun
  | false => cases hy : y.isNaN with
    | true => rw [compare_unpack_eq_none (.inr hy)]; exact iff_of_false nofun nofun
    | false =>
        rw [compare_unpack hx hy, Option.any_some, Std.isLE_compare]
        exact ⟨fun h ↦ ⟨rfl, rfl, h⟩, fun h ↦ h.2.2⟩

/-- The bits that hold no number are those with a place behind infinity. -/
theorem isNaNBits_iff (bits : UInt64) :
    @isNaNBits Format.binary64 bits.toBitVec ↔ infinityPlace < place bits := by
  have hplace : place bits < 2 ^ 63 := Nat.mod_lt _ (by decide)
  have hfull : _ ↔ _ = 2047 := exponentOf_eq_iff bits (-1#11)
  have hzero := mantissaOf_eq_zero_iff bits
  show decide (exponentOf bits = -1#11 ∧ mantissaOf bits ≠ 0#52) ↔ _
  rw [decide_eq_true_iff, Ne, hfull, hzero, infinityPlace]
  omega

/-- Bits that hold a number are kept by the float that is made of them. -/
theorem toBits_ofBits {bits : UInt64} (h : place bits ≤ infinityPlace) :
    (Float.ofBits bits).toBits = bits := by
  rw [← UInt64.toBitVec_inj]
  show (unpack .binary64 bits.toBitVec).pack .binary64 = bits.toBitVec
  rw [pack_unpack]
  exact if_neg (mt (isNaNBits_iff bits).mp (Nat.not_lt.mpr h))

/-- The float made of bits is no number exactly if their place lies behind infinity. -/
theorem isNaN_ofBits_iff (bits : UInt64) :
    (Float.ofBits bits).isNaN ↔ infinityPlace < place bits := by
  cases Nat.lt_or_ge infinityPlace (place bits) with
  | inl h =>
      have hbits : (Float.ofBits bits).toBits.toBitVec = packedNaN Format.binary64 := by
        show (unpack .binary64 bits.toBitVec).pack .binary64 = _
        rw [pack_unpack]
        exact if_pos ((isNaNBits_iff bits).mpr h)
      refine iff_of_true ?_ h
      show (unpack .binary64 (Float.ofBits bits).toBits.toBitVec).isNaN
      rw [hbits, unpack_packedNaN]
      rfl
  | inr h =>
      show (unpack .binary64 (Float.ofBits bits).toBits.toBitVec).isNaN ↔ _
      rw [toBits_ofBits h]
      exact (reads_unpack bits).isNaN_iff

/-- The rank of a float made of bits is their signed place. -/
theorem rank_ofBits {bits : UInt64} (h : place bits ≤ infinityPlace) :
    rank (Float.ofBits bits) = signedPlace bits := by
  rw [rank, toBits_ofBits h]

end EventStaging.Decimal
