import EventStaging.Decimal.Reading

/-!
# JSON values

A JSON text as a value. Numbers keep their digits, because how a number is written decides whether
it may stand for an integer; a string that holds half of a surrogate pair has no text.
-/

namespace EventStaging

/-- A number as it is written: whether a minus sign comes first, the digits before the point, those
after it if there is one, and those of the exponent if there is one, with whether a minus sign comes
before them. -/
structure Numeral where
  negative : Bool
  whole : List Char
  fraction : Option (List Char)
  exponent : Option (Bool × List Char)
  deriving DecidableEq, Repr

/-- A JSON value. -/
inductive Json where
  | null
  | bool (value : Bool)
  | number (numeral : Numeral)
  | string (text : Option String)
  | array (items : List Json)
  | object (members : List (Option String × Json))

namespace Numeral

/-- The integer that a numeral stands for: one with a point or an exponent stands for none, and
neither does a negated zero. -/
def int? (n : Numeral) : Option Int :=
  match n.fraction, n.exponent with
  | none, none =>
    let value := Decimal.valueOf n.whole
    if n.negative then if value = 0 then none else some (-(value : Int)) else some value
  | _, _ => none

/-- The exponent of a numeral; a numeral without one has the exponent zero. -/
def power (n : Numeral) : Int :=
  match n.exponent with
  | none => 0
  | some (negative, digits) =>
    if negative then -(Decimal.valueOf digits : Int) else Decimal.valueOf digits

/-- The digits after the point, without the zeros at their end. -/
def fractionDigits (n : Numeral) : List Char :=
  ((n.fraction.getD []).reverse.dropWhile (· = '0')).reverse

/-- The digits from the first one on that is not zero. -/
def significantDigits (n : Numeral) : List Char :=
  (n.whole ++ n.fractionDigits).dropWhile (· = '0')

/-- How many significant digits are looked at. A number halfway between two neighbouring
floating-point numbers never needs as many. -/
def digitLimit : Nat := 768

/-- The floating-point number nearest to the magnitude of a numeral. A single digit one stands for
all the digits beyond the limit, whatever they are. -/
def nearest (n : Numeral) : Float :=
  let digits := n.significantDigits
  let exponent := n.power - n.fractionDigits.length
  if digits.length ≤ digitLimit then Decimal.scientific (Decimal.valueOf digits) exponent
  else
    Decimal.scientific (10 * Decimal.valueOf (digits.take digitLimit) + 1)
      (exponent + (digits.length - digitLimit - 1 : Nat))

/-- The floating-point number that a numeral stands for, unless its magnitude lies beyond the
largest one. -/
def float? (n : Numeral) : Option Float :=
  let magnitude := n.nearest
  if magnitude.isInf then none else some (if n.negative then -magnitude else magnitude)

/-- The numeral of an integer. -/
def ofInt (i : Int) : Numeral := ⟨i < 0, Decimal.digitsOf i.natAbs, none, none⟩

/-- An integer is read off its numeral. -/
theorem int?_ofInt (i : Int) : (ofInt i).int? = some i := by
  simp only [int?, ofInt, Decimal.valueOf_digitsOf, decide_eq_true_eq]
  by_cases hneg : i < 0
  · rw [if_pos hneg, if_neg (by omega), Int.ofNat_natAbs_of_nonpos (Int.le_of_lt hneg), Int.neg_neg]
  · rw [if_neg hneg, Int.natAbs_of_nonneg (Int.not_lt.mp hneg)]

end Numeral

end EventStaging
