import EventStaging.Decimal.Digits

/-!
# Shortest decimal texts

The decimal text of a floating-point number has the fewest digits that read back as the number; of
two such texts it is the nearer one, and the larger one if both are equally near. The text is always
positional: it has no exponent, and a whole number has no point.

A finite number is `m · 2 ^ q` with whole `m` and `q`. The reals that read back as it form an
interval, to which the ends belong when `m` is even. The digits are found by looking, for one digit,
two digits, and so on, at the two neighbours of the number on the grid of decimals with that many
digits.
-/

namespace EventStaging.Decimal

/-- A positive rational number as a numerator and a denominator. -/
structure Ratio where
  num : Nat
  den : Nat

namespace Ratio

/-- One ratio is at most another. -/
def le (a b : Ratio) : Bool := a.num * b.den ≤ b.num * a.den

/-- One ratio is less than another. -/
def lt (a b : Ratio) : Bool := a.num * b.den < b.num * a.den

/-- `m · base ^ e`. -/
def scaled (m base : Nat) (e : Int) : Ratio :=
  if 0 ≤ e then ⟨m * base.pow e.toNat, 1⟩ else ⟨m, base.pow (-e).toNat⟩

end Ratio

/-- A positive finite number `m * 2 ^ q`. It is `narrow` if the neighbour below is only half as far
as the one above. -/
structure Binary where
  m : Nat
  q : Int
  narrow : Bool

namespace Binary

/-- The number as a ratio. -/
def value (b : Binary) : Ratio := Ratio.scaled (4 * b.m) 2 (b.q - 2)

/-- The lower end of the interval that reads back as the number. -/
def lower (b : Binary) : Ratio :=
  Ratio.scaled (if b.narrow then 4 * b.m - 1 else 4 * b.m - 2) 2 (b.q - 2)

/-- The upper end of the interval that reads back as the number. -/
def upper (b : Binary) : Ratio := Ratio.scaled (4 * b.m + 2) 2 (b.q - 2)

/-- Whether a ratio reads back as the number. -/
def holds (b : Binary) (r : Ratio) : Bool :=
  if b.m % 2 = 0 then b.lower.le r && r.le b.upper else b.lower.lt r && r.lt b.upper

/-- The number of places before the point of a number of at least one, and for a smaller one the
number of zeros after the point, negated. -/
def places (b : Binary) : Int :=
  let v := b.value
  if v.den ≤ v.num then (digitsOf (v.num / v.den)).length
  else -(((List.range 400).find? fun j ↦ v.den ≤ v.num * Nat.pow 10 (j + 1)).getD 0 : Nat)

/-- The nearer of the neighbours on the grid of multiples of `10 ^ e` that reads back as the number,
in units of the grid. -/
def onGrid? (b : Binary) (e : Int) : Option Nat :=
  let v := b.value
  let unit := Ratio.scaled 1 10 e
  let below := v.num * unit.den / (v.den * unit.num)
  let down := b.holds (Ratio.scaled below 10 e)
  let up := b.holds (Ratio.scaled (below + 1) 10 e)
  let upNearer := (Ratio.scaled (2 * below + 1) 10 e).le ⟨2 * v.num, v.den⟩
  match down, up with
  | true, true => some (if upNearer then below + 1 else below)
  | true, false => some below
  | false, true => some (below + 1)
  | false, false => none

/-- The digits of the shortest text and the exponent of ten that goes with them. Seventeen digits
are always enough; the grid of the next power of ten comes first, because a number may be so close
below it that the power reads back as the number. -/
def shortest (b : Binary) : Nat × Int :=
  let grids := (List.range 18).map fun n ↦ b.places - (n : Nat)
  (grids.findSome? fun e ↦ (b.onGrid? e).map fun digits ↦ (digits, e)).getD (0, 0)

end Binary

/-- The text of `digits · 10 ^ e`, without an exponent. -/
def positional (digits : Nat) (e : Int) : List Char :=
  let cs := digitsOf digits
  if 0 ≤ e then cs ++ List.replicate e.toNat '0'
  else
    let after := (-e).toNat
    let padded := List.replicate (after + 1 - cs.length) '0' ++ cs
    padded.take (padded.length - after) ++ '.' :: padded.drop (padded.length - after)

/-- The bits of the fraction of a number. -/
def fractionBits (x : Float) : Nat := x.toBits.toNat % (1 <<< 52)

/-- The bits of the exponent of a number. -/
def exponentBits (x : Float) : Nat := x.toBits.toNat >>> 52 % 2048

/-- Whether the sign bit of a number is set. -/
def isNegative (x : Float) : Bool := x.toBits.toNat >>> 63 == 1

/-- The magnitude of a finite number other than zero. -/
def binary (x : Float) : Binary :=
  let fraction := fractionBits x
  let exponent := exponentBits x
  if exponent = 0 then ⟨fraction, -1074, false⟩
  else ⟨(1 <<< 52) + fraction, (exponent : Int) - 1075, fraction = 0 ∧ exponent > 1⟩

/-- The text of a floating-point number. -/
def floatText (x : Float) : String :=
  if x.isNaN then "NaN"
  else
    let magnitude :=
      if exponentBits x = 2047 then "inf".toList
      else if fractionBits x = 0 ∧ exponentBits x = 0 then ['0']
      else
        let (digits, e) := (binary x).shortest
        positional digits e
    String.ofList (if isNegative x then '-' :: magnitude else magnitude)

end EventStaging.Decimal
