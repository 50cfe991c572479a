import EventStaging.Decimal.Digits
import EventStaging.Host

/-!
# Reading decimal numbers

The decimal texts of floating-point numbers and of words. A floating-point number is an optional
sign and then the name of infinity, a name for no number, or digits with an optional point and an
optional exponent; the number read is the one nearest to the decimal value. A word is an optional
plus sign and digits.
-/

namespace EventStaging.Decimal

/-- Splits an optional sign off and says whether it is a minus sign. -/
def splitSign : List Char → Bool × List Char
  | '-' :: cs => (true, cs)
  | '+' :: cs => (false, cs)
  | cs => (false, cs)

/-- The number nearest to `m · 10 ^ e`. -/
def scientific (m : Nat) (e : Int) : Float :=
  if 0 ≤ e then Float.ofScientific m false e.toNat else Float.ofScientific m true (-e).toNat

/-- A nonempty run of digits with an optional sign before it. -/
def signedDigits? (cs : List Char) : Option Int :=
  let (negative, digits) := splitSign cs
  if digits.isEmpty || !digits.all Char.isDigit then none
  else some (if negative then -(valueOf digits : Int) else valueOf digits)

/-- The exponent that a text ends with; a text may end without one. -/
def exponent? : List Char → Option Int
  | [] => some 0
  | c :: cs => if c = 'e' ∨ c = 'E' then signedDigits? cs else none

/-- Splits the digits after an optional point off. -/
def splitFraction : List Char → List Char × List Char
  | '.' :: cs => (leadingDigits cs, afterDigits cs)
  | cs => ([], cs)

/-- The number that a text without a sign stands for. -/
def magnitude? (cs : List Char) : Option Float :=
  let lower := String.ofList (cs.map Char.toLower)
  if lower = "inf" ∨ lower = "infinity" then some (1 / 0)
  else if lower = "nan" then some (0 / 0)
  else
    let whole := leadingDigits cs
    let (fraction, rest) := splitFraction (afterDigits cs)
    if whole.isEmpty && fraction.isEmpty then none
    else (exponent? rest).map fun e ↦ scientific (valueOf (whole ++ fraction)) (e - fraction.length)

/-- The floating-point number that a text stands for. -/
def float? (text : String) : Option Float :=
  let (negative, cs) := splitSign text.toList
  (magnitude? cs).map fun x ↦ if negative then -x else x

/-- The word that a text stands for: digits after an optional plus sign, and a value that fits. -/
def word? (text : String) : Option Nat :=
  let digits := match text.toList with
    | '+' :: cs => cs
    | cs => cs
  if digits.isEmpty || !digits.all Char.isDigit then none
  else if valueOf digits ≤ wordMax then some (valueOf digits)
  else none

end EventStaging.Decimal
