/-!
# Decimal digits

The value of a run of decimal digits, and the digits of a number. `isRun_digitsOf` and
`valueOf_digitsOf` say that the digits of a number are such a run and stand for the number.
-/

namespace EventStaging.Decimal

/-- The number that a run of decimal digits stands for; the empty run stands for zero. -/
def valueOf (digits : List Char) : Nat := Nat.ofDigitChars 10 digits 0

/-- The decimal digits of a number, without leading zeros. -/
def digitsOf (n : Nat) : List Char := Nat.toDigits 10 n

/-- A run of digits, at least one. -/
def IsRun (digits : List Char) : Prop := digits ≠ [] ∧ ∀ c ∈ digits, c.isDigit

/-- The digits with which a list of characters begins. -/
def leadingDigits (cs : List Char) : List Char := cs.takeWhile Char.isDigit

/-- What follows the digits with which a list of characters begins. -/
def afterDigits (cs : List Char) : List Char := cs.dropWhile Char.isDigit

/-- A list is its leading digits and what follows them. -/
theorem leadingDigits_append_afterDigits (cs : List Char) :
    leadingDigits cs ++ afterDigits cs = cs := List.takeWhile_append_dropWhile

/-- The digits of a number are a run of digits. -/
theorem isRun_digitsOf (n : Nat) : IsRun (digitsOf n) :=
  ⟨Nat.toDigits_ne_nil, fun _ hc ↦ Nat.isDigit_of_mem_toDigits (by decide) (by decide) hc⟩

/-- The digits of no number but zero begin with a zero. -/
theorem eq_zero_of_head_digitsOf {n : Nat} (h : (digitsOf n).head? = some '0') : n = 0 := by
  induction n using Nat.strongRecOn with
  | ind n ih =>
      by_cases hlt : n < 10
      · rw [digitsOf, Nat.toDigits_of_lt_base hlt] at h
        exact Nat.digitChar_eq_zero.mp (Option.some.inj h)
      · rw [digitsOf, Nat.toDigits_of_base_le (by decide) (by omega),
          List.head?_append, List.head?_eq_some_head Nat.toDigits_ne_nil, Option.some_or,
          ← List.head?_eq_some_head Nat.toDigits_ne_nil] at h
        have hzero := ih (n / 10) (by omega) h
        omega

/-- The digits of a number stand for the number. -/
theorem valueOf_digitsOf (n : Nat) : valueOf (digitsOf n) = n := Nat.ofDigitChars_ten_toDigits

end EventStaging.Decimal
