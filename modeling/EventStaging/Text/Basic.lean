/-!
# Texts

Classes of characters, the blanks that trimming removes, and the parts of a text: whether it begins
with another one, with what follows it, and whether it holds another one.
-/

namespace EventStaging.Text

/-- The word for a truth value. -/
def flag (value : Bool) : String := if value then "true" else "false"

/-! ## Classes of characters -/

/-- Ranges of code points, both ends included. -/
abbrev CharClass := List (Nat × Nat)

namespace CharClass

/-- A character belongs to a class when one of the ranges holds its code point. -/
def holds (ranges : CharClass) (c : Char) : Bool :=
  ranges.any fun range ↦ range.1 ≤ c.toNat && c.toNat ≤ range.2

/-- How many code points the ranges cover, if no two of them overlap. -/
def count (ranges : CharClass) : Nat :=
  ranges.foldl (fun total range ↦ total + (range.2 + 1 - range.1)) 0

/-- A class holds a character exactly if one of its ranges does. -/
theorem holds_iff {ranges : CharClass} {c : Char} :
    ranges.holds c ↔ ∃ range ∈ ranges, range.1 ≤ c.toNat ∧ c.toNat ≤ range.2 := by
  simp [holds]

end CharClass

/-! ## Blanks -/

/-- The 25 characters with the Unicode property White_Space. -/
def blanks : CharClass :=
  [(0x9, 0xd), (0x20, 0x20), (0x85, 0x85), (0xa0, 0xa0), (0x1680, 0x1680), (0x2000, 0x200a),
    (0x2028, 0x2029), (0x202f, 0x202f), (0x205f, 0x205f), (0x3000, 0x3000)]

example : blanks.count = 25 := rfl

/-- A blank separates words and has no shape of its own. -/
def isBlank (c : Char) : Bool := blanks.holds c

/-- A list of characters without the blanks at its two ends. -/
def trimChars (cs : List Char) : List Char :=
  ((cs.dropWhile isBlank).reverse.dropWhile isBlank).reverse

/-- A text without the blanks at its two ends. -/
def trim (text : String) : String := String.ofList (trimChars text.toList)

/-! ## Parts of a text -/

/-- What follows `start` in a list of characters that begins with it. -/
def after? : List Char → List Char → Option (List Char)
  | [], cs => some cs
  | _ :: _, [] => none
  | a :: start, c :: cs => if a = c then after? start cs else none

/-- Whether `part` begins at some place of a list of characters. -/
def occursIn (part : List Char) : List Char → Bool
  | [] => part.isEmpty
  | c :: cs => (after? part (c :: cs)).isSome || occursIn part cs

/-- Whether a text holds another one. -/
def contains (text part : String) : Bool := occursIn part.toList text.toList

/-- Whether a text begins with another one. -/
def beginsWith (text start : String) : Bool := (after? start.toList text.toList).isSome

/-- What follows `start` in a text that begins with it. -/
def rest? (text start : String) : Option String :=
  (after? start.toList text.toList).map String.ofList

/-- What follows the beginning of a list is the rest of it. -/
theorem after?_eq_some_iff {start cs rest : List Char} :
    after? start cs = some rest ↔ cs = start ++ rest := by
  fun_induction after? start cs with
  | case1 => simp [eq_comm]
  | case2 => simp
  | case3 start c cs ih => simp [ih]
  | case4 => simp_all [eq_comm]

end EventStaging.Text
