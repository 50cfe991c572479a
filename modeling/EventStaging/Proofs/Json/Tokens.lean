import EventStaging.Json.Compact
import EventStaging.Json.Grammar
import Mathlib.Data.List.TakeWhile

/-!
# Reading written strings and numerals

The grammar reads a string in quotes back as the string, whatever its characters are
(`Json.string?_quote`), and a numeral as the numeral, unless what follows could belong to it
(`Json.numeral?_compact`).
-/

namespace EventStaging

namespace Json

variable {c : Char} {cs rest last : List Char} {units : List Nat}

/-! ## Strings -/

/-- The ways in which a character may stand in a string: by a letter or by its number after a
backslash, or for itself. -/
inductive StandsAs (c : Char) : List Char → Prop where
  | letter {letter : Char} :
      letter ≠ 'u' → simpleEscape? letter = some c → StandsAs c ['\\', letter]
  | number : c.toNat < 0x20 →
      StandsAs c ['\\', 'u', '0', '0', hexDigit (c.toNat / 16), hexDigit (c.toNat % 16)]
  | itself : c ≠ '"' → c ≠ '\\' → ¬ c.toNat < 0x20 → StandsAs c [c]

/-- Every character stands as its escape. -/
theorem standsAs_escape (c : Char) : StandsAs c (escape c) := by
  unfold escape
  split_ifs with hquote hslash hbackspace htab hfeed hform hreturn hcontrol
  · exact .letter (by decide) (by rw [hquote]; rfl)
  · exact .letter (by decide) (by rw [hslash]; rfl)
  · exact .letter (by decide) (by rw [hbackspace]; rfl)
  · exact .letter (by decide) (by rw [htab]; rfl)
  · exact .letter (by decide) (by rw [hfeed]; rfl)
  · exact .letter (by decide) (by rw [hform]; rfl)
  · exact .letter (by decide) (by rw [hreturn]; rfl)
  · exact .number hcontrol
  · exact .itself hquote hslash hcontrol

/-- Two hexadecimal digits are read back. -/
theorem hexUnit?_hexDigit {n : Nat} (h : n < 0x20) :
    hexUnit? '0' '0' (hexDigit (n / 16)) (hexDigit (n % 16)) = some n := by
  have hall : ∀ n < 0x20, hexUnit? '0' '0' (hexDigit (n / 16)) (hexDigit (n % 16)) = some n := by
    decide
  exact hall n h

/-- What a character stands as is read as that character, whatever comes next. -/
theorem StandsAs.stringUnits? (h : StandsAs c cs) (hrest : stringUnits? rest = some (units, last)) :
    Json.stringUnits? (cs ++ rest) = some (c.toNat :: units, last) := by
  cases h with
  | @letter letter hletter hescape =>
      have hescaped : Json.stringUnits? ('\\' :: letter :: rest) =
          (simpleEscape? letter).bind fun c ↦
            (Json.stringUnits? rest).bind fun read ↦ some (c.toNat :: read.1, read.2) := by
        rw [Json.stringUnits?]
        · rfl
        · exact fun _ _ _ _ _ heq _ ↦ hletter heq
      show Json.stringUnits? ('\\' :: letter :: rest) = _
      rw [hescaped, hescape, hrest]
      rfl
  | number hcontrol =>
      show Json.stringUnits? ('\\' :: 'u' :: '0' :: '0' :: _ :: _ :: rest) = _
      rw [Json.stringUnits?, hexUnit?_hexDigit hcontrol, hrest]
      rfl
  | itself hquote hslash hcontrol =>
      show Json.stringUnits? (c :: rest) = _
      rw [Json.stringUnits?, if_neg hcontrol, hrest]
      · rfl
      all_goals grind

/-- Escaped characters are read back up to the closing quote. -/
theorem stringUnits?_flatMap_escape (cs rest : List Char) :
    stringUnits? (cs.flatMap escape ++ '"' :: rest) = some (cs.map Char.toNat, rest) := by
  induction cs with
  | nil => rfl
  | cons c cs ih =>
      rw [List.flatMap_cons, List.append_assoc]
      exact (standsAs_escape c).stringUnits? ih

/-- No character is half of a surrogate pair. -/
theorem isSurrogate_toNat (c : Char) :
    isHighSurrogate c.toNat = false ∧ isLowSurrogate c.toNat = false := by
  have hvalid : c.toNat < 0xd800 ∨ 0xdfff < c.toNat ∧ c.toNat < 0x110000 := c.valid
  constructor
  · simp only [isHighSurrogate, Bool.and_eq_false_iff, decide_eq_false_iff_not]
    omega
  · simp only [isLowSurrogate, Bool.and_eq_false_iff, decide_eq_false_iff_not]
    omega

/-- Characters are assembled from their code points. -/
theorem assemble?_map_toNat (cs : List Char) : assemble? (cs.map Char.toNat) = some cs := by
  induction cs with
  | nil => rfl
  | cons c cs ih =>
      obtain ⟨hhigh, hlow⟩ := isSurrogate_toNat c
      cases cs with
      | nil =>
          show assemble? [c.toNat] = _
          rw [assemble?, hhigh, hlow, Char.ofNat_toNat]
          rfl
      | cons other cs =>
          show assemble? (c.toNat :: other.toNat :: cs.map Char.toNat) = _
          rw [assemble?, hhigh, hlow, Char.ofNat_toNat]
          exact congrArg (Option.map (c :: ·)) ih

/-- A string in quotes is read back, with what follows it. -/
theorem string?_quote (text : String) (rest : List Char) :
    string? (text.toList.flatMap escape ++ '"' :: rest) = some (some text, rest) := by
  rw [string?, stringUnits?_flatMap_escape]
  show some ((assemble? (text.toList.map Char.toNat)).map String.ofList, rest) = _
  rw [assemble?_map_toNat, Option.map_some, String.ofList_toList]

end Json

/-! ## Numerals -/

/-- No sign comes before the digits of a run. -/
theorem Decimal.IsRun.head_ne {digits rest : List Char} {sign : Char} (h : IsRun digits)
    (hsign : ¬ sign.isDigit) : (digits ++ rest).head? ≠ some sign := by
  obtain ⟨hne, hdigits⟩ := h
  obtain ⟨c, digits, rfl⟩ := List.exists_cons_of_ne_nil hne
  intro heq
  cases heq
  exact hsign (hdigits _ List.mem_cons_self)

open Decimal (IsRun)

namespace Numeral

/-- A numeral as the grammar has it: every part of it is a run of digits, and the whole digits do
not begin with a zero unless it stands alone. -/
structure Regular (n : Numeral) : Prop where
  whole : IsRun n.whole
  zero : n.whole.head? = some '0' → n.whole = ['0']
  fraction : ∀ digits, n.fraction = some digits → IsRun digits
  exponent : ∀ negative digits, n.exponent = some (negative, digits) → IsRun digits

/-- What follows a numeral does not look like more of it. -/
def Stops (rest : List Char) : Prop :=
  ∀ c, rest.head? = some c → c.isDigit = false ∧ c ≠ '.' ∧ c ≠ 'e' ∧ c ≠ 'E'

/-- A numeral is its sign, its whole part, its fraction and its exponent, in this order. -/
theorem compact_append (n : Numeral) (rest : List Char) :
    n.compact ++ rest = (if n.negative then ['-'] else []) ++
      (n.whole ++ (n.fractionText ++ (n.exponentText ++ rest))) := by
  simp only [compact, List.append_assoc]

end Numeral

namespace Json

variable {rest digits : List Char}

/-! ### The parts of a numeral -/

/-- A run of digits is read back if no further digit follows. -/
theorem digits?_append (hrun : IsRun digits)
    (hrest : ∀ c, rest.head? = some c → c.isDigit = false) :
    digits? (digits ++ rest) = some (digits, rest) := by
  have hnone : rest.takeWhile Char.isDigit = [] := by
    cases rest with
    | nil => rfl
    | cons c rest => rw [List.takeWhile_cons_of_neg (by rw [hrest c rfl]; exact Bool.false_ne_true)]
  have htake : Decimal.leadingDigits (digits ++ rest) = digits := by
    rw [Decimal.leadingDigits, List.takeWhile_append_of_pos hrun.2, hnone, List.append_nil]
  have hdrop : Decimal.afterDigits (digits ++ rest) = rest := by
    have hsplit := Decimal.leadingDigits_append_afterDigits (digits ++ rest)
    rw [htake] at hsplit
    exact List.append_cancel_left hsplit
  rw [digits?, htake, hdrop, if_neg (by simpa using hrun.1)]

/-- A whole part is read back if no further digit follows; it may begin with a zero only if that is
all. -/
theorem whole?_append (hrun : IsRun digits) (hzero : digits.head? = some '0' → digits = ['0'])
    (hrest : ∀ c, rest.head? = some c → c.isDigit = false) :
    whole? (digits ++ rest) = some (digits, rest) := by
  by_cases hfirst : digits.head? = some '0'
  · rw [hzero hfirst]
    cases rest with
    | nil => rfl
    | cons c rest =>
        show (if c.isDigit then none else _) = _
        rw [hrest c rfl]
        rfl
  · rw [whole?, digits?_append hrun hrest]
    intro others heq
    obtain ⟨c, digits, rfl⟩ := List.exists_cons_of_ne_nil hrun.1
    cases heq
    exact hfirst rfl

end Json

namespace Numeral

variable {n : Numeral} {rest : List Char}

/-- A fraction is read back, also where there is none. -/
theorem fraction?_append (h : n.Regular)
    (hrest : ∀ c, rest.head? = some c → c.isDigit = false ∧ c ≠ '.') :
    Json.fraction? (n.fractionText ++ rest) = some (n.fraction, rest) := by
  unfold fractionText
  cases hfraction : n.fraction with
  | none =>
      show Json.fraction? rest = _
      rw [Json.fraction?]
      rintro others rfl
      exact (hrest '.' rfl).2 rfl
  | some digits =>
      show (Json.digits? (digits ++ rest)).map _ = _
      rw [Json.digits?_append (h.fraction digits hfraction) fun c hc ↦ (hrest c hc).1]
      rfl

/-- An exponent is read back, also where there is none. -/
theorem exponent?_append (h : n.Regular) (hrest : Stops rest) :
    Json.exponent? (n.exponentText ++ rest) = some (n.exponent, rest) := by
  unfold exponentText
  cases hexponent : n.exponent with
  | none =>
      show Json.exponent? rest = _
      cases rest with
      | nil => rfl
      | cons c rest =>
          obtain ⟨-, -, hlower, hupper⟩ := hrest c rfl
          show (if c = 'e' ∨ c = 'E' then _ else some (none, c :: rest)) = _
          rw [if_neg (not_or.mpr ⟨hlower, hupper⟩)]
  | some exponent =>
      obtain ⟨negative, digits⟩ := exponent
      have hrun := h.exponent negative digits hexponent
      have hdigits := Json.digits?_append hrun fun c hc ↦ (hrest c hc).1
      cases negative with
      | true =>
          show (Json.digits? (digits ++ rest)).map _ = _
          rw [hdigits]
          rfl
      | false =>
          show Json.exponent? ('e' :: (digits ++ rest)) = _
          rw [Json.exponent?, if_pos (.inl rfl), hdigits]
          · rfl
          all_goals
            intro others heq
            exact hrun.head_ne (by decide) (congrArg List.head? heq)

/-- What comes after the digits of a fraction is no digit. -/
theorem exponentText_head (hrest : Stops rest) (c : Char)
    (hc : (n.exponentText ++ rest).head? = some c) : c.isDigit = false ∧ c ≠ '.' := by
  unfold exponentText at hc
  cases hexponent : n.exponent with
  | none =>
      rw [hexponent] at hc
      exact ⟨(hrest c hc).1, (hrest c hc).2.1⟩
  | some exponent =>
      rw [hexponent] at hc
      cases hc
      exact ⟨by decide, by decide⟩

/-- What comes after the whole digits is no digit. -/
theorem fractionText_head (hrest : Stops rest) (c : Char)
    (hc : (n.fractionText ++ (n.exponentText ++ rest)).head? = some c) : c.isDigit = false := by
  unfold fractionText at hc
  cases hfraction : n.fraction with
  | none =>
      rw [hfraction] at hc
      exact (exponentText_head hrest c hc).1
  | some digits =>
      rw [hfraction] at hc
      cases hc
      decide

end Numeral

namespace Json

variable {n : Numeral} {cs rest : List Char}

/-- A minus sign comes before the other parts. -/
theorem numeral?_minus (cs : List Char) : numeral? ('-' :: cs) = unsigned? true cs := rfl

/-- A numeral without a minus sign is read as it is. -/
theorem numeral?_of_head (h : cs.head? ≠ some '-') : numeral? cs = unsigned? false cs := by
  rw [numeral?]
  rintro rest rfl
  exact h rfl

/-- The parts of a regular numeral behind its sign are read back. -/
theorem unsigned?_append (h : n.Regular) (hrest : Numeral.Stops rest) (negative : Bool) :
    unsigned? negative (n.whole ++ (n.fractionText ++ (n.exponentText ++ rest))) =
      some ({ n with negative }, rest) := by
  have hwhole := whole?_append h.whole h.zero (Numeral.fractionText_head (n := n) hrest)
  have hfraction := Numeral.fraction?_append h (Numeral.exponentText_head (n := n) hrest)
  have hexponent := Numeral.exponent?_append h hrest
  simp only [unsigned?, hwhole, hfraction, hexponent, Option.bind_eq_bind, Option.bind_some,
    Option.pure_def]

/-- A numeral is read back, unless what follows could belong to it. -/
theorem numeral?_compact (h : n.Regular) (hrest : Numeral.Stops rest) :
    numeral? (n.compact ++ rest) = some (n, rest) := by
  rw [Numeral.compact_append]
  obtain ⟨negative, whole, fraction, exponent⟩ := n
  cases negative with
  | true => exact (numeral?_minus _).trans (unsigned?_append h hrest true)
  | false =>
      refine (numeral?_of_head ?_).trans (unsigned?_append h hrest false)
      exact h.whole.head_ne (by decide)

end Json

end EventStaging
