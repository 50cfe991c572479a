import EventStaging.Text.Basic
import Mathlib.Data.List.TakeWhile

/-!
# What trimming leaves

A text is trimmed to the one part of it that neither begins nor ends with a blank and has nothing
but blanks on both sides (`Text.trims_iff`).
-/

namespace EventStaging.Text

variable {cs core before : List Char}

/-- The core of a list of characters has blanks on both sides, and none at its own ends. -/
structure Trims (cs core : List Char) : Prop where
  split : ∃ before after, cs = before ++ core ++ after ∧
    (∀ c ∈ before, isBlank c) ∧ ∀ c ∈ after, isBlank c
  head : ∀ c, core.head? = some c → isBlank c = false
  last : ∀ c, core.getLast? = some c → isBlank c = false

/-- Dropping blanks stops at the first other character. -/
theorem dropWhile_append (hbefore : ∀ c ∈ before, isBlank c)
    (hhead : ∀ c, core.head? = some c → isBlank c = false) :
    (before ++ core).dropWhile isBlank = core := by
  rw [List.dropWhile_append_of_pos hbefore, List.dropWhile_eq_self_iff]
  intro hpos
  rw [hhead core[0] (List.head?_eq_getElem? ▸ List.getElem?_eq_getElem hpos)]
  exact Bool.false_ne_true

/-- There is one way only to trim a list. -/
theorem trimChars_of_trims (h : Trims cs core) : trimChars cs = core := by
  obtain ⟨⟨before, after, rfl, hbefore, hafter⟩, hhead, hlast⟩ := h
  have hright : (core ++ after).reverse.dropWhile isBlank = core.reverse := by
    rw [List.reverse_append]
    refine dropWhile_append (fun c hc ↦ hafter c (List.mem_reverse.mp hc)) fun c hc ↦ hlast c ?_
    rwa [List.head?_reverse] at hc
  rw [trimChars, List.append_assoc]
  cases core with
  | nil =>
      rw [List.dropWhile_append_of_pos hbefore, List.nil_append, List.dropWhile_eq_nil_iff.mpr hafter]
      rfl
  | cons c rest =>
      have hleft : (before ++ (c :: rest ++ after)).dropWhile isBlank = c :: rest ++ after :=
        dropWhile_append hbefore hhead
      rw [hleft, hright, List.reverse_reverse]

/-- Trimming takes the blanks off both ends, and nothing else. -/
theorem trims_trimChars (cs : List Char) : Trims cs (trimChars cs) := by
  let rest := cs.dropWhile isBlank
  -- Trimming drops from the front, and then from the front of what is left, reversed.
  have hrest : trimChars cs ++ (rest.reverse.takeWhile isBlank).reverse = rest := by
    rw [trimChars, ← List.reverse_append, List.takeWhile_append_dropWhile, List.reverse_reverse]
  constructor
  case split =>
    refine ⟨cs.takeWhile isBlank, (rest.reverse.takeWhile isBlank).reverse, ?_,
      fun c hc ↦ List.mem_takeWhile_imp hc,
      fun c hc ↦ List.mem_takeWhile_imp (List.mem_reverse.mp hc)⟩
    rw [List.append_assoc, hrest, List.takeWhile_append_dropWhile]
  case head =>
    intro c hc
    have hfirst := List.head?_dropWhile_not isBlank cs
    have hhead : (cs.dropWhile isBlank).head? = some c := by
      show rest.head? = some c
      rw [← hrest, List.head?_append, hc]
      rfl
    rwa [hhead] at hfirst
  case last =>
    intro c hc
    have hlast := List.head?_dropWhile_not isBlank rest.reverse
    rw [trimChars, List.getLast?_reverse] at hc
    rwa [hc] at hlast

/-- Trimming leaves the core, and nothing else is one. -/
theorem trims_iff : Trims cs core ↔ trimChars cs = core :=
  ⟨trimChars_of_trims, fun h ↦ h ▸ trims_trimChars cs⟩

end EventStaging.Text
