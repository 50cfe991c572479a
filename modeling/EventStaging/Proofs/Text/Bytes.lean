import Mathlib.Data.List.Lex
import Mathlib.Data.String.Basic

/-!
# The bytes of a text

The order of texts by their code points is the order by the bytes of their UTF-8 form
(`Text.lt_iff_bytes_lt`): the bytes of two different code points differ at a place that both have,
and at the first such place the lower code point has the lower byte (`Text.below_encode`).
-/

namespace EventStaging

namespace Text

/-- The bytes of a text in UTF-8. -/
def bytes (text : String) : List UInt8 := text.toUTF8.data.toList

/-- The bytes of a text are those of its characters, one after the other. -/
theorem bytes_eq (text : String) : bytes text = text.toList.flatMap String.utf8EncodeChar := by
  have hbytes : text.toUTF8 = (text.toList.flatMap String.utf8EncodeChar).toByteArray :=
    String.utf8Encode_toList.symm
  rw [bytes, hbytes, List.toList_data_toByteArray]

/-- Two lists of bytes differ at a place that both have, and at the first such place the first list
has the lower byte. -/
def Below : List UInt8 → List UInt8 → Prop
  | a :: first, b :: second => a < b ∨ a = b ∧ Below first second
  | _, _ => False

/-- What follows the bytes that settle the order does not matter. -/
theorem Below.append_lt {first second : List UInt8} (h : Below first second)
    (afterFirst afterSecond : List UInt8) : first ++ afterFirst < second ++ afterSecond := by
  induction first generalizing second with
  | nil => exact h.elim
  | cons a first ih =>
      cases second with
      | nil => exact h.elim
      | cons b second =>
          rw [List.cons_append, List.cons_append, List.cons_lt_cons_iff]
          exact h.imp_right fun ⟨heq, hrest⟩ ↦ ⟨heq, ih hrest⟩

/-- Every code point lies in the range of Unicode. -/
theorem toNat_val_lt (c : Char) : c.val.toNat < 1114112 := by
  have hvalid := c.valid
  simp only [UInt32.isValidChar, Nat.isValidChar] at hvalid
  omega

/-- A lower code point has the lower bytes. -/
theorem below_encode {c d : Char} (h : c < d) :
    Below (String.utf8EncodeChar c) (String.utf8EncodeChar d) := by
  have hlt : c.val.toNat < d.val.toNat := h
  have hc := toNat_val_lt c
  have hd := toNat_val_lt d
  unfold String.utf8EncodeChar
  generalize c.val.toNat = m at hlt hc
  generalize d.val.toNat = n at hlt hd
  -- Between two lengths the leading bytes decide; within one length the bytes are the digits of
  -- the code point to the base 64.
  dsimp only
  split_ifs <;>
    simp (disch := omega) only [Below, and_false, or_false, UInt8.lt_iff_toNat_lt,
      ← UInt8.toNat_inj, UInt8.toNat_ofNat', Nat.mod_eq_of_lt] <;>
    omega

/-- Lists of characters and their bytes are in the same order. -/
theorem flatMap_encode_lt {first second : List Char} (h : first < second) :
    first.flatMap String.utf8EncodeChar < second.flatMap String.utf8EncodeChar := by
  induction h with
  | nil =>
      rename_i d second
      rw [List.flatMap_nil, List.flatMap_cons]
      obtain ⟨head, rest, heq⟩ := List.exists_cons_of_ne_nil (String.utf8EncodeChar_ne_nil (c := d))
      rw [heq, List.cons_append]
      exact List.nil_lt_cons head _
  | rel h => exact (below_encode h).append_lt _ _
  | cons _ ih => exact List.append_left_lt ih

/-- Texts are in the order of their bytes. -/
theorem lt_iff_bytes_lt (first second : String) : first < second ↔ bytes first < bytes second := by
  rw [bytes_eq, bytes_eq, String.lt_iff_toList_lt]
  refine ⟨flatMap_encode_lt, fun h ↦ ?_⟩
  by_contra hnot
  rcases eq_or_lt_of_not_gt hnot with heq | hgt
  · exact List.lt_irrefl _ (heq ▸ h)
  · exact List.lt_asymm h (flatMap_encode_lt hgt)

end Text

end EventStaging
