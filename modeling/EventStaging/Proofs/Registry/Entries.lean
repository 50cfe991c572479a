import EventStaging.Registry
import Mathlib.Data.List.Basic

/-!
# Entries of a registry

A registry gives out ascending identifiers, so its entries stay in ascending order below the
identifier that comes next (`Registry.WellFormed`). Then looking up is membership
(`get?_eq_some_iff`), the size counts the numbers that name something (`size_eq_countP`), and an
identifier that was given out and names nothing any more is stale for good (`Registry.Stale`).
-/

namespace EventStaging

namespace Registry

variable {α : Type} {registry : Registry α} {id other : EngineId} {value : α}

/-! ## Looking up -/

/-- A number names what its identifier is registered for. -/
theorem resolve_eq_ok_iff {raw : Nat} :
    registry.resolve raw = .ok value ↔ ∃ id, id.raw = raw ∧ registry.get? id = some value := by
  unfold resolve EngineId.ofRaw?
  by_cases hraw : 0 < raw
  · rw [dif_pos hraw, Option.bind_some]
    constructor
    · intro h
      cases hget : registry.get? ⟨raw, hraw⟩ with
      | none => simp [hget] at h
      | some found =>
          rw [hget] at h
          exact ⟨⟨raw, hraw⟩, rfl, hget.trans (congrArg some (Except.ok.inj h))⟩
    · rintro ⟨id, rfl, hget⟩
      rw [show (⟨id.raw, hraw⟩ : EngineId) = id from rfl, hget]
  · rw [dif_neg hraw]
    constructor
    · intro h
      cases h
    · rintro ⟨id, rfl, -⟩
      exact absurd id.raw_pos hraw

/-- A number that names nothing is unknown. -/
theorem resolve_eq_error_iff {raw : Nat} {error : RegistryError} :
    registry.resolve raw = .error error ↔
      error = .unknown raw ∧ ∀ value, registry.resolve raw ≠ .ok value := by
  cases h : registry.resolve raw with
  | ok value => simp
  | error found =>
      have hfound : found = .unknown raw := by
        unfold resolve at h
        split at h <;> cases h
        rfl
      simp [hfound, eq_comm]

/-- An identifier names what its number resolves to. -/
theorem get?_eq_toOption_resolve (registry : Registry α) (id : EngineId) :
    registry.get? id = (registry.resolve id.raw).toOption := by
  unfold resolve
  rw [EngineId.ofRaw?_raw, Option.bind_some]
  cases registry.get? id <;> rfl

/-- What is put in is found under the identifier that was given out. -/
theorem get?_insert_self (h : registry.get? registry.next = none) :
    (registry.insert value).2.get? registry.next = some value := by
  show (registry.entries ++ [(registry.next, value)]).lookup registry.next = _
  rw [List.lookup_append, show registry.entries.lookup registry.next = none from h]
  simp

/-- What is put in is found under no other identifier. -/
theorem get?_insert_of_ne (hne : id ≠ registry.next) :
    (registry.insert value).2.get? id = registry.get? id := by
  show (registry.entries ++ [(registry.next, value)]).lookup id = registry.entries.lookup id
  rw [List.lookup_append]
  simp [List.lookup_cons, beq_false_of_ne hne]

/-- What is taken out is not found any more. -/
theorem get?_erase_self (registry : Registry α) (id : EngineId) :
    (registry.erase id).get? id = none := by
  show (registry.entries.filter _).lookup id = none
  rw [List.lookup_eq_none_iff]
  intro entry hmem
  have hne : entry.1 ≠ id := of_decide_eq_true (List.mem_filter.mp hmem).2
  exact bne_iff_ne.mpr hne.symm

/-- Taking one identifier out leaves the others where they were. -/
theorem get?_erase_of_ne (hne : other ≠ id) :
    (registry.erase id).get? other = registry.get? other := by
  show (registry.entries.filter _).lookup other = registry.entries.lookup other
  induction registry.entries with
  | nil => rfl
  | cons entry entries ih =>
      obtain ⟨key, value⟩ := entry
      by_cases hid : key = id
      · rw [List.filter_cons_of_neg (by simpa using hid), ih]
        simp [List.lookup_cons, hid, beq_false_of_ne hne]
      · rw [List.filter_cons_of_pos (by simpa using hid)]
        simp only [List.lookup_cons]
        split
        · rfl
        · exact ih

/-- Taking out an identifier that names nothing changes nothing. -/
theorem erase_eq_self (h : registry.get? id = none) : registry.erase id = registry := by
  have hentries : registry.entries.filter (fun entry ↦ entry.1 ≠ id) = registry.entries := by
    rw [List.filter_eq_self]
    intro entry hmem
    have hne : id ≠ entry.1 := bne_iff_ne.mp (List.lookup_eq_none_iff.mp h entry hmem)
    exact decide_eq_true hne.symm
  exact congrArg (Registry.mk registry.next) hentries

/-- Taking out does not bring an identifier back. -/
@[simp] theorem next_erase (registry : Registry α) (id : EngineId) :
    (registry.erase id).next = registry.next := rfl

/-- Taking everything out does not bring an identifier back. -/
@[simp] theorem next_drain (registry : Registry α) : registry.drain.next = registry.next := rfl

/-- Nothing is found after everything was taken out. -/
@[simp] theorem get?_drain (registry : Registry α) (id : EngineId) :
    registry.drain.get? id = none := rfl

/-! ## Ascending entries -/

/-- The entries are in ascending order of their identifiers, and the next identifier is beyond
them. -/
structure WellFormed (registry : Registry α) : Prop where
  ascending : registry.entries.Pairwise fun one other ↦ one.1.raw < other.1.raw
  below : ∀ entry ∈ registry.entries, entry.1.raw < registry.next.raw

namespace WellFormed

/-- An empty registry is well-formed. -/
theorem empty : ({} : Registry α).WellFormed where
  ascending := .nil
  below := by
    intro entry hmem
    cases hmem

/-- A registry stays well-formed when something is put in. -/
theorem insert (h : registry.WellFormed) (value : α) :
    (registry.insert value).2.WellFormed where
  ascending := by
    show (registry.entries ++ [(registry.next, value)]).Pairwise _
    rw [List.pairwise_append]
    refine ⟨h.ascending, List.pairwise_singleton _ _, ?_⟩
    intro entry hmem last hlast
    rw [List.mem_singleton.mp hlast]
    exact h.below entry hmem
  below := by
    intro entry hmem
    show entry.1.raw < registry.next.raw + 1
    rcases List.mem_append.mp hmem with hmem | hmem
    · exact Nat.lt_succ_of_lt (h.below entry hmem)
    · rw [List.mem_singleton.mp hmem]
      exact Nat.lt_succ_self _

/-- A registry stays well-formed when something is taken out. -/
theorem erase (h : registry.WellFormed) (id : EngineId) : (registry.erase id).WellFormed where
  ascending := h.ascending.filter _
  below := fun entry hmem ↦ h.below entry (List.mem_of_mem_filter hmem)

/-- A registry is well-formed after everything was taken out. -/
theorem drain (registry : Registry α) : registry.drain.WellFormed where
  ascending := .nil
  below := by
    intro entry hmem
    cases hmem

/-- In a well-formed registry an identifier is found exactly if it has an entry. -/
theorem get?_eq_some_iff (h : registry.WellFormed) :
    registry.get? id = some value ↔ (id, value) ∈ registry.entries := by
  show registry.entries.lookup id = some value ↔ _
  rw [List.lookup_eq_some_iff]
  constructor
  · rintro ⟨earlier, later, hentries, -⟩
    rw [hentries]
    exact List.mem_append_right _ List.mem_cons_self
  · intro hmem
    obtain ⟨earlier, later, hentries⟩ := List.append_of_mem hmem
    refine ⟨earlier, later, hentries, ?_⟩
    intro entry hearlier
    -- An entry further to the front has a smaller identifier.
    have hascending := h.ascending
    rw [hentries, List.pairwise_append] at hascending
    have hlt := hascending.2.2 entry hearlier (id, value) List.mem_cons_self
    have hne : id ≠ entry.1 := by
      rintro rfl
      exact Nat.lt_irrefl _ hlt
    simpa using hne

/-- No identifier from the next one on names anything. -/
theorem get?_eq_none (h : registry.WellFormed) (hle : registry.next.raw ≤ id.raw) :
    registry.get? id = none := by
  cases hget : registry.get? id with
  | none => rfl
  | some value =>
      have hlt := h.below (id, value) (h.get?_eq_some_iff.mp hget)
      exact absurd hlt (Nat.not_lt.mpr hle)

/-- The size is the number of numbers given out that name something. -/
theorem size_eq_countP (h : registry.WellFormed) :
    registry.size =
      (List.range' 1 (registry.next.raw - 1)).countP fun raw ↦ (registry.resolve raw).isOk := by
  have hraws : (registry.entries.map fun entry ↦ entry.1.raw).Nodup := by
    rw [List.nodup_iff_pairwise_ne, List.pairwise_map]
    exact h.ascending.imp fun hlt ↦ Nat.ne_of_lt hlt
  -- Every entry's number is below the next one, so the entries are those numbers that resolve.
  have hperm : (registry.entries.map fun entry ↦ entry.1.raw).Perm
      ((List.range' 1 (registry.next.raw - 1)).filter fun raw ↦ (registry.resolve raw).isOk) := by
    rw [List.perm_ext_iff_of_nodup hraws ((List.nodup_range' ..).filter _)]
    intro raw
    rw [List.mem_map, List.mem_filter, List.mem_range'_1]
    constructor
    · rintro ⟨⟨id, value⟩, hmem, rfl⟩
      have hlt := h.below _ hmem
      have hpos := id.raw_pos
      have hget := h.get?_eq_some_iff.mpr hmem
      have hresolve := resolve_eq_ok_iff.mpr ⟨id, rfl, hget⟩
      refine ⟨by simp only at hlt ⊢; omega, ?_⟩
      rw [hresolve]
      rfl
    · rintro ⟨-, hok⟩
      cases hresolve : registry.resolve raw with
      | error error =>
          rw [hresolve] at hok
          cases hok
      | ok value =>
          obtain ⟨id, rfl, hget⟩ := resolve_eq_ok_iff.mp hresolve
          exact ⟨(id, value), h.get?_eq_some_iff.mp hget, rfl⟩
  rw [List.countP_eq_length_filter, ← hperm.length_eq, List.length_map]
  rfl

end WellFormed

/-! ## Stale identifiers -/

/-- An identifier that was given out and names nothing any more. -/
structure Stale (registry : Registry α) (id : EngineId) : Prop where
  issued : id.raw < registry.next.raw
  get?_eq : registry.get? id = none

namespace Stale

/-- A stale identifier is not given out again. -/
theorem insert (h : registry.Stale id) (value : α) : (registry.insert value).2.Stale id where
  issued := Nat.lt_succ_of_lt h.issued
  get?_eq := by
    rw [get?_insert_of_ne, h.get?_eq]
    rintro rfl
    exact Nat.lt_irrefl _ h.issued

/-- A stale identifier stays so when something is taken out. -/
theorem erase (h : registry.Stale id) (other : EngineId) : (registry.erase other).Stale id where
  issued := h.issued
  get?_eq := by
    by_cases hne : id = other
    · rw [hne, get?_erase_self]
    · rw [get?_erase_of_ne hne, h.get?_eq]

/-- A stale identifier stays so when everything is taken out. -/
theorem drain (h : registry.Stale id) : registry.drain.Stale id := ⟨h.issued, rfl⟩

end Stale

end Registry

end EventStaging
