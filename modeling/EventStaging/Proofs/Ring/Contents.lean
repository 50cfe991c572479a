import EventStaging.Ring.Basic
import Mathlib.Data.List.Basic

/-!
# What a ring holds

`Holds ring items` says that the slots of a ring, read from the head on, are the given items and
then empty slots. The operations on rings are followed through it: `Holds.push_ok`, `Holds.pop` and
`Holds.clear` say which items each of them leaves, and `Holds.toList_eq` that a ring holds what
`Ring.toList` reads from it.
-/

namespace EventStaging.Ring

variable {α : Type} {ring : Ring α} {item : α} {items : List α} {grants : Nat → Bool}

/-! ## Places -/

/-- Counting places from the head wraps around at most once. -/
theorem slotAt_eq {i : Nat} (hhead : ring.head < ring.slots.size) (hi : i < ring.slots.size) :
    ring.slotAt i = if ring.head + i < ring.slots.size then ring.head + i
      else ring.head + i - ring.slots.size := by
  unfold slotAt
  split
  · exact Nat.mod_eq_of_lt ‹_›
  · rw [Nat.mod_eq_sub_mod (by omega)]
    exact Nat.mod_eq_of_lt (by omega)

/-- Every place from the head on is a slot of the ring. -/
theorem slotAt_lt {i : Nat} (hhead : ring.head < ring.slots.size) :
    ring.slotAt i < ring.slots.size :=
  Nat.mod_lt _ (by omega)

/-- Different places are different slots. -/
theorem slotAt_injective {i j : Nat} (hhead : ring.head < ring.slots.size)
    (hi : i < ring.slots.size) (hj : j < ring.slots.size) (h : ring.slotAt i = ring.slotAt j) :
    i = j := by
  rw [slotAt_eq hhead hi, slotAt_eq hhead hj] at h
  split at h <;> split at h <;> omega

/-- Every slot is at some place. -/
theorem exists_slotAt {j : Nat} (hhead : ring.head < ring.slots.size) (hj : j < ring.slots.size) :
    ∃ i, i < ring.slots.size ∧ ring.slotAt i = j := by
  by_cases hle : ring.head ≤ j
  · refine ⟨j - ring.head, by omega, ?_⟩
    rw [slotAt_eq hhead (by omega)]
    split <;> omega
  · refine ⟨j + ring.slots.size - ring.head, by omega, ?_⟩
    rw [slotAt_eq hhead (by omega)]
    split <;> omega

/-- The place of the oldest item is the head. -/
theorem slotAt_zero (hhead : ring.head < ring.slots.size) : ring.slotAt 0 = ring.head :=
  Nat.mod_eq_of_lt hhead

/-- Moving the head on shifts every place by one. -/
theorem slotAt_advance (i : Nat) : ring.advance.slotAt i = ring.slotAt (i + 1) := by
  simp only [slotAt, advance, Array.size_setIfInBounds, Nat.mod_add_mod]
  congr 1
  omega

/-! ## Reading after a change -/

@[simp] theorem head_place (ring : Ring α) (item : α) : (ring.place item).head = ring.head := rfl

@[simp] theorem bound_place (ring : Ring α) (item : α) : (ring.place item).bound = ring.bound := rfl

@[simp] theorem bound_advance (ring : Ring α) : ring.advance.bound = ring.bound := rfl

/-- An item goes into one of the slots that are there. -/
@[simp] theorem size_place (ring : Ring α) (item : α) :
    (ring.place item).slots.size = ring.slots.size :=
  Array.size_setIfInBounds

@[simp] theorem size_advance (ring : Ring α) : ring.advance.slots.size = ring.slots.size :=
  Array.size_setIfInBounds

/-- Growth makes as many slots as the ring reckons for it. -/
@[simp] theorem size_grow (ring : Ring α) : ring.grow.slots.size = ring.grownSlots :=
  Array.size_ofFn

/-- Taking an item out changes no number of slots. -/
theorem size_pop (ring : Ring α) : ring.pop.2.slots.size = ring.slots.size := by
  unfold pop settle
  split
  · rfl
  · split <;> exact size_advance ring

/-- Taking an item out does not change the bound. -/
theorem bound_pop (ring : Ring α) : ring.pop.2.bound = ring.bound := by
  unfold pop settle
  split
  · rfl
  · split <;> rfl

/-- When an item is taken out, one less is left. -/
theorem length_of_pop_some {rest : Ring α} (hpop : ring.pop = (some item, rest)) :
    ring.length = rest.length + 1 := by
  have hlength : rest.length = ring.length - 1 := by
    rw [← ring.length_pop, hpop]
  have hne : ring.length ≠ 0 := by
    intro hzero
    rw [pop, if_pos hzero] at hpop
    cases hpop
  omega

theorem size_advanceBy (n : Nat) (ring : Ring α) :
    (advanceBy n ring).slots.size = ring.slots.size := by
  induction n generalizing ring with
  | zero => rfl
  | succ n ih => exact (ih ring.advance).trans (size_advance ring)

theorem bound_advanceBy (n : Nat) (ring : Ring α) : (advanceBy n ring).bound = ring.bound := by
  induction n generalizing ring with
  | zero => rfl
  | succ n ih => exact ih ring.advance

/-- Clearing changes no number of slots. -/
theorem size_clear (ring : Ring α) : ring.clear.2.slots.size = ring.slots.size :=
  size_advanceBy ring.length ring

/-- Clearing does not change the bound. -/
theorem bound_clear (ring : Ring α) : ring.clear.2.bound = ring.bound :=
  bound_advanceBy ring.length ring

/-- A push does not change the bound, whether or not the ring grows. -/
theorem bound_push (grants : Nat → Bool) (ring : Ring α) (item : α) :
    (ring.push grants item).2.bound = ring.bound := by
  unfold push
  split
  · rfl
  · split
    · split <;> rfl
    · rfl

/-- A ring that is short of storage is not full but has no free slot. -/
theorem of_push_noStorage {other : α} {bytes : Nat}
    (h : (ring.push grants item).1 = .error (.noStorage other bytes)) :
    ¬ ring.isFull ∧ ring.length = ring.slots.size := by
  unfold push at h
  split at h
  · cases h
  · split at h
    · exact ⟨‹_›, ‹_›⟩
    · cases h

/-- A ring without a free slot takes an item after it has grown. -/
theorem push_of_canGrow (hfull : ¬ ring.isFull) (hlen : ring.length = ring.slots.size)
    (hcan : ring.canGrow grants) (item : α) :
    ring.push grants item = (.ok (), ring.grow.place item) := by
  rw [push, if_neg hfull, if_pos hlen, if_pos hcan]

/-- An item that is placed comes after those that were there, which stay where they were. -/
theorem get?_place {i : Nat} (hhead : ring.head < ring.slots.size)
    (hroom : ring.length < ring.slots.size) (hi : i < ring.slots.size) :
    (ring.place item).get? i = if i = ring.length then some item else ring.get? i := by
  have hslot : (ring.place item).slotAt i = ring.slotAt i := by simp [slotAt, place]
  simp only [get?, hslot]
  simp only [place, Array.getElem?_setIfInBounds]
  by_cases heq : i = ring.length
  · simp [heq, slotAt_lt hhead]
  · have hne : ring.slotAt ring.length ≠ ring.slotAt i := fun h ↦
      heq (slotAt_injective hhead hroom hi h).symm
    simp [heq, hne]

/-- When the head moves on, every item is one place nearer to it, and the slot that becomes the last
is empty. -/
theorem get?_advance {i : Nat} (hhead : ring.head < ring.slots.size) (hi : i < ring.slots.size) :
    ring.advance.get? i = if i + 1 < ring.slots.size then ring.get? (i + 1) else none := by
  simp only [get?, slotAt_advance]
  simp only [advance, Array.getElem?_setIfInBounds]
  by_cases hlast : i + 1 < ring.slots.size
  · have hne : ring.head ≠ ring.slotAt (i + 1) := by
      rw [slotAt_eq hhead hlast]
      split <;> omega
    simp [hlast, hne]
  · -- The last place after the head becomes that of the slot just emptied.
    have heq : ring.head = ring.slotAt (i + 1) := by
      have hi' : i + 1 = ring.slots.size := by omega
      rw [slotAt, hi', Nat.add_mod_right, Nat.mod_eq_of_lt hhead]
    simp [hlast, ← heq, hhead]

/-- Growth keeps every item in its place, counted from the head. The new slots are empty. -/
theorem get?_grow {i : Nat} (hi : i < ring.grownSlots) :
    ring.grow.get? i = if i < ring.length then ring.get? i else none := by
  have hslot : ring.grow.slotAt i = i := by
    simp [slotAt, grow, Nat.mod_eq_of_lt hi]
  rw [get?, hslot]
  simp [grow, hi]

/-! ## Taking many items -/

/-- Takes items out one by one, at most `limit` of them, and gives them in that order. -/
def popUpTo : Nat → Ring α → List α × Ring α
  | 0, ring => ([], ring)
  | limit + 1, ring =>
    match ring.pop with
    | (none, ring) => ([], ring)
    | (some item, ring) => (popUpTo limit ring).map (item :: ·) id

/-- Taking several items out does not change the bound. -/
theorem bound_popUpTo (limit : Nat) (ring : Ring α) :
    (popUpTo limit ring).2.bound = ring.bound := by
  induction limit generalizing ring with
  | zero => rfl
  | succ limit ih =>
      have hbound := bound_pop ring
      unfold popUpTo
      split
      · rename_i hpop
        rwa [hpop] at hbound
      · rename_i hpop
        rw [hpop] at hbound
        exact (ih _).trans hbound

/-- The items in the `n` slots that `advanceBy n` empties, in that order. -/
def passedBy : Nat → Ring α → List α
  | 0, _ => []
  | n + 1, ring => (ring.slots[ring.head]?).join.toList ++ passedBy n ring.advance

/-! ## The items held -/

/-- A ring holds a list of items: its slots, from the head on, are these items and then empty
slots, and there are no more slots than its bound and the storage allow. -/
structure Holds (ring : Ring α) (items : List α) : Prop where
  head_lt : ring.head < ring.slots.size
  length_eq : ring.length = items.length
  length_le : items.length ≤ ring.slots.size
  get?_eq : ∀ i, i < ring.slots.size → ring.get? i = items[i]?
  size_le_bound : ∀ max, ring.bound = some max → ring.slots.size ≤ max
  bytes_le : ring.slots.size * slotBytes ≤ storageMax

/-- Reading a list at each of its places gives the list. -/
theorem filterMap_getElem?_range (items : List α) :
    ((List.range items.length).filterMap fun i ↦ items[i]?) = items := by
  induction items with
  | nil => rfl
  | cons item items ih =>
      rw [List.length_cons, List.range_succ_eq_map, List.filterMap_cons, List.filterMap_map]
      simpa [Function.comp_def] using ih

namespace Holds

/-- A ring holds what is read from it. -/
theorem toList_eq (h : ring.Holds items) : ring.toList = items := by
  have hread : ∀ i ∈ List.range items.length, ring.get? i = items[i]? := by
    intro i hi
    exact h.get?_eq i (Nat.lt_of_lt_of_le (List.mem_range.mp hi) h.length_le)
  rw [toList, h.length_eq, List.filterMap_congr hread, filterMap_getElem?_range]

/-- A ring is empty exactly if it holds nothing. -/
theorem isEmpty_iff (h : ring.Holds items) : ring.isEmpty ↔ items = [] := by
  rw [isEmpty, h.length_eq, beq_iff_eq, List.length_eq_zero_iff]

/-- A ring never holds more than its bound allows. -/
theorem length_le_bound (h : ring.Holds items) {max : Nat} (hbound : ring.bound = some max) :
    items.length ≤ max :=
  Nat.le_trans h.length_le (h.size_le_bound max hbound)

/-- A ring never holds more than its bound, so a full one holds exactly as many items. -/
theorem isFull_iff (h : ring.Holds items) : ring.isFull ↔ ring.bound = some items.length := by
  unfold isFull
  cases hbound : ring.bound with
  | none => simp
  | some max =>
      have hle := h.length_le_bound hbound
      simp only [decide_eq_true_eq, h.length_eq, Option.some.injEq]
      omega

/-- The slots that hold an item are as many as the items. -/
theorem all_isSome_iff (h : ring.Holds items) :
    (∀ slot ∈ ring.slots, slot.isSome) ↔ items.length = ring.slots.size := by
  constructor
  · intro hall
    refine Nat.le_antisymm h.length_le (Nat.le_of_not_lt fun hlt ↦ ?_)
    -- The place after the last item would be a slot without one.
    have hslot : ring.slotAt items.length < ring.slots.size := slotAt_lt h.head_lt
    have hnone := h.get?_eq items.length hlt
    have hsome := hall _ (Array.getElem_mem hslot)
    simp only [get?, Array.getElem?_eq_getElem hslot, Option.join_some] at hnone
    rw [hnone] at hsome
    simp at hsome
  · intro hlen slot hmem
    obtain ⟨j, hj, rfl⟩ := Array.getElem_of_mem hmem
    obtain ⟨i, hi, rfl⟩ := exists_slotAt h.head_lt hj
    have hread := h.get?_eq i hi
    simp only [get?, Array.getElem?_eq_getElem hj, Option.join_some] at hread
    rw [hread]
    simp [hlen, hi]

/-! ## Growth -/

/-- The slots that a ring grows to are never cut short by the size of a word: a ring whose slots
fit into storage can be doubled. -/
theorem grownSlots_eq (h : ring.Holds items) :
    ring.grownSlots = match ring.bound with
      | none => 2 * ring.slots.size
      | some max => min (2 * ring.slots.size) max := by
  have hhead := h.head_lt
  have hbytes := h.bytes_le
  have hdouble : max 1 (min (2 * ring.slots.size) wordMax) = 2 * ring.slots.size := by
    unfold slotBytes storageMax at hbytes
    unfold wordMax
    omega
  cases hbound : ring.bound <;> simp only [grownSlots, hbound, hdouble]

/-- The bytes that a ring asks for when it grows are not cut short by the end of a word. -/
theorem growthBytes_eq (h : ring.Holds items) :
    ring.growthBytes = ring.grownSlots * slotBytes := by
  have hbytes := h.bytes_le
  have hle : ring.grownSlots ≤ 2 * ring.slots.size := by
    rw [h.grownSlots_eq]
    split <;> omega
  unfold slotBytes storageMax at hbytes
  unfold growthBytes slotBytes wordMax
  omega

/-- A ring that is not full grows by at least one slot. -/
theorem size_lt_grownSlots (h : ring.Holds items) (hfull : ring.bound ≠ some items.length)
    (hlen : items.length = ring.slots.size) : ring.slots.size < ring.grownSlots := by
  have hhead := h.head_lt
  rw [h.grownSlots_eq]
  cases hbound : ring.bound with
  | none =>
      show ring.slots.size < 2 * ring.slots.size
      omega
  | some max =>
      have hle := h.size_le_bound max hbound
      have hne : items.length ≠ max := fun heq ↦ hfull (heq ▸ hbound)
      show ring.slots.size < min (2 * ring.slots.size) max
      omega

/-! ## The operations -/

/-- An empty ring holds nothing. -/
theorem empty (max : Nat) : (Ring.empty max : Ring α).Holds [] := by
  have hsize : (Ring.empty max : Ring α).slots.size =
      if max = 0 then initialSlots else min max initialSlots := by
    by_cases hmax : max = 0 <;> simp [Ring.empty, hmax]
  constructor
  case head_lt =>
    rw [hsize]
    show 0 < _
    split <;> simp only [initialSlots] <;> omega
  case length_eq => rfl
  case length_le => exact Nat.zero_le _
  case get?_eq =>
    intro i hi
    have hslots : (Ring.empty max : Ring α).slots[(Ring.empty max : Ring α).slotAt i]? =
        some none := by
      rw [Array.getElem?_eq_getElem (slotAt_lt (Nat.lt_of_le_of_lt (Nat.zero_le _) hi))]
      simp [Ring.empty]
    rw [get?, hslots]
    rfl
  case size_le_bound =>
    intro bound hbound
    rw [hsize]
    by_cases hmax : max = 0
    · simp [hmax] at hbound
    · simp only [bound_empty, hmax, if_false, Option.some.injEq] at hbound
      simp only [hmax, if_false]
      omega
  case bytes_le =>
    rw [hsize]
    unfold slotBytes storageMax initialSlots
    split <;> omega

/-- An item that is placed is held last. -/
theorem place (h : ring.Holds items) (hroom : items.length < ring.slots.size) :
    (ring.place item).Holds (items ++ [item]) where
  head_lt := by simpa using h.head_lt
  length_eq := by simp [h.length_eq]
  length_le := by
    rw [size_place, List.length_append]
    exact hroom
  get?_eq i hi := by
    -- The item is read at its own place; the places before and behind it are as they were.
    rw [size_place] at hi
    rw [get?_place h.head_lt (h.length_eq ▸ hroom) hi, h.length_eq]
    by_cases heq : i = items.length
    · simp [heq]
    · rw [if_neg heq, h.get?_eq i hi, List.getElem?_append]
      split
      · rfl
      · rw [List.getElem?_eq_none (by omega), List.getElem?_eq_none (by simp; omega)]
  size_le_bound := by simpa using h.size_le_bound
  bytes_le := by simpa using h.bytes_le

/-- Growth keeps what is held. -/
theorem grow (h : ring.Holds items) (hle : ring.slots.size ≤ ring.grownSlots)
    (hcan : ring.canGrow grants) : ring.grow.Holds items where
  head_lt := by
    have hhead := h.head_lt
    rw [size_grow]
    show 0 < ring.grownSlots
    omega
  length_eq := h.length_eq
  length_le := by
    rw [size_grow]
    exact Nat.le_trans h.length_le hle
  get?_eq i hi := by
    rw [size_grow] at hi
    rw [get?_grow hi, h.length_eq]
    split
    · exact h.get?_eq i (Nat.lt_of_lt_of_le ‹_› h.length_le)
    · rw [List.getElem?_eq_none (by omega)]
  size_le_bound max hbound := by
    have hbound' : ring.bound = some max := hbound
    rw [size_grow, h.grownSlots_eq, hbound']
    exact Nat.min_le_right _ _
  bytes_le := by
    rw [size_grow, ← h.growthBytes_eq]
    simp only [canGrow, Bool.and_eq_true, decide_eq_true_eq] at hcan
    exact hcan.1

/-- When the head moves on, the oldest item is no longer held. -/
theorem advance (h : ring.Holds (item :: items)) : ring.advance.Holds items where
  head_lt := by
    rw [size_advance]
    simp only [Ring.advance, Array.size_setIfInBounds]
    exact Nat.mod_lt _ (Nat.lt_of_le_of_lt (Nat.zero_le _) h.head_lt)
  length_eq := by simp [h.length_eq]
  length_le := by
    rw [size_advance]
    exact Nat.le_of_succ_le h.length_le
  get?_eq i hi := by
    rw [size_advance] at hi
    rw [get?_advance h.head_lt hi]
    split
    · exact h.get?_eq (i + 1) ‹_›
    · have hlen := h.length_le
      rw [List.length_cons] at hlen
      rw [List.getElem?_eq_none (by omega)]
  size_le_bound := by simpa using h.size_le_bound
  bytes_le := by simpa using h.bytes_le

/-- The slot of the head holds the oldest item. -/
theorem head_eq (h : ring.Holds items) : (ring.slots[ring.head]?).join = items.head? := by
  have hread := h.get?_eq 0 (Nat.lt_of_le_of_lt (Nat.zero_le _) h.head_lt)
  rw [get?, slotAt_zero h.head_lt] at hread
  rw [hread, List.head?_eq_getElem?]

/-- Where the head of an empty ring is does not matter. -/
theorem rewind (h : ring.Holds []) : Ring.Holds { ring with head := 0 } ([] : List α) where
  head_lt := Nat.lt_of_le_of_lt (Nat.zero_le _) h.head_lt
  length_eq := h.length_eq
  length_le := h.length_le
  get?_eq i hi := by
    obtain ⟨j, hj, hslot⟩ := exists_slotAt h.head_lt hi
    have hread := h.get?_eq j hj
    rw [get?, hslot] at hread
    simp only [get?, slotAt, Nat.zero_add, Nat.mod_eq_of_lt hi]
    simpa using hread
  size_le_bound := h.size_le_bound
  bytes_le := h.bytes_le

/-- Settling keeps what is held. -/
theorem settle (h : ring.Holds items) : ring.settle.Holds items := by
  unfold Ring.settle
  split
  · rename_i hzero
    have hnil : items = [] := List.eq_nil_of_length_eq_zero (h.length_eq ▸ hzero)
    subst hnil
    exact h.rewind
  · exact h

/-- Taking an item out gives the oldest one. -/
theorem pop (h : ring.Holds items) :
    ring.pop.1 = items.head? ∧ ring.pop.2.Holds items.tail := by
  unfold Ring.pop
  cases items with
  | nil =>
      rw [if_pos (show ring.length = 0 from h.length_eq)]
      exact ⟨rfl, h⟩
  | cons item items =>
      have hne : ring.length ≠ 0 := by
        rw [h.length_eq]
        exact Nat.succ_ne_zero _
      rw [if_neg hne]
      exact ⟨h.head_eq, h.advance.settle⟩

/-- If no item is taken out, as many as before are left, which is none. -/
theorem length_of_pop_none {rest : Ring α} (h : ring.Holds items)
    (hpop : ring.pop = (none, rest)) : rest.length = ring.length := by
  have hlength : rest.length = ring.length - 1 := by
    rw [← ring.length_pop, hpop]
  have hempty : items = [] := by
    rw [← List.head?_eq_none_iff, ← h.pop.1, hpop]
  have hzero : ring.length = 0 := by
    rw [h.length_eq, hempty]
    rfl
  omega

/-- Moving the head on by several slots drops as many of the oldest items. -/
theorem advanceBy {n : Nat} (h : ring.Holds items) (hn : n ≤ items.length) :
    (Ring.advanceBy n ring).Holds (items.drop n) := by
  induction n generalizing ring items with
  | zero => exact h
  | succ n ih =>
      cases items with
      | nil => exact absurd hn (Nat.not_succ_le_zero n)
      | cons item items => exact ih h.advance (Nat.le_of_succ_le_succ hn)

/-- Taking several items out gives the oldest ones in order, and leaves the others. -/
theorem popUpTo (h : ring.Holds items) (limit : Nat) :
    (Ring.popUpTo limit ring).1 = items.take limit ∧
      (Ring.popUpTo limit ring).2.Holds (items.drop limit) := by
  induction limit generalizing ring items with
  | zero => exact ⟨rfl, h⟩
  | succ limit ih =>
      obtain ⟨hitem, hrest⟩ := h.pop
      cases items with
      | nil =>
          have hpop : ring.pop = (none, ring.pop.2) := Prod.ext hitem rfl
          simp only [Ring.popUpTo]
          rw [hpop]
          exact ⟨rfl, hrest⟩
      | cons item items =>
          have hpop : ring.pop = (some item, ring.pop.2) := Prod.ext hitem rfl
          obtain ⟨htaken, hleft⟩ := ih hrest
          simp only [Ring.popUpTo]
          rw [hpop]
          exact ⟨congrArg (item :: ·) htaken, hleft⟩

/-- The items passed by while the head moves on are the oldest ones, in order. -/
theorem passedBy {n : Nat} (h : ring.Holds items) (hn : n ≤ items.length) :
    Ring.passedBy n ring = items.take n := by
  induction n generalizing ring items with
  | zero => rfl
  | succ n ih =>
      cases items with
      | nil => exact absurd hn (Nat.not_succ_le_zero n)
      | cons item items =>
          have hrest := ih h.advance (Nat.le_of_succ_le_succ hn)
          rw [Ring.passedBy, h.head_eq, hrest]
          rfl

/-- Clearing drops every item and counts them. -/
theorem clear (h : ring.Holds items) :
    ring.clear.1 = items.length ∧ ring.clear.2.Holds [] := by
  refine ⟨h.length_eq, ?_⟩
  have hdrop := h.advanceBy (Nat.le_refl items.length)
  rw [List.drop_length] at hdrop
  unfold Ring.clear
  rw [h.length_eq]
  exact hdrop.rewind

/-- How an item is received: a full ring turns it away, and so does one that would have to grow and
cannot. -/
theorem push_eq (h : ring.Holds items) (grants : Nat → Bool) (item : α) :
    ring.push grants item =
      if ring.bound = some items.length then (.error (.full item), ring)
      else if items.length < ring.slots.size then (.ok (), ring.place item)
      else if ring.canGrow grants then (.ok (), ring.grow.place item)
      else (.error (.noStorage item ring.growthBytes), ring) := by
  have hlen := h.length_eq
  have hle := h.length_le
  unfold Ring.push
  by_cases hfull : ring.bound = some items.length
  · rw [if_pos (h.isFull_iff.mpr hfull), if_pos hfull]
  · rw [if_neg (mt h.isFull_iff.mp hfull), if_neg hfull]
    by_cases hroom : items.length < ring.slots.size
    · rw [if_neg (by omega), if_pos hroom]
    · rw [if_pos (by omega), if_neg hroom]

/-- A ring that turns an item away as too many holds as many items as its bound. -/
theorem bound_of_push_full {other : α} (h : ring.Holds items)
    (hfull : (ring.push grants item).1 = .error (.full other)) :
    ring.bound = some ring.length := by
  rw [h.push_eq] at hfull
  rw [h.length_eq]
  split at hfull
  · assumption
  · split at hfull
    · cases hfull
    · split at hfull <;> cases hfull

/-- An item that is received comes last. -/
theorem push_ok (h : ring.Holds items) (hok : (ring.push grants item).1 = .ok ()) :
    (ring.push grants item).2.Holds (items ++ [item]) := by
  rw [h.push_eq] at hok ⊢
  split at hok
  · cases hok
  · split at hok
    · rename_i hfull hroom
      rw [if_neg hfull, if_pos hroom]
      exact h.place hroom
    · split at hok
      · rename_i hfull hroom hcan
        rw [if_neg hfull, if_neg hroom, if_pos hcan]
        have hlen : items.length = ring.slots.size := by
          have := h.length_le
          omega
        -- A ring that is not full gains a slot by growing, also when the bound cuts it short.
        have hlt := h.size_lt_grownSlots hfull hlen
        refine (h.grow (Nat.le_of_lt hlt) hcan).place ?_
        rw [size_grow]
        omega
      · cases hok

end Holds

end EventStaging.Ring
