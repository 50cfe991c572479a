import EventStaging.Proofs.Ring.Backlog
import Mathlib.Algebra.Group.Nat.Defs

/-!
# How rings grow

A ring that every slot of is taken asks for storage when another item comes, and then has twice as
many slots, within its bound. `Ring.Sound` is what holds of every ring between two operations: where
its items are, and how many slots it can have, given the most items that it ever held.
`Ring.moves` takes an operation apart into the single changes of slots, and `Ring.Safely` says that
each of them only does what the slots and the words of the machine allow. Main statement:
`Ring.sound_run`.
-/

namespace EventStaging.Ring

variable {α : Type} {ring : Ring α} {items : List α} {grants : Nat → Bool} {item : α}
  {limit most : Nat}

/-! ## Single moves -/

/-- A single change of the slots: an item goes into the first free slot, the items move over into
the next larger ring, or the slot of the oldest item is emptied and the head moves on. -/
inductive Move (α : Type) where
  | place (item : α)
  | grow
  | advance

namespace Move

/-- The ring after a move. -/
def on (ring : Ring α) : Move α → Ring α
  | .place item => ring.place item
  | .grow => ring.grow
  | .advance => ring.advance

/-- A move only uses slots that are there, in the way in which they are used: it fills a slot that
is free, takes items over from slots that are taken, and empties a slot that is taken. The sums and
differences that lead to these slots do not leave the range of a word. -/
def SafeOn (ring : Ring α) : Move α → Prop
  | .place _ =>
    0 < ring.slots.size ∧ ring.slots[ring.slotAt ring.length]? = some none ∧
      ring.head + ring.length ≤ wordMax ∧ ring.length + 1 ≤ wordMax
  | .grow =>
    0 < ring.slots.size ∧ ∀ i < ring.length, ring.head + i ≤ wordMax ∧
      ∃ item, ring.slots[ring.slotAt i]? = some (some item)
  | .advance =>
    0 < ring.slots.size ∧ (∃ item, ring.slots[ring.head]? = some (some item)) ∧
      ring.head + 1 ≤ wordMax ∧ 0 < ring.length

end Move

/-- The moves that an operation makes. -/
def moves (ring : Ring α) : Op α → List (Move α)
  | .push grants item =>
    if ring.isFull then []
    else if ring.length = ring.slots.size then
      if ring.canGrow grants then [.grow, .place item] else []
    else [.place item]
  | .pop => if ring.length = 0 then [] else [.advance]
  | .clear => List.replicate ring.length .advance

/-- The moves lead from one ring to another, and each of them is safe on the ring that it finds. -/
inductive Safely : Ring α → List (Move α) → Ring α → Prop where
  | nil (ring : Ring α) : Safely ring [] ring
  | cons {ring last : Ring α} {move : Move α} {moves : List (Move α)} :
      move.SafeOn ring → Safely (move.on ring) moves last → Safely ring (move :: moves) last

/-! ## When a ring grows -/

/-- Every slot is taken, and there may be more of them. -/
def IsCrowded (ring : Ring α) : Prop :=
  ring.length = ring.slots.size ∧ ∀ max, ring.bound = some max → ring.slots.size < max

/-- Twice as many slots, within the bound. -/
def enlarged (ring : Ring α) : Nat :=
  match ring.bound with
  | none => 2 * ring.slots.size
  | some max => min (2 * ring.slots.size) max

/-- Only a crowded ring asks for storage. It then becomes larger, or says how many bytes it asked
for and stays as it is. -/
structure GrowsInTime (ring : Ring α) : Prop where
  unasked : ¬ ring.IsCrowded → ∀ grants grants' item,
    ring.push grants item = ring.push grants' item ∧
      (ring.push grants item).2.slots.size = ring.slots.size
  granted : ring.IsCrowded → ∀ grants item, 40 * ring.enlarged ≤ storageMax →
    grants (40 * ring.enlarged) →
      (ring.push grants item).1 = .ok () ∧
        (ring.push grants item).2.slots.size = ring.enlarged ∧ ring.slots.size < ring.enlarged
  refused : ring.IsCrowded → ∀ grants item,
    ¬ (40 * ring.enlarged ≤ storageMax ∧ grants (40 * ring.enlarged)) →
      ring.push grants item = (.error (.noStorage item (40 * ring.enlarged)), ring)

/-- The most items that a ring holds at a time while operations are carried out. -/
def peak (ring : Ring α) : List (Op α) → Nat
  | [] => ring.length
  | op :: ops => max ring.length ((ring.apply op).2.peak ops)

/-- The peak of a run is no less than where it begins. -/
theorem length_le_peak (ring : Ring α) (ops : List (Op α)) : ring.length ≤ ring.peak ops := by
  cases ops with
  | nil => exact Nat.le_refl _
  | cons op ops => exact Nat.le_max_left _ _

/-- What holds of a ring between two operations. It may hold `limit` items, or any number if that is
zero, and it never held more than `most` items at a time. From the head on, the first slots are
taken, and every slot that is not one of those is free. -/
structure Sound (limit most : Nat) (ring : Ring α) : Prop where
  size_pos : 1 ≤ ring.slots.size
  head_lt : ring.head < ring.slots.size
  length_le : ring.length ≤ ring.slots.size
  taken_iff : ∀ i < ring.slots.size,
    (∃ item, ring.slots[ring.slotAt i]? = some (some item)) ↔ i < ring.length
  free : ∀ j < ring.slots.size, (∀ i < ring.length, ring.slotAt i ≠ j) →
    ring.slots[j]? = some none
  head_eq_zero : ring.length = 0 → ring.head = 0
  size_eq : ∃ k, ring.slots.size = if limit = 0 then 16 * 2 ^ k else min (16 * 2 ^ k) limit
  size_le_limit : limit ≠ 0 → ring.slots.size ≤ limit
  size_le_most : ring.slots.size ≤ max 16 (2 * (most - 1))
  bytes_le : 40 * ring.slots.size ≤ storageMax

/-! ## Crowded rings -/

/-- A ring is crowded exactly if it may take another item but has no slot for it. -/
theorem Holds.isCrowded_iff (h : ring.Holds items) :
    ring.IsCrowded ↔ ring.bound ≠ some items.length ∧ ¬ items.length < ring.slots.size := by
  have hlen := h.length_eq
  have hle := h.length_le
  constructor
  · rintro ⟨htaken, hroom⟩
    refine ⟨fun hbound ↦ ?_, by omega⟩
    have hlt := hroom items.length hbound
    omega
  · rintro ⟨hfull, hroom⟩
    refine ⟨by omega, fun max hbound ↦ ?_⟩
    have hmax := h.size_le_bound max hbound
    have hne : items.length ≠ max := fun heq ↦ hfull (heq ▸ hbound)
    omega

/-- A ring reckons with as many slots as its law of growth says. -/
theorem Holds.grownSlots_eq_enlarged (h : ring.Holds items) : ring.grownSlots = ring.enlarged :=
  h.grownSlots_eq

/-- A larger ring takes forty bytes for each of its slots. -/
theorem Holds.growthBytes_eq_enlarged (h : ring.Holds items) :
    ring.growthBytes = 40 * ring.enlarged := by
  rw [h.growthBytes_eq, h.grownSlots_eq_enlarged, slotBytes, Nat.mul_comm]

/-- A ring can grow exactly if the larger one fits into one piece of storage and the reservation
succeeds. -/
theorem Holds.canGrow_iff (h : ring.Holds items) :
    ring.canGrow grants ↔ 40 * ring.enlarged ≤ storageMax ∧ grants (40 * ring.enlarged) := by
  simp only [canGrow, Bool.and_eq_true, decide_eq_true_eq, h.growthBytes_eq_enlarged]

/-- A crowded ring takes an item exactly if it can grow, and refuses it for want of storage
otherwise. -/
theorem Holds.push_of_crowded (h : ring.Holds items) (hcrowded : ring.IsCrowded)
    (grants : Nat → Bool) (item : α) :
    ring.push grants item = if ring.canGrow grants then (.ok (), ring.grow.place item)
      else (.error (.noStorage item ring.growthBytes), ring) := by
  obtain ⟨hfull, hroom⟩ := h.isCrowded_iff.mp hcrowded
  rw [h.push_eq, if_neg hfull, if_neg hroom]

/-- A ring that is not crowded takes an item unless it is full, and asks for no storage. -/
theorem Holds.push_of_not_crowded (h : ring.Holds items) (hcrowded : ¬ ring.IsCrowded)
    (grants : Nat → Bool) (item : α) :
    ring.push grants item = if ring.bound = some items.length then (.error (.full item), ring)
      else (.ok (), ring.place item) := by
  rw [h.push_eq]
  by_cases hfull : ring.bound = some items.length
  · rw [if_pos hfull, if_pos hfull]
  · have hroom : items.length < ring.slots.size := by
      by_contra hnot
      exact hcrowded (h.isCrowded_iff.mpr ⟨hfull, hnot⟩)
    rw [if_neg hfull, if_neg hfull, if_pos hroom]

/-- A ring asks for storage exactly if it is crowded, and then grows or stays as it is. -/
theorem Holds.growsInTime (h : ring.Holds items) : ring.GrowsInTime where
  unasked := by
    intro hcrowded grants grants' item
    rw [h.push_of_not_crowded hcrowded, h.push_of_not_crowded hcrowded]
    refine ⟨rfl, ?_⟩
    split
    · rfl
    · exact size_place ring item
  granted := by
    intro hcrowded grants item hbytes hgrants
    obtain ⟨hfull, hroom⟩ := h.isCrowded_iff.mp hcrowded
    have hlt := h.size_lt_grownSlots hfull (by have := h.length_le; omega)
    rw [h.push_of_crowded hcrowded, if_pos (h.canGrow_iff.mpr ⟨hbytes, hgrants⟩),
      ← h.grownSlots_eq_enlarged]
    exact ⟨rfl, (size_place ring.grow item).trans (size_grow ring), hlt⟩
  refused := by
    intro hcrowded grants item hrefused
    rw [h.push_of_crowded hcrowded, if_neg (mt h.canGrow_iff.mp hrefused),
      h.growthBytes_eq_enlarged]

/-! ## One operation -/

/-- Every operation leaves a ring that holds some list of items. -/
theorem Holds.exists_apply (h : ring.Holds items) (op : Op α) :
    ∃ items, (ring.apply op).2.Holds items := by
  have hstands : ring.StandsFor ⟨items, ring.slots.size, ring.bound⟩ := ⟨h, rfl, rfl⟩
  exact ⟨_, (hstands.apply op).2.holds⟩

/-- An operation leaves as many slots as there were, unless it is a push to a crowded ring. Then the
ring may have been enlarged, and holds one item more than it had slots. -/
theorem Holds.size_apply (h : ring.Holds items) (op : Op α) :
    (ring.apply op).2.slots.size = ring.slots.size ∨
      (ring.apply op).2.slots.size = ring.enlarged ∧ ring.slots.size < ring.enlarged ∧
        (ring.apply op).2.length = ring.slots.size + 1 := by
  cases op with
  | push grants item =>
      show (ring.push grants item).2.slots.size = _ ∨ _
      by_cases hcrowded : ring.IsCrowded
      · by_cases hcan : 40 * ring.enlarged ≤ storageMax ∧ grants (40 * ring.enlarged)
        · obtain ⟨hok, hsize, hlt⟩ := h.growsInTime.granted hcrowded grants item hcan.1 hcan.2
          exact .inr ⟨hsize, hlt, (length_of_push hok).trans (congrArg (· + 1) hcrowded.1)⟩
        · rw [h.growsInTime.refused hcrowded grants item hcan]
          exact .inl rfl
      · exact .inl (h.growsInTime.unasked hcrowded grants grants item).2
  | pop => exact .inl (size_pop ring)
  | clear => exact .inl (size_clear ring)

/-- An operation that leaves a ring empty leaves its head at the first slot. -/
theorem head_apply (hhead : ring.length = 0 → ring.head = 0) (op : Op α)
    (hzero : (ring.apply op).2.length = 0) : (ring.apply op).2.head = 0 := by
  cases op with
  | push grants item =>
      have hzero' : (ring.push grants item).2.length = 0 := hzero
      show (ring.push grants item).2.head = 0
      cases hresult : (ring.push grants item).1 with
      | ok _ =>
          have hlen := length_of_push hresult
          omega
      | error refusal =>
          rw [push_of_refused hresult] at hzero' ⊢
          exact hhead hzero'
  | pop =>
      have hzero' : ring.pop.2.length = 0 := hzero
      show ring.pop.2.head = 0
      unfold pop at hzero' ⊢
      split
      · exact hhead ‹_›
      · rename_i hne
        rw [if_neg hne, length_settle] at hzero'
        rw [settle, if_pos hzero']
  | clear => rfl

/-- What one operation passes on to the next. -/
structure Grown (limit most : Nat) (ring : Ring α) : Prop where
  holds : ∃ items, ring.Holds items
  bound_eq : ring.bound = if limit = 0 then none else some limit
  head_eq_zero : ring.length = 0 → ring.head = 0
  size_eq : ∃ k, ring.slots.size = if limit = 0 then 16 * 2 ^ k else min (16 * 2 ^ k) limit
  size_le_most : ring.slots.size ≤ max 16 (2 * (most - 1))
  length_le_most : ring.length ≤ most

namespace Grown

/-- A new ring passes on what every operation does. -/
theorem empty (limit : Nat) : (Ring.empty limit : Ring α).Grown limit 0 where
  holds := ⟨[], Holds.empty limit⟩
  bound_eq := bound_empty limit
  head_eq_zero _ := rfl
  size_eq := by
    refine ⟨0, ?_⟩
    by_cases hlimit : limit = 0 <;> simp [Ring.empty, hlimit, initialSlots, Nat.min_comm]
  size_le_most := by
    by_cases hlimit : limit = 0
    · simp [Ring.empty, hlimit, initialSlots]
    · have hsize : (Ring.empty limit : Ring α).slots.size = min limit 16 := by
        simp [Ring.empty, hlimit, initialSlots]
      rw [hsize]
      exact Nat.min_le_right limit 16
  length_le_most := Nat.le_refl 0

/-- Twice as many slots are sixteen times the next power of two, or the bound. -/
theorem enlarged_eq (h : ring.Grown limit most) :
    ∃ k, ring.enlarged = if limit = 0 then 16 * 2 ^ k else min (16 * 2 ^ k) limit := by
  obtain ⟨k, hsize⟩ := h.size_eq
  refine ⟨k + 1, ?_⟩
  have hpow : 16 * 2 ^ (k + 1) = 2 * (16 * 2 ^ k) := by omega
  unfold enlarged
  rw [h.bound_eq, hsize, hpow]
  by_cases hlimit : limit = 0
  · simp [hlimit]
  · simp only [hlimit, if_false]
    omega

/-- A ring grows to at most twice its slots. -/
theorem enlarged_le (ring : Ring α) : ring.enlarged ≤ 2 * ring.slots.size := by
  unfold enlarged
  split
  · exact Nat.le_refl _
  · exact Nat.min_le_left _ _

/-- An operation keeps to the law of growth. What it leaves counts among the most items ever held. -/
theorem apply (h : ring.Grown limit most) (op : Op α) :
    (ring.apply op).2.Grown limit (max most (ring.apply op).2.length) := by
  obtain ⟨items, hholds⟩ := h.holds
  have hsize := hholds.size_apply op
  constructor
  case holds => exact hholds.exists_apply op
  case bound_eq => rw [bound_apply, h.bound_eq]
  case head_eq_zero => exact head_apply h.head_eq_zero op
  case size_eq =>
    rcases hsize with hsame | ⟨hmore, -, -⟩
    · rw [hsame]
      exact h.size_eq
    · rw [hmore]
      exact h.enlarged_eq
  case size_le_most =>
    have hle := h.size_le_most
    rcases hsize with hsame | ⟨hmore, -, hlength⟩
    · omega
    · -- The ring has been crowded by as many items as it had slots, and took one more.
      have hdouble := enlarged_le ring
      omega
  case length_le_most => exact Nat.le_max_right _ _

/-- A run keeps to the law of growth, with its peak among the most items ever held. -/
theorem run (h : ring.Grown limit most) (ops : List (Op α)) :
    (ring.run ops).2.Grown limit (max most (ring.peak ops)) := by
  induction ops generalizing ring most with
  | nil =>
      have hle := h.length_le_most
      rwa [peak, Nat.max_eq_left hle]
  | cons op ops ih =>
      have hle := h.length_le_most
      have hrest := ih (h.apply op)
      have hstart := length_le_peak (ring.apply op).2 ops
      have hmost : max (max most (ring.apply op).2.length) ((ring.apply op).2.peak ops) =
          max most (ring.peak (op :: ops)) := by
        rw [peak]
        omega
      rwa [hmost] at hrest

/-- What is passed on makes a ring sound. -/
theorem sound (h : ring.Grown limit most) : ring.Sound limit most := by
  obtain ⟨items, hholds⟩ := h.holds
  -- What a slot holds is read through its distance from the head, which reaches every slot once.
  have hread : ∀ i < ring.slots.size, ring.slots[ring.slotAt i]? = some items[i]? := by
    intro i hi
    have hslot : ring.slotAt i < ring.slots.size := slotAt_lt hholds.head_lt
    have hitem := hholds.get?_eq i hi
    rw [get?, Array.getElem?_eq_getElem hslot, Option.join_some] at hitem
    rw [Array.getElem?_eq_getElem hslot, hitem]
  have hlen := hholds.length_eq
  have hhead := hholds.head_lt
  constructor
  case size_pos => omega
  case head_lt => exact hhead
  case length_le => exact hlen ▸ hholds.length_le
  case taken_iff =>
    intro i hi
    rw [hread i hi, hlen]
    simp [List.getElem?_eq_some_iff]
  case free =>
    intro j hj hother
    obtain ⟨i, hi, rfl⟩ := exists_slotAt hhead hj
    have hnot : ¬ i < ring.length := fun hlt ↦ hother i hlt rfl
    rw [hread i hi, List.getElem?_eq_none (by omega)]
  case head_eq_zero => exact h.head_eq_zero
  case size_eq => exact h.size_eq
  case size_le_limit =>
    intro hlimit
    exact hholds.size_le_bound limit (h.bound_eq.trans (if_neg hlimit))
  case size_le_most => exact h.size_le_most
  case bytes_le =>
    have hbytes := hholds.bytes_le
    rwa [slotBytes, Nat.mul_comm] at hbytes

end Grown

/-! ## The moves of an operation -/

namespace Holds

/-- No sum of a slot and a number of slots leaves the range of a word. -/
theorem words (h : ring.Holds items) : 2 * ring.slots.size ≤ wordMax := by
  have hbytes := h.bytes_le
  unfold slotBytes storageMax at hbytes
  unfold wordMax
  omega

/-- Each item stands in the slot of its place. -/
theorem get?_some (h : ring.Holds items) {i : Nat} (hi : i < items.length) :
    ring.slots[ring.slotAt i]? = some (some items[i]) := by
  have hslot : ring.slotAt i < ring.slots.size := slotAt_lt h.head_lt
  have hitem := h.get?_eq i (Nat.lt_of_lt_of_le hi h.length_le)
  rw [get?, Array.getElem?_eq_getElem hslot, Option.join_some, List.getElem?_eq_getElem hi] at hitem
  rw [Array.getElem?_eq_getElem hslot, hitem]

/-- Placing an item is safe if there is a free slot. -/
theorem safeOn_place (h : ring.Holds items) (hroom : items.length < ring.slots.size) (item : α) :
    (Move.place item).SafeOn ring := by
  have hhead := h.head_lt
  have hwords := h.words
  have hlen := h.length_eq
  have hslot : ring.slotAt ring.length < ring.slots.size := slotAt_lt hhead
  have hfree := h.get?_eq ring.length (hlen ▸ hroom)
  rw [get?, Array.getElem?_eq_getElem hslot, Option.join_some, List.getElem?_eq_none (by omega)]
    at hfree
  refine ⟨by omega, ?_, by omega, by omega⟩
  rw [Array.getElem?_eq_getElem hslot, hfree]

/-- Growing is safe. -/
theorem safeOn_grow (h : ring.Holds items) : (Move.grow : Move α).SafeOn ring := by
  have hhead := h.head_lt
  have hwords := h.words
  have hlen := h.length_eq
  have hle := h.length_le
  refine ⟨by omega, fun i hi ↦ ⟨by omega, items[i], ?_⟩⟩
  exact h.get?_some (hlen ▸ hi)

/-- Moving the head on is safe if there is an item. -/
theorem safeOn_advance (h : ring.Holds (item :: items)) : (Move.advance : Move α).SafeOn ring := by
  have hhead := h.head_lt
  have hwords := h.words
  have hlen : ring.length = items.length + 1 := h.length_eq
  have hslot := h.get?_some (show 0 < (item :: items).length from Nat.succ_pos _)
  rw [slotAt_zero hhead] at hslot
  exact ⟨by omega, ⟨_, hslot⟩, by omega, by omega⟩

/-- Moving the head on once for each item is safe all the way. -/
theorem safely_advance (h : ring.Holds items) :
    Safely ring (List.replicate items.length .advance) (Ring.advanceBy items.length ring) := by
  induction items generalizing ring with
  | nil => exact .nil ring
  | cons item items ih => exact .cons h.safeOn_advance (ih h.advance)

/-- An operation is a series of safe moves, after which at most the head is put elsewhere. -/
theorem safely_apply (h : ring.Holds items) (op : Op α) :
    ∃ last head, Safely ring (ring.moves op) last ∧ (ring.apply op).2 = { last with head } := by
  cases op with
  | push grants item =>
      show ∃ (last : Ring α) (head : Nat), _ ∧ (ring.push grants item).2 = { last with head }
      simp only [moves]
      rw [h.push_eq]
      -- A push first asks for the bound, then for a free slot, and grows only if there is none.
      by_cases hfull : ring.bound = some items.length
      · rw [if_pos (h.isFull_iff.mpr hfull), if_pos hfull]
        exact ⟨ring, ring.head, .nil ring, rfl⟩
      rw [if_neg (mt h.isFull_iff.mp hfull), if_neg hfull, h.length_eq]
      by_cases hroom : items.length < ring.slots.size
      · rw [if_neg (Nat.ne_of_lt hroom), if_pos hroom]
        exact ⟨ring.place item, _, .cons (h.safeOn_place hroom item) (.nil _), rfl⟩
      have hlen : items.length = ring.slots.size :=
        Nat.le_antisymm h.length_le (Nat.le_of_not_lt hroom)
      rw [if_pos hlen, if_neg hroom]
      by_cases hcan : ring.canGrow grants
      -- Growth leaves a slot past those taken, which is where the item goes.
      · have hlt := h.size_lt_grownSlots hfull hlen
        have hgrown := h.grow (Nat.le_of_lt hlt) hcan
        have hplace := hgrown.safeOn_place (by rw [size_grow]; omega) item
        rw [if_pos hcan, if_pos hcan]
        exact ⟨ring.grow.place item, _, .cons h.safeOn_grow (.cons hplace (.nil _)), rfl⟩
      · rw [if_neg hcan, if_neg hcan]
        exact ⟨ring, ring.head, .nil ring, rfl⟩
  | pop =>
      show ∃ (last : Ring α) (head : Nat), _ ∧ ring.pop.2 = { last with head }
      simp only [moves, Ring.pop]
      cases items with
      | nil =>
          have hzero : ring.length = 0 := h.length_eq
          rw [if_pos hzero, if_pos hzero]
          exact ⟨ring, ring.head, .nil ring, rfl⟩
      | cons item items =>
          have hne : ring.length ≠ 0 := by
            rw [h.length_eq]
            exact Nat.succ_ne_zero _
          rw [if_neg hne, if_neg hne]
          refine ⟨ring.advance, ring.advance.settle.head, .cons h.safeOn_advance (.nil _), ?_⟩
          show ring.advance.settle = { ring.advance with head := ring.advance.settle.head }
          unfold Ring.settle
          split <;> rfl
  | clear =>
      show ∃ last head, Safely ring (List.replicate ring.length .advance) last ∧
        ring.clear.2 = { last with head }
      unfold Ring.clear
      rw [h.length_eq]
      exact ⟨_, 0, h.safely_advance, rfl⟩

end Holds

/-! ## Whole runs -/

/-- Every ring that operations lead to, from a ring without items on, is sound: it has at least one
slot, its head is one of them, exactly as many slots from there on as it is long are taken, and it
begins at the first slot again when nothing is queued. It has sixteen slots, doubled some times, or
as many as its bound; they never become fewer, and unless they are still sixteen at most, there are
at most twice as many as one less than the most items that it ever held. A ring asks for storage only
when it is crowded. Every operation is a series of moves that use slots which are there, put no item
where one is, divide by no zero and leave the range of no word. -/
theorem sound_run (limit : Nat) (ops : List (Op α)) :
    let ring := ((empty limit).run ops).2
    ring.Sound limit ((empty limit).peak ops) ∧ ring.GrowsInTime ∧
      ∀ op, ring.slots.size ≤ (ring.apply op).2.slots.size ∧
        ∃ last head, Safely ring (ring.moves op) last ∧ (ring.apply op).2 = { last with head } := by
  intro ring
  have hgrown : ring.Grown limit ((empty limit).peak ops) := by
    have hrun := (Grown.empty limit : (Ring.empty limit : Ring α).Grown limit 0).run ops
    rwa [Nat.zero_max] at hrun
  obtain ⟨items, hholds⟩ := hgrown.holds
  refine ⟨hgrown.sound, hholds.growsInTime, fun op ↦ ⟨?_, hholds.safely_apply op⟩⟩
  rcases hholds.size_apply op with hsame | ⟨hmore, hlt, -⟩
  · exact Nat.le_of_eq hsame.symm
  · omega

/-- Storage is granted here for thirty-two slots only, and a bound of twenty has a ring ask for
less. -/
example :
    let pushes := List.replicate 17 (.push (fun bytes ↦ bytes == 32 * 40) 'x')
    ((empty 40).run pushes).2.slots.size = 32 ∧ ((empty 20).run pushes).2.slots.size = 16 ∧
      ((empty 0).run pushes).2.length = 17 := by
  decide

end EventStaging.Ring
