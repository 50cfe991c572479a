import EventStaging.Proofs.Ring.Contents

/-!
# Rings as bounded lists

A backlog is the plain form of a queue: a list of items with a bound, and the number of slots that
a ring would have for them. Its operations append to the list, take its first item, and empty it.
`Ring.run_eq_backlog` says that a ring answers every sequence of operations as the backlog does,
and then holds the same list. The slots, their wrapping around and the words that count them are
not to be seen, except that a push fails when all slots are taken and there is no storage for more.
-/

namespace EventStaging

/-! ## Sequences of operations on a ring -/

namespace Ring

variable {α : Type}

/-- An operation on a queue of items: an item comes, where `grants` says which reservations for
slots succeed, the oldest item is taken out, or every item is dropped. -/
inductive Op (α : Type) where
  | push (grants : Nat → Bool) (item : α)
  | pop
  | clear

/-- What an operation on a queue of items answers: whether the item was received, the item that was
taken out if there was one, or how many were dropped. -/
inductive Reply (α : Type) where
  | pushed (result : Except (Refusal α) Unit)
  | popped (item : Option α)
  | cleared (count : Nat)

/-- Carries an operation out. -/
def apply (ring : Ring α) : Op α → Reply α × Ring α
  | .push grants item => (ring.push grants item).map .pushed id
  | .pop => ring.pop.map .popped id
  | .clear => ring.clear.map .cleared id

/-- Carries operations out one after the other and collects their answers. -/
def run (ring : Ring α) : List (Op α) → List (Reply α) × Ring α
  | [] => ([], ring)
  | op :: ops => ((ring.apply op).2.run ops).map ((ring.apply op).1 :: ·) id

/-- No operation changes the bound of a ring. -/
theorem bound_apply (ring : Ring α) (op : Op α) : (ring.apply op).2.bound = ring.bound := by
  cases op with
  | push grants item => exact bound_push grants ring item
  | pop => exact bound_pop ring
  | clear => exact bound_clear ring

/-- No run changes the bound of a ring. -/
theorem bound_run (ring : Ring α) (ops : List (Op α)) : (ring.run ops).2.bound = ring.bound := by
  induction ops generalizing ring with
  | nil => rfl
  | cons op ops ih => exact (ih _).trans (bound_apply ring op)

end Ring

/-! ## The plain form -/

/-- A list of items, the oldest first, with the number of slots that there are for them and how many
there may be, if there is a limit. -/
structure Backlog (α : Type) where
  items : List α
  slots : Nat
  bound : Option Nat

namespace Backlog

variable {α : Type}

/-- No items, and slots for at most sixteen. -/
def empty (max : Nat) : Backlog α :=
  if max = 0 then ⟨[], 16, none⟩ else ⟨[], min max 16, some max⟩

/-- Twice as many slots, within the bound. -/
def nextSlots (backlog : Backlog α) : Nat :=
  match backlog.bound with
  | none => 2 * backlog.slots
  | some max => min (2 * backlog.slots) max

/-- The bytes that so many slots take. -/
def nextBytes (backlog : Backlog α) : Nat := backlog.nextSlots * Ring.slotBytes

/-- Appends an item. A list that is as long as its bound gives the item back, and so does one that
takes all slots when the reservation of more of them fails. -/
def push (grants : Nat → Bool) (backlog : Backlog α) (item : α) :
    Except (Ring.Refusal α) Unit × Backlog α :=
  if backlog.bound = some backlog.items.length then (.error (.full item), backlog)
  else if backlog.items.length < backlog.slots then
    (.ok (), { backlog with items := backlog.items ++ [item] })
  else if backlog.nextBytes ≤ storageMax ∧ grants backlog.nextBytes then
    (.ok (), { backlog with items := backlog.items ++ [item], slots := backlog.nextSlots })
  else (.error (.noStorage item backlog.nextBytes), backlog)

/-- Takes the first item out. -/
def pop (backlog : Backlog α) : Option α × Backlog α :=
  (backlog.items.head?, { backlog with items := backlog.items.tail })

/-- Empties the list and says how long it was. -/
def clear (backlog : Backlog α) : Nat × Backlog α :=
  (backlog.items.length, { backlog with items := [] })

/-- Carries an operation out. -/
def apply (backlog : Backlog α) : Ring.Op α → Ring.Reply α × Backlog α
  | .push grants item => (backlog.push grants item).map .pushed id
  | .pop => backlog.pop.map .popped id
  | .clear => backlog.clear.map .cleared id

/-- Carries operations out one after the other and collects their answers. -/
def run (backlog : Backlog α) : List (Ring.Op α) → List (Ring.Reply α) × Backlog α
  | [] => ([], backlog)
  | op :: ops => ((backlog.apply op).2.run ops).map ((backlog.apply op).1 :: ·) id

end Backlog

namespace Ring

variable {α : Type} {ring : Ring α} {backlog : Backlog α}

/-! ## What is seen of a ring -/

/-- All that is seen of a ring between two operations is the backlog. -/
structure Shows (ring : Ring α) (backlog : Backlog α) : Prop where
  toList_eq : ring.toList = backlog.items
  length_eq : ring.length = backlog.items.length
  isEmpty_iff : ring.isEmpty ↔ backlog.items = []
  isFull_iff : ring.isFull ↔ ∃ max, backlog.bound = some max ∧ max ≤ backlog.items.length
  bound_eq : ring.bound = backlog.bound
  size_eq : ring.slots.size = backlog.slots
  all_isSome_iff : (∀ slot ∈ ring.slots, slot.isSome) ↔ backlog.items.length = backlog.slots

/-- A ring stands for a backlog when it holds the same items in as many slots. -/
structure StandsFor (ring : Ring α) (backlog : Backlog α) : Prop where
  holds : ring.Holds backlog.items
  size_eq : ring.slots.size = backlog.slots
  bound_eq : ring.bound = backlog.bound

/-- What a ring holds, in how many slots and with which bound. -/
def toBacklog (ring : Ring α) : Backlog α := ⟨ring.toList, ring.slots.size, ring.bound⟩

/-- A ring stands for the list of the items that it holds. -/
theorem Holds.standsFor (h : ring.Holds ring.toList) : ring.StandsFor ring.toBacklog :=
  ⟨h, rfl, rfl⟩

namespace StandsFor

/-- A ring stands for one list only, the one that can be read from it. -/
theorem toBacklog_eq (h : ring.StandsFor backlog) : ring.toBacklog = backlog := by
  rw [toBacklog, h.holds.toList_eq, h.size_eq, h.bound_eq]

/-- What can be seen of a ring is what can be seen of the list that it stands for. -/
theorem shows (h : ring.StandsFor backlog) : ring.Shows backlog where
  toList_eq := h.holds.toList_eq
  length_eq := h.holds.length_eq
  isEmpty_iff := h.holds.isEmpty_iff
  isFull_iff := by
    rw [h.holds.isFull_iff, h.bound_eq]
    constructor
    · intro hbound
      exact ⟨_, hbound, Nat.le_refl _⟩
    · rintro ⟨max, hbound, hle⟩
      have hge := h.holds.length_le_bound (h.bound_eq.trans hbound)
      rw [hbound, Nat.le_antisymm hle hge]
  bound_eq := h.bound_eq
  size_eq := h.size_eq
  all_isSome_iff := by rw [h.holds.all_isSome_iff, h.size_eq]

/-- An empty ring stands for an empty list. -/
theorem empty (max : Nat) : (Ring.empty max : Ring α).StandsFor (Backlog.empty max) := by
  by_cases hmax : max = 0 <;>
    exact ⟨by simpa [Backlog.empty, hmax] using Holds.empty max,
      by simp [Ring.empty, Backlog.empty, initialSlots, hmax],
      by simp [Backlog.empty, hmax]⟩

/-- The next larger ring has the slots that the list asks for next. -/
theorem grownSlots_eq (h : ring.StandsFor backlog) : ring.grownSlots = backlog.nextSlots := by
  rw [h.holds.grownSlots_eq, h.bound_eq, h.size_eq]
  rfl

/-- The next larger ring takes the bytes that the list asks for. -/
theorem growthBytes_eq (h : ring.StandsFor backlog) : ring.growthBytes = backlog.nextBytes := by
  rw [h.holds.growthBytes_eq, h.grownSlots_eq]
  rfl

/-- A push is answered in the same way and leaves the same items. -/
theorem push (h : ring.StandsFor backlog) (grants : Nat → Bool) (item : α) :
    (ring.push grants item).1 = (backlog.push grants item).1 ∧
      (ring.push grants item).2.StandsFor (backlog.push grants item).2 := by
  have hcan : ring.canGrow grants ↔ backlog.nextBytes ≤ storageMax ∧ grants backlog.nextBytes := by
    simp only [canGrow, Bool.and_eq_true, decide_eq_true_eq, h.growthBytes_eq]
  have hpush : (ring.push grants item).1 = .ok () →
      (ring.push grants item).2.Holds (backlog.items ++ [item]) := h.holds.push_ok
  -- Both forms ask in the same order: whether there is a bound, a free slot, and storage.
  rw [h.holds.push_eq] at hpush ⊢
  unfold Backlog.push
  rw [← h.bound_eq, ← h.size_eq]
  by_cases hfull : ring.bound = some backlog.items.length
  · rw [if_pos hfull, if_pos hfull]
    exact ⟨rfl, h⟩
  rw [if_neg hfull] at hpush
  rw [if_neg hfull, if_neg hfull]
  by_cases hroom : backlog.items.length < ring.slots.size
  · rw [if_pos hroom] at hpush
    rw [if_pos hroom, if_pos hroom]
    exact ⟨rfl, hpush rfl, size_place ring item, rfl⟩
  rw [if_neg hroom] at hpush
  rw [if_neg hroom, if_neg hroom]
  by_cases hgrow : ring.canGrow grants
  · rw [if_pos hgrow] at hpush
    rw [if_pos hgrow, if_pos (hcan.mp hgrow)]
    exact ⟨rfl, hpush rfl, by rw [size_place, size_grow, h.grownSlots_eq], rfl⟩
  · rw [if_neg hgrow, if_neg (mt hcan.mpr hgrow), h.growthBytes_eq]
    exact ⟨rfl, h⟩

/-- Taking the oldest item out of the ring takes it from the front of the list. -/
theorem pop (h : ring.StandsFor backlog) :
    ring.pop.1 = backlog.pop.1 ∧ ring.pop.2.StandsFor backlog.pop.2 := by
  obtain ⟨hitem, hholds⟩ := h.holds.pop
  exact ⟨hitem, hholds, (size_pop ring).trans h.size_eq, (bound_pop ring).trans h.bound_eq⟩

/-- Clearing the ring clears the list. -/
theorem clear (h : ring.StandsFor backlog) :
    ring.clear.1 = backlog.clear.1 ∧ ring.clear.2.StandsFor backlog.clear.2 := by
  obtain ⟨hcount, hholds⟩ := h.holds.clear
  exact ⟨hcount, hholds, (size_clear ring).trans h.size_eq, (bound_clear ring).trans h.bound_eq⟩

/-- An operation on a ring does to the list that it stands for what the operation on lists does, and
answers the same. -/
theorem apply (h : ring.StandsFor backlog) (op : Op α) :
    (ring.apply op).1 = (backlog.apply op).1 ∧
      (ring.apply op).2.StandsFor (backlog.apply op).2 := by
  cases op with
  | push grants item =>
      obtain ⟨hresult, hstands⟩ := h.push grants item
      exact ⟨congrArg Reply.pushed hresult, hstands⟩
  | pop =>
      obtain ⟨hitem, hstands⟩ := h.pop
      exact ⟨congrArg Reply.popped hitem, hstands⟩
  | clear =>
      obtain ⟨hcount, hstands⟩ := h.clear
      exact ⟨congrArg Reply.cleared hcount, hstands⟩

/-- A run answers step by step what it answers on the list, and ends in a ring that stands for the
last list. -/
theorem run (h : ring.StandsFor backlog) (ops : List (Op α)) :
    (ring.run ops).1 = (backlog.run ops).1 ∧ (ring.run ops).2.StandsFor (backlog.run ops).2 := by
  induction ops generalizing ring backlog with
  | nil => exact ⟨rfl, h⟩
  | cons op ops ih =>
      obtain ⟨hreply, hstands⟩ := h.apply op
      obtain ⟨hreplies, hrest⟩ := ih hstands
      refine ⟨?_, hrest⟩
      show (ring.apply op).1 :: ((ring.apply op).2.run ops).1 =
        (backlog.apply op).1 :: ((backlog.apply op).2.run ops).1
      rw [hreply, hreplies]

end StandsFor

/-- A ring answers every sequence of operations as a bounded list does, item for item and refusal
for refusal, and shows the same list afterwards. -/
theorem run_eq_backlog (max : Nat) (ops : List (Op α)) :
    ((empty max).run ops).1 = ((Backlog.empty max).run ops).1 ∧
      ((empty max).run ops).2.Shows ((Backlog.empty max).run ops).2 ∧
      ((empty max).run ops).2.bound = if max = 0 then none else some max := by
  obtain ⟨hreplies, hstands⟩ := (StandsFor.empty max).run ops
  refine ⟨hreplies, hstands.shows, ?_⟩
  rw [bound_run, bound_empty]

end Ring

end EventStaging
