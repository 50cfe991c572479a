import EventStaging.Host

/-!
# The slot ring

A queue in a ring of slots. The ring starts small, wraps around, and is replaced by a ring of twice
the size when an item comes and every slot is taken; a bounded ring never has more slots than its
bound. `Ring.toList` reads the items from the oldest to the newest, `Ring.length_of_push` and
`Ring.length_pop` say how many items an operation leaves, and `Ring.push_of_refused` says that a
ring which turns an item away stays as it is.
-/

namespace EventStaging

/-- A queue of items in a ring of slots. An empty slot holds nothing, `head` is the slot of the
oldest item, `length` items are queued, and `bound` is how many there may be, if there is a limit.
-/
structure Ring (α : Type) where
  slots : Array (Option α)
  head : Nat
  length : Nat
  bound : Option Nat
  deriving DecidableEq, Repr

namespace Ring

variable {α : Type}

/-- Why an item was turned away: the queue is `full`, or there was `noStorage` for a larger ring,
which takes that many bytes. The item comes back with the reason. -/
inductive Refusal (α : Type) where
  | full (item : α)
  | noStorage (item : α) (bytes : Nat)
  deriving DecidableEq, Repr

/-- The item that was turned away. -/
def Refusal.item : Refusal α → α
  | .full item => item
  | .noStorage item _ => item

/-- The number of slots that a ring starts with, if its bound allows as many. -/
def initialSlots : Nat := 16

/-- The bytes that one slot takes. -/
def slotBytes : Nat := 40

/-- A ring without items that may hold `max` of them, or any number if `max` is zero. -/
def empty (max : Nat) : Ring α :=
  let bound := if max = 0 then none else some max
  let slots := match bound with
    | none => initialSlots
    | some max => min max initialSlots
  { slots := Array.replicate slots none, head := 0, length := 0, bound }

/-- A ring is full when it has a bound and holds as many items. -/
def isFull (ring : Ring α) : Bool :=
  match ring.bound with
  | none => false
  | some max => max ≤ ring.length

/-- A ring is empty when nothing is queued. -/
def isEmpty (ring : Ring α) : Bool := ring.length == 0

/-- The slot that is `i` places after the head. -/
def slotAt (ring : Ring α) (i : Nat) : Nat := (ring.head + i) % ring.slots.size

/-- The item `i` places after the oldest one. -/
def get? (ring : Ring α) (i : Nat) : Option α := (ring.slots[ring.slotAt i]?).join

/-- The items from the oldest to the newest. -/
def toList (ring : Ring α) : List α := (List.range ring.length).filterMap ring.get?

/-- The number of slots of the next larger ring: twice as many, within the bound. -/
def grownSlots (ring : Ring α) : Nat :=
  let doubled := max 1 (min (2 * ring.slots.size) wordMax)
  match ring.bound with
  | none => doubled
  | some max => min doubled max

/-- The bytes that the next larger ring takes. -/
def growthBytes (ring : Ring α) : Nat := min (ring.grownSlots * slotBytes) wordMax

/-- Whether the storage for the next larger ring can be had. Larger pieces than `storageMax` are
never granted. -/
def canGrow (grants : Nat → Bool) (ring : Ring α) : Bool :=
  decide (ring.growthBytes ≤ storageMax) && grants ring.growthBytes

/-- The same items in the next larger ring, with the oldest in the first slot. -/
def grow (ring : Ring α) : Ring α :=
  { ring with
    slots := Array.ofFn fun i : Fin ring.grownSlots ↦
      if i < ring.length then ring.get? i else none
    head := 0 }

/-- Puts an item into the first free slot. -/
def place (ring : Ring α) (item : α) : Ring α :=
  { ring with
    slots := ring.slots.setIfInBounds (ring.slotAt ring.length) (some item)
    length := ring.length + 1 }

/-- Queues an item, in a larger ring if every slot is taken, or leaves the ring as it is and gives
the item back. `grants` says which reservations for slots succeed. -/
def push (grants : Nat → Bool) (ring : Ring α) (item : α) : Except (Refusal α) Unit × Ring α :=
  if ring.isFull then (.error (.full item), ring)
  else if ring.length = ring.slots.size then
    if ring.canGrow grants then (.ok (), ring.grow.place item)
    else (.error (.noStorage item ring.growthBytes), ring)
  else (.ok (), ring.place item)

/-- Empties the slot of the oldest item and moves the head on. -/
def advance (ring : Ring α) : Ring α :=
  let slots := ring.slots.setIfInBounds ring.head none
  { ring with slots, head := (ring.head + 1) % slots.size, length := ring.length - 1 }

/-- Moves the head of an empty ring to the first slot. -/
def settle (ring : Ring α) : Ring α :=
  if ring.length = 0 then { ring with head := 0 } else ring

/-- Takes the oldest item out. -/
def pop (ring : Ring α) : Option α × Ring α :=
  if ring.length = 0 then (none, ring)
  else ((ring.slots[ring.head]?).join, ring.advance.settle)

/-- Empties the slots of the `n` oldest items. -/
def advanceBy : Nat → Ring α → Ring α
  | 0, ring => ring
  | n + 1, ring => advanceBy n ring.advance

/-- Drops every item and says how many there were. -/
def clear (ring : Ring α) : Nat × Ring α :=
  (ring.length, { advanceBy ring.length ring with head := 0 })

/-- A bound of zero stands for no bound. -/
@[simp] theorem bound_empty (max : Nat) :
    (empty max : Ring α).bound = if max = 0 then none else some max := rfl

/-- Placing an item makes one more. -/
@[simp] theorem length_place (ring : Ring α) (item : α) :
    (ring.place item).length = ring.length + 1 := rfl

/-- Growth keeps the items. -/
@[simp] theorem length_grow (ring : Ring α) : ring.grow.length = ring.length := rfl

/-- Moving the head on takes one item away. -/
@[simp] theorem length_advance (ring : Ring α) : ring.advance.length = ring.length - 1 := rfl

/-- Settling takes none away. -/
@[simp] theorem length_settle (ring : Ring α) : ring.settle.length = ring.length := by
  unfold settle
  split <;> rfl

/-- Taking the oldest item out leaves one less, or none. -/
theorem length_pop (ring : Ring α) : ring.pop.2.length = ring.length - 1 := by
  unfold pop
  split <;> simp [*]

/-- A push that is accepted makes one more item. -/
theorem length_of_push {grants : Nat → Bool} {ring : Ring α} {item : α}
    (h : (ring.push grants item).1 = .ok ()) :
    (ring.push grants item).2.length = ring.length + 1 := by
  unfold push at h ⊢
  split at h
  · cases h
  · split at h
    · split at h
      · simp_all
      · cases h
    · simp_all

/-- A push that is refused leaves the ring as it is. -/
theorem push_of_refused {grants : Nat → Bool} {ring : Ring α} {item : α} {refusal : Refusal α}
    (h : (ring.push grants item).1 = .error refusal) : (ring.push grants item).2 = ring := by
  unfold push at h ⊢
  split at h
  · simp_all
  · split at h
    · split at h <;> simp_all
    · cases h

end Ring

end EventStaging
