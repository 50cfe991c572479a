/-!
# What a host provides

An engine lives in a program that it knows little about. Sizes and counts are unsigned words of 64
bits. What an engine can tell about storage is only whether a reservation succeeds; it asks at two
points, for the copy of a payload and for a larger ring of slots. Callbacks and services share state
with the program around them: a cell names the place where a value is kept in that state, so that
the parts that share it can be given the same cell.
-/

namespace EventStaging

/-! ## Words -/

/-- The largest number that a word holds. -/
def wordMax : Nat := 0xffffffffffffffff

/-- The largest number of bytes that one piece of storage takes. -/
def storageMax : Nat := 0x7fffffffffffffff

/-! ## Storage -/

/-- Which reservations succeed, by the number of bytes: those for the copy of a `payload`, and those
for the `slots` of a ring. -/
structure Allocator where
  payload : Nat → Bool
  slots : Nat → Bool

namespace Allocator

/-- Every reservation succeeds. -/
def unlimited : Allocator := ⟨fun _ ↦ true, fun _ ↦ true⟩

/-- Reservations of more than `limit` bytes fail. -/
def upTo (limit : Nat) : Allocator :=
  ⟨fun bytes ↦ bytes ≤ limit, fun bytes ↦ bytes ≤ limit⟩

end Allocator

/-! ## Places -/

/-- A place in a state of type `σ` that holds a value of type `α`. It can be read and replaced, and
what was put there is found there. -/
structure Cell (σ α : Type) where
  get : σ → α
  set : α → σ → σ
  get_set : ∀ a s, get (set a s) = a

namespace Cell

variable {σ α : Type}

/-- Replaces the value by a function of it. -/
def modify (cell : Cell σ α) (f : α → α) (s : σ) : σ := cell.set (f (cell.get s)) s

/-- The whole state as one place. -/
def whole : Cell σ σ := ⟨id, fun a _ ↦ a, fun _ _ ↦ rfl⟩

/-- What is found in a place after a change is the changed value. -/
@[simp] theorem get_modify (cell : Cell σ α) (f : α → α) (s : σ) :
    cell.get (cell.modify f s) = f (cell.get s) :=
  cell.get_set _ s

end Cell

end EventStaging
