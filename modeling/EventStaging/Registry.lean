import EventStaging.Error

/-!
# Registries

A registry gives out identifiers for the engines that are put into it: positive numbers, since zero
names no engine. An identifier is given out once: after its engine has been taken out it never names
another one.
-/

namespace EventStaging

/-! ## Identifiers -/

/-- The number under which an engine is registered. Zero names no engine. -/
structure EngineId where
  raw : Nat
  raw_pos : 0 < raw := by decide
  deriving DecidableEq, Repr

namespace EngineId

/-- The identifier with the given number, unless the number is zero. -/
def ofRaw? (raw : Nat) : Option EngineId :=
  if h : 0 < raw then some ⟨raw, h⟩ else none

/-- An identifier in words. -/
def label (id : EngineId) : String := s!"engine#{id.raw}"

/-- The number of an identifier names that identifier. -/
theorem ofRaw?_raw (id : EngineId) : ofRaw? id.raw = some id := by
  simp [ofRaw?, id.raw_pos]

end EngineId

/-! ## The registry -/

/-- A registry of values of type `α`: the identifier that comes next, and what is registered, in
ascending order of the identifiers. -/
structure Registry (α : Type) where
  next : EngineId := ⟨1, by decide⟩
  entries : List (EngineId × α) := []

namespace Registry

variable {α : Type}

/-- The number of registered values. -/
def size (registry : Registry α) : Nat := registry.entries.length

/-- Whether nothing is registered. -/
def isEmpty (registry : Registry α) : Bool := registry.size == 0

/-- Registers a value under the next identifier. -/
def insert (registry : Registry α) (value : α) : EngineId × Registry α :=
  (registry.next,
    { next := ⟨registry.next.raw + 1, Nat.succ_pos _⟩
      entries := registry.entries ++ [(registry.next, value)] })

/-- The value that is registered under an identifier. -/
def get? (registry : Registry α) (id : EngineId) : Option α := registry.entries.lookup id

/-- The value that is registered under a number. -/
def resolve (registry : Registry α) (raw : Nat) : Except RegistryError α :=
  match (EngineId.ofRaw? raw).bind registry.get? with
  | some value => .ok value
  | none => .error (.unknown raw)

/-- Takes an identifier out. -/
def erase (registry : Registry α) (id : EngineId) : Registry α :=
  { registry with entries := registry.entries.filter fun entry ↦ entry.1 ≠ id }

/-- Takes every identifier out. -/
def drain (registry : Registry α) : Registry α := { registry with entries := [] }

/-- A registry in words. -/
def summary (registry : Registry α) : String :=
  "Registry \x7b engines: " ++ toString registry.size ++ ", next_id: " ++
    toString registry.next.raw ++ " \x7d"

end Registry

end EventStaging
