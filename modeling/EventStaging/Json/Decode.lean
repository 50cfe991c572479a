import EventStaging.Json.Grammar

/-!
# Decoding JSON values

Decoders for the parts of which domain values are made. A structure is an object, whose members may
come in any order and among others, but not twice, or an array of the values of its fields in their
order. Nothing stands for a field that is left out but a default, if the field has one.
-/

namespace EventStaging

/-- Reads a domain value off a JSON value. -/
abbrev Decoder (α : Type) := Json → Option α

namespace Decoder

variable {α β : Type}

/-- A string. -/
def text : Decoder String
  | .string text => text
  | _ => none

/-- A truth value. -/
def flag : Decoder Bool
  | .bool value => some value
  | _ => none

/-- An integer between two bounds. -/
def intWithin (least most : Int) : Decoder Int
  | .number n => n.int?.filter fun i ↦ least ≤ i && i ≤ most
  | _ => none

/-- A word. -/
def word : Decoder Nat := fun json ↦ (intWithin 0 wordMax json).map Int.toNat

/-- A signed number of 32 bits. -/
def int32 : Decoder Int32 := fun json ↦
  (intWithin (-2147483648) 2147483647 json).map Int32.ofInt

/-- An unsigned number of 32 bits. -/
def word32 : Decoder Nat := fun json ↦ (intWithin 0 4294967295 json).map Int.toNat

/-- A byte. -/
def byte : Decoder UInt8 := fun json ↦
  (intWithin 0 255 json).map fun i ↦ UInt8.ofNat i.toNat

/-- A floating-point number. -/
def float : Decoder Float
  | .number n => n.float?
  | _ => none

/-- A list. -/
def list (item : Decoder α) : Decoder (List α)
  | .array items => items.mapM item
  | _ => none

/-- A pair, as an array of two. -/
def pair (first : Decoder α) (second : Decoder β) : Decoder (α × β)
  | .array [a, b] => do
    let a ← first a
    let b ← second b
    return (a, b)
  | _ => none

/-- A map, as an object. The last of several members with one name counts. -/
def map (value : Decoder α) : Decoder (List (String × α))
  | .object members => do
    let members ← members.mapM fun (key, json) ↦ do
      let key ← key
      let value ← value json
      return (key, value)
    return members.foldl
      (fun kept entry ↦ kept.filter (fun other ↦ other.1 != entry.1) ++ [entry]) []
  | _ => none

/-- The value of the one member with a given name; a name that comes twice is refused. -/
def member? (members : List (String × Json)) (name : String) : Option (Option Json) :=
  match members.filter fun entry ↦ entry.1 == name with
  | [] => some none
  | [(_, value)] => some (some value)
  | _ => none

/-- The values of the named fields of a structure. An object may have other members unless it is
`closed`. -/
def fields (closed : Bool) (names : List String) : Decoder (List (Option Json))
  | .array items =>
    if items.length ≤ names.length then
      some (items.map some ++ List.replicate (names.length - items.length) none)
    else none
  | .object members => do
    let members ← members.mapM fun (key, value) ↦ key.map fun key ↦ (key, value)
    if closed && members.any (fun entry ↦ !names.contains entry.1) then none
    else names.mapM (member? members)
  | _ => none

/-- A field that must be there. -/
def required (decode : Decoder α) (field : Option Json) : Option α := field.bind decode

/-- A field that may be left out. -/
def optional (fallback : α) (decode : Decoder α) : Option Json → Option α
  | none => some fallback
  | some json => decode json

end Decoder

end EventStaging
