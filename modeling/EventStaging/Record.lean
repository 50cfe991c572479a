import EventStaging.Host

/-!
# Event records

A record is what an engine keeps of an event: its kind, the name of its source, and a copy of its
payload. There are four kinds, and requests name them by wire numbers; a number that no kind has
names none. Taking the copy is the only step of making a record that can fail.
-/

namespace EventStaging

/-! ## Kinds -/

/-- What an event reports. -/
inductive Kind where
  | data
  | connect
  | disconnect
  | error
  deriving DecidableEq, Repr, Inhabited

namespace Kind

/-- Every kind, in the order of the wire numbers. -/
def all : List Kind := [.data, .connect, .disconnect, .error]

/-- The name of a kind in diagnostics. -/
def name : Kind → String
  | .data => "DATA"
  | .connect => "CONNECT"
  | .disconnect => "DISCONNECT"
  | .error => "ERROR"

/-- The number that stands for a kind in a request. -/
def wire : Kind → Int32
  | .data => 0
  | .connect => 1
  | .disconnect => 2
  | .error => 3

/-- The position of a kind in the order of the wire numbers. -/
def rank : Kind → Nat
  | .data => 0
  | .connect => 1
  | .disconnect => 2
  | .error => 3

/-- The kind that a wire number stands for. -/
def ofWire? (wire : Int32) : Option Kind :=
  all.find? fun kind ↦ kind.wire == wire

end Kind

/-! ## Records -/

/-- An event as an engine keeps it: what it reports, who reported it, and the bytes that came with
it. -/
structure Record where
  kind : Kind
  source : String
  payload : List UInt8
  deriving DecidableEq, Repr, Inhabited

namespace Record

/-- Copies an event into a record of its own. It fails with the number of bytes asked for when the
payload cannot be copied; an empty payload asks for nothing. -/
def copy (allocator : Allocator) (kind : Kind) (source : String) (payload : List UInt8) :
    Except Nat Record :=
  if payload.isEmpty || allocator.payload payload.length then .ok ⟨kind, source, payload⟩
  else .error payload.length

/-- A copy is the event itself, byte for byte. -/
theorem eq_of_copy {allocator : Allocator} {kind : Kind} {source : String} {payload : List UInt8}
    {record : Record} (h : copy allocator kind source payload = .ok record) :
    record = ⟨kind, source, payload⟩ := by
  unfold copy at h
  split at h
  · simpa using h.symm
  · simp at h

end Record

end EventStaging
