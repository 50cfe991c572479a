import EventStaging.Doubles.Bench
import EventStaging.Json.Reports
import EventStaging.Proofs.Json.Values
import EventStaging.Proofs.Service.Commands

/-!
# Requests in JSON

A service whose clients write JSON does what it does for clients that hand their requests over: the
decoder reads every request, and every batch, back off its text, whatever the kind, the source and
the payload are (`Service.json_front_door`). The decoder knows nothing of kinds; it is the service
that refuses a number which stands for none.
-/

namespace EventStaging

open Decimal (digitsOf)

/-! ## Integers -/

/-- The numeral of an integer is regular. -/
theorem Numeral.regular_ofInt (i : Int) : (Numeral.ofInt i).Regular where
  whole := Decimal.isRun_digitsOf i.natAbs
  zero h := by
    show digitsOf i.natAbs = ['0']
    rw [Decimal.eq_zero_of_head_digitsOf h]
    rfl
  fraction := nofun
  exponent := nofun

namespace Json

/-- An integer is a regular value. -/
theorem regular_ofInt (i : Int) : (ofInt i).Regular := .number (Numeral.regular_ofInt i)

/-- The value without the members of that name. -/
def without (name : String) : Json → Json
  | .object members => .object (members.filter fun member ↦ member.1 ≠ some name)
  | json => json

/-- A value stays regular when a member is left out. -/
theorem Regular.without {json : Json} (h : json.Regular) (name : String) :
    (json.without name).Regular := by
  cases h with
  | object hkeys hvalues =>
      exact .object (fun member hmem ↦ hkeys member (List.mem_filter.mp hmem).1)
        fun member hmem ↦ hvalues member (List.mem_filter.mp hmem).1
  | null => exact .null
  | bool value => exact .bool value
  | number hregular => exact .number hregular
  | string text => exact .string text
  | array hitems => exact .array hitems

end Json

namespace Decoder

variable {α : Type} {least most i : Int}

/-- An integer within the bounds is read back. -/
theorem intWithin_ofInt (hleast : least ≤ i) (hmost : i ≤ most) :
    intWithin least most (.ofInt i) = some i := by
  rw [Json.ofInt, intWithin, Numeral.int?_ofInt, Option.filter_some,
    if_pos (by simp [hleast, hmost])]

/-- An integer of 32 bits is read back. -/
theorem int32_ofInt (i : Int32) : int32 (.ofInt i.toInt) = some i := by
  have hleast := i.le_toInt
  have hlt := i.toInt_lt
  rw [int32, intWithin_ofInt (by omega) (by omega), Option.map_some, Int32.ofInt_toInt]

/-- A byte is read back. -/
theorem byte_ofInt (byte : UInt8) : Decoder.byte (.ofInt byte.toNat) = some byte := by
  have hlt := byte.toNat_lt
  rw [Decoder.byte, intWithin_ofInt (by omega) (by omega), Option.map_some, Int.toNat_natCast,
    UInt8.ofNat_toNat]

/-- A list is decoded if its items are. -/
theorem list_map {decode : Decoder α} {encode : α → Json} (h : ∀ a, decode (encode a) = some a)
    (as : List α) : list decode (.array (as.map encode)) = some as := by
  rw [list]
  induction as with
  | nil => rfl
  | cons a as ih =>
      rw [List.map_cons, List.mapM_cons, h, ih]
      rfl

end Decoder

namespace Request

variable (request : Request)

/-! ## Requests and batches -/

/-- A request is written as a regular value. -/
theorem regular_toJson : request.toJson.Regular := by
  refine .object ?_ ?_
  · simp only [List.forall_mem_cons, List.not_mem_nil, Option.isSome_some, true_and,
      false_imp_iff, implies_true]
  · simp only [List.forall_mem_cons, List.not_mem_nil, false_imp_iff, implies_true, and_true]
    refine ⟨Json.regular_ofInt _, .string _, .array ?_⟩
    rintro item hitem
    obtain ⟨byte, -, rfl⟩ := List.mem_map.mp hitem
    exact Json.regular_ofInt _

/-- A request is decoded off its value. -/
theorem ofJson?_toJson : ofJson? request.toJson = some request := by
  have hfields : Decoder.fields false ["kind", "source", "payload"] request.toJson =
      some [some (.ofInt request.kind.toInt), some (.string (some request.source)),
        some (.array (request.payload.map fun byte ↦ .ofInt byte.toNat))] := rfl
  simp only [ofJson?, hfields, Decoder.required, Decoder.optional, Decoder.text,
    Decoder.int32_ofInt, Decoder.list_map Decoder.byte_ofInt, Option.bind_eq_bind,
    Option.bind_some, Option.pure_def]

/-- The value of a request without its payload. -/
def bareJson : Json := request.toJson.without "payload"

/-- The text of a request without its payload. -/
def bareText : String := String.ofList request.bareJson.compact

/-- A payload that is left out is empty. -/
theorem ofJson?_bareJson : ofJson? request.bareJson = some { request with payload := [] } := by
  have hfields : Decoder.fields false ["kind", "source", "payload"] request.bareJson =
      some [some (.ofInt request.kind.toInt), some (.string (some request.source)), none] := rfl
  simp only [ofJson?, hfields, Decoder.required, Decoder.optional, Decoder.text,
    Decoder.int32_ofInt, Option.bind_eq_bind, Option.bind_some, Option.pure_def]

/-- A request is read off its text. -/
theorem ofText?_text : Decoder.ofText? ofJson? request.text = some request := by
  rw [Decoder.ofText?, text, Json.ofText?_compact request.regular_toJson, Option.bind_some,
    ofJson?_toJson]

/-- A request without its payload is read as one with an empty payload. -/
theorem ofText?_bareText :
    Decoder.ofText? ofJson? request.bareText = some { request with payload := [] } := by
  have hregular := request.regular_toJson.without "payload"
  rw [Decoder.ofText?, bareText, bareJson, Json.ofText?_compact hregular, Option.bind_some]
  exact request.ofJson?_bareJson

/-- A batch is read off its text. -/
theorem ofText?_batchText (requests : List Request) :
    Decoder.ofText? (Decoder.list ofJson?) (batchText requests) = some requests := by
  have hregular : (Json.array (requests.map toJson)).Regular := by
    refine .array fun item hitem ↦ ?_
    obtain ⟨request, -, rfl⟩ := List.mem_map.mp hitem
    exact request.regular_toJson
  rw [Decoder.ofText?, batchText, Json.ofText?_compact hregular, Option.bind_some]
  exact Decoder.list_map ofJson?_toJson requests

end Request

/-! ## Services whose clients write JSON -/

namespace Service

open Doubles (Bench)

variable {σ : Type}

/-- Takes in the request that a text stands for, if it stands for one. -/
def enqueueText? (service : Service σ) (allocator : Allocator) (source : String) :
    Option (Act σ (Except EngineError Unit × Service σ)) :=
  (Decoder.ofText? Request.ofJson? source).map (service.enqueue allocator)

/-- Takes in the batch that a text stands for, if it stands for one. -/
def enqueueBatchText? (service : Service σ) (allocators : Nat → Allocator) (source : String) :
    Option (Act σ (BatchOutcome × Service σ)) :=
  (Decoder.ofText? (Decoder.list Request.ofJson?) source).map (service.enqueueBatch allocators)

/-- A request and a batch are read off their texts, and a request without its payload as one whose
payload is empty. To take in what the text of a request or of a batch stands for is therefore to do
the same thing as to take in the request or the batch itself, with the same result, the same service
and host afterwards and the same journal. A text is read whatever the kind is; a request of an
unknown kind is then refused by the service, and nothing else happens. -/
theorem json_front_door (service : Service σ) (allocator : Allocator)
    (allocators : Nat → Allocator) (request : Request) (requests : List Request) :
    (Decoder.ofText? Request.ofJson? request.text = some request ∧
        Decoder.ofText? Request.ofJson? request.bareText = some { request with payload := [] } ∧
        Decoder.ofText? (Decoder.list Request.ofJson?) (Request.batchText requests) =
          some requests) ∧
      (service.enqueueText? allocator request.text = some (service.enqueue allocator request) ∧
        service.enqueueText? allocator request.bareText =
          some (service.enqueue allocator { request with payload := [] }) ∧
        service.enqueueBatchText? allocators (Request.batchText requests) =
          some (service.enqueueBatch allocators requests)) ∧
      (Kind.ofWire? request.kind = none →
        service.enqueueText? allocator request.text =
          some (pure (.error (.unknownKind request.kind), service))) := by
  have htext := request.ofText?_text
  have hbare := request.ofText?_bareText
  have hbatch := Request.ofText?_batchText requests
  refine ⟨⟨htext, hbare, hbatch⟩, ⟨?_, ?_, ?_⟩, fun hunknown ↦ ?_⟩
  · rw [enqueueText?, htext, Option.map_some]
  · rw [enqueueText?, hbare, Option.map_some]
  · rw [enqueueBatchText?, hbatch, Option.map_some]
  · rw [enqueueText?, htext, Option.map_some, enqueue_of_unknown hunknown]

/-- The text of a request of an unknown kind is read, and the request refused. -/
theorem json_front_door_of_unknown_kind :
    let config : Config Bench := { name := "door" }
    let service : Service Bench :=
      { shared := .ofEngine (.ofConfig config), metrics := Bench.metricsCell }
    let request : Request := ⟨7, "bad", []⟩
    Kind.ofWire? request.kind = none ∧
      service.enqueueText? .unlimited request.text =
        some (pure (.error (.unknownKind 7), service)) := by
  intro config service request
  have hunknown : Kind.ofWire? request.kind = none := by decide
  have hdoor := json_front_door service .unlimited (fun _ ↦ .unlimited) request []
  exact ⟨hunknown, hdoor.2.2 hunknown⟩

/-- Of a character outside the basic plane the text has the character, but a pair of escapes stands
for it as well. Members may come in any order, with blanks around them. -/
example :
    let request : Request := ⟨-7, "\"\x01😀", []⟩
    request.bareText = "\x7b\"kind\":-7,\"source\":\"\\\"\\u0001😀\"\x7d" ∧
      Decoder.ofText? Request.ofJson?
          " \x7b \"source\": \"\\u0022\\u0001\\ud83d\\ude00\",\n\"kind\": -7 \x7d" =
        some request := by
  decide +kernel

end Service

end EventStaging
