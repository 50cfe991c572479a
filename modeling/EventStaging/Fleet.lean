import EventStaging.Registry
import EventStaging.Shared

/-!
# Fleets

The engines of a program, each in a berth of its own with the host that its callbacks work on. An
engine is kept alive by its owner, who may let go of it, and by every identifier under which it is
registered; the engine that nobody keeps any more is taken down.
-/

namespace EventStaging

/-- An engine with the host that its callbacks work on. It is `held` as long as its owner has not
let go of it. -/
structure Berth (σ : Type) where
  shared : Shared σ
  host : σ
  held : Bool := true

/-- Engines in numbered berths, and the registry that knows them by their berths. -/
structure Fleet (σ : Type) where
  berths : List (Berth σ)
  registry : Registry Nat := {}

namespace Fleet

variable {σ α : Type}

/-- What was observed, in order, and in which berth. -/
abbrev Log := List (Nat × Observation)

/-- What an action on a fleet did: its value, what was observed on the way, and the fleet as the
action leaves it. -/
structure Done (σ α : Type) where
  value : α
  journal : Log
  fleet : Fleet σ

/-- The engine in a berth, while its owner holds it. -/
def held? (fleet : Fleet σ) (i : Nat) : Option (Berth σ) :=
  fleet.berths[i]?.filter Berth.held

/-- Carries an action out in a berth. -/
def work (fleet : Fleet σ) (i : Nat) (action : Shared σ → Act σ (α × Shared σ)) :
    Done σ (Option α) :=
  match fleet.berths[i]? with
  | none => ⟨none, [], fleet⟩
  | some berth =>
    let did := (action berth.shared).run berth.host
    ⟨some did.value.1, did.journal.map fun observation ↦ (i, observation),
      { fleet with
        berths := fleet.berths.set i { berth with shared := did.value.2, host := did.host } }⟩

/-- Whether the engine in a berth is registered. -/
def isRegistered (fleet : Fleet σ) (i : Nat) : Bool :=
  fleet.registry.entries.any fun entry ↦ entry.2 == i

/-- Registers the engine in a berth under the next identifier. -/
def register (fleet : Fleet σ) (i : Nat) : Done σ EngineId :=
  let (id, registry) := fleet.registry.insert i
  let did := { fleet with registry }.work i fun shared ↦ do
    Act.trace (.engineRegistered id shared.name)
    return ((), shared)
  ⟨id, did.journal, did.fleet⟩

/-- Registers the engine in a berth, if its owner still holds it. -/
def insert (fleet : Fleet σ) (i : Nat) : Done σ (Option EngineId) :=
  match fleet.held? i with
  | none => ⟨none, [], fleet⟩
  | some _ =>
    let did := fleet.register i
    ⟨some did.value, did.journal, did.fleet⟩

/-- Closes the engine in a berth. -/
def close (fleet : Fleet σ) (i : Nat) : Done σ (Option Bool) := fleet.work i Shared.close

/-- Takes an identifier out of the registry and closes its engine, whose berth is the answer. -/
def remove (fleet : Fleet σ) (id : EngineId) : Done σ (Option Nat) :=
  match fleet.registry.get? id with
  | none => ⟨none, [], fleet⟩
  | some i =>
    let did := { fleet with registry := fleet.registry.erase id }.work i fun shared ↦ do
      let (_, shared) ← shared.close
      Act.trace (.engineUnregistered id shared.name)
      return ((), shared)
    ⟨some i, did.journal, did.fleet⟩

/-- Closes the engines in the given berths, one after the other. -/
def closeEach : Fleet σ → List Nat → Done σ Unit
  | fleet, [] => ⟨(), [], fleet⟩
  | fleet, i :: rest =>
    let first := fleet.close i
    let others := first.fleet.closeEach rest
    ⟨(), first.journal ++ others.journal, others.fleet⟩

/-- Takes every identifier out of the registry, closes the engines in the order of the identifiers, and
says how many there were. -/
def closeAll (fleet : Fleet σ) : Done σ Nat :=
  let did := { fleet with registry := fleet.registry.drain }.closeEach
    (fleet.registry.entries.map Prod.snd)
  ⟨fleet.registry.size, did.journal, did.fleet⟩

/-- Holds the engine that is registered under a number, whose berth is the answer. -/
def hold (fleet : Fleet σ) (raw : Nat) : Done σ (Except RegistryError Nat) :=
  match fleet.registry.resolve raw with
  | .error error => ⟨.error error, [], fleet⟩
  | .ok i =>
    ⟨.ok i, [], { fleet with berths := fleet.berths.modify i fun berth ↦ { berth with held := true } }⟩

/-- Lets go of the engine in a berth and says whether it was held. An engine that is not registered
either is taken down. -/
def release (fleet : Fleet σ) (i : Nat) : Done σ Bool :=
  match fleet.held? i with
  | none => ⟨false, [], fleet⟩
  | some berth =>
    let fleet := { fleet with berths := fleet.berths.set i { berth with held := false } }
    if fleet.isRegistered i then ⟨true, [], fleet⟩
    else
      let did := fleet.work i fun shared ↦ do
        let shared ← shared.retire
        return ((), shared)
      ⟨true, did.journal, did.fleet⟩

end Fleet

end EventStaging
