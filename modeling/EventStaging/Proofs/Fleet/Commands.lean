import EventStaging.Fleet
import EventStaging.Proofs.Registry.Entries
import EventStaging.Proofs.Shared.Calls

/-!
# Commands to a fleet

What can be done with a fleet, as data, and a fleet as a system that is given commands. A command is
followed in two places: in the registry (`Fleet.registry_execute`), and in each berth
(`Fleet.scene_execute_of_touches`, `Fleet.scene_execute_of_not_touches`), where the engine only ever
does its own part.
-/

namespace EventStaging

/-- Closes a shared engine, whether or not it is open. -/
def Shared.shutDown {σ : Type} (shared : Shared σ) : Act σ (Shared σ) := Prod.snd <$> shared.close

/-- Closing a closed engine does nothing. -/
theorem Shared.shutDown_of_closed {σ : Type} {shared : Shared σ} (h : shared.engine = none) :
    shared.shutDown = pure shared := by
  rw [shutDown, close_of_closed h]
  rfl

/-- What was shut down is closed. -/
theorem Shared.engine_shutDown {σ : Type} (shared : Shared σ) (host : σ) :
    (shared.shutDown.run host).value.engine = none := by
  cases h : shared.engine with
  | none =>
      rw [shutDown_of_closed h]
      exact h
  | some engine =>
      rw [shutDown, close_of_open h]
      rfl

/-- Closing a second time does nothing. -/
theorem Shared.shutDown_bind_shutDown {σ : Type} (shared : Shared σ) :
    (shared.shutDown >>= Shared.shutDown) = shared.shutDown := by
  refine Act.ext fun host ↦ ?_
  rw [Act.run_bind, shutDown_of_closed (shared.engine_shutDown host), Act.run_pure, List.append_nil]

/-- Shutting down for either of two reasons is doing so for the one and then for the other. -/
theorem Shared.shutDown_or {σ : Type} (p q : Prop) [Decidable p] [Decidable q] :
    (if p ∨ q then shutDown else pure : Shared σ → Act σ (Shared σ)) = fun shared ↦
      (if p then shutDown else pure) shared >>= if q then shutDown else pure := by
  funext shared
  by_cases hp : p <;> by_cases hq : q <;> simp [hp, hq, shutDown_bind_shutDown]

namespace Fleet

variable {σ α β : Type}

/-! ## Commands -/

/-- How a command names an engine: by its berth, through its owner, or by the number under which it
is registered. -/
inductive Access where
  | berth (i : Nat)
  | number (raw : Nat)

/-- What can be done with a fleet: an engine is registered, an identifier or a number is looked up,
an identifier is taken out and its engine closed, or all of them are, the engine of a number is
held, the owner of an engine lets go of it, and something is done with an engine. -/
inductive Command where
  | insert (access : Access)
  | get (id : EngineId)
  | resolve (raw : Nat)
  | remove (id : EngineId)
  | closeAll
  | hold (raw : Nat)
  | release (i : Nat)
  | call (access : Access) (call : Shared.Call)

/-- What a command answers: the identifier that was issued, the engine of an identifier or of a
number, how many identifiers there were, whether the engine was held, and the answer of the engine.
Engines are told by their berths, and no answer stands for no engine. -/
inductive Answer where
  | inserted (id : Option EngineId)
  | found (berth : Option Nat)
  | resolved (result : Except RegistryError Nat)
  | swept (count : Nat)
  | released (held : Bool)
  | called (answer : Option Shared.Answer)

/-- The berth of the engine that is named. An owner who has let go of an engine does not reach it. -/
def reach (fleet : Fleet σ) : Access → Option Nat
  | .berth i => (fleet.held? i).map fun _ ↦ i
  | .number raw => (fleet.registry.resolve raw).toOption

/-- What was done, with another value. -/
def Done.map (f : α → β) (done : Done σ α) : Done σ β := ⟨f done.value, done.journal, done.fleet⟩

/-- Carries a command out by the function of its name. -/
def execute (fleet : Fleet σ) : Command → Done σ Answer
  | .insert access =>
    match fleet.reach access with
    | none => ⟨.inserted none, [], fleet⟩
    | some i => (fleet.register i).map fun id ↦ .inserted (some id)
  | .get id => ⟨.found (fleet.registry.get? id), [], fleet⟩
  | .resolve raw => ⟨.resolved (fleet.registry.resolve raw), [], fleet⟩
  | .remove id => (fleet.remove id).map .found
  | .closeAll => fleet.closeAll.map .swept
  | .hold raw => (fleet.hold raw).map .resolved
  | .release i => (fleet.release i).map .released
  | .call access call =>
    match fleet.reach access with
    | none => ⟨.called none, [], fleet⟩
    | some i => (fleet.work i fun shared ↦ shared.call call).map .called

/-- A fleet as a system that is given commands. -/
def system (σ : Type) : System (Fleet σ) Command Answer Log := fun fleet command ↦
  let done := fleet.execute command
  { answer := done.value, journal := done.journal, state := done.fleet }

variable {fleet : Fleet σ} {berth : Berth σ} {command : Command} {i j : Nat}

/-! ## The registry -/

/-- What is done with an engine does not touch the registry. -/
@[simp] theorem registry_work (fleet : Fleet σ) (i : Nat)
    (action : Shared σ → Act σ (α × Shared σ)) :
    (fleet.work i action).fleet.registry = fleet.registry := by
  unfold work
  split <;> rfl

/-- Closing several engines does not touch the registry. -/
theorem registry_closeEach (fleet : Fleet σ) (berths : List Nat) :
    (fleet.closeEach berths).fleet.registry = fleet.registry := by
  induction berths generalizing fleet with
  | nil => rfl
  | cons i rest ih => exact (ih _).trans (fleet.registry_work i Shared.close)

/-- The registry that a command leaves. Only inserting, removing and closing all change it. -/
theorem registry_execute (fleet : Fleet σ) (command : Command) :
    (fleet.execute command).fleet.registry =
      match command with
      | .insert access =>
        (fleet.reach access).elim fleet.registry fun i ↦ (fleet.registry.insert i).2
      | .remove id => fleet.registry.erase id
      | .closeAll => fleet.registry.drain
      | .get _ | .resolve _ | .hold _ | .release _ | .call _ _ => fleet.registry := by
  -- What is done inside a berth leaves the registry alone, so only the entries are looked at.
  cases command with
  | insert access =>
      simp only [execute]
      cases fleet.reach access with
      | none => rfl
      | some i => exact registry_work ..
  | get => rfl
  | resolve => rfl
  | remove id =>
      simp only [execute, remove]
      cases h : fleet.registry.get? id with
      | none => exact (Registry.erase_eq_self h).symm
      | some i => exact registry_work ..
  | closeAll => exact registry_closeEach ..
  | hold raw =>
      simp only [execute, hold]
      cases fleet.registry.resolve raw <;> rfl
  | release i =>
      simp only [execute, release]
      cases fleet.held? i with
      | none => rfl
      | some berth =>
          simp only
          split
          · rfl
          · exact registry_work ..
  | call access call =>
      simp only [execute]
      cases fleet.reach access with
      | none => rfl
      | some i => exact registry_work ..

/-- What is kept by inserting, by taking one identifier out and by taking all out is kept by every
command. -/
theorem registry_execute_induction {motive : Registry Nat → Prop} (h : motive fleet.registry)
    (insert : ∀ i, motive (fleet.registry.insert i).2)
    (erase : ∀ id, motive (fleet.registry.erase id)) (drain : motive fleet.registry.drain)
    (command : Command) : motive (fleet.execute command).fleet.registry := by
  rw [registry_execute]
  cases command with
  | insert access =>
      simp only
      cases fleet.reach access with
      | none => exact h
      | some i => exact insert i
  | remove id => exact erase id
  | closeAll => exact drain
  | _ => exact h

/-! ## One berth -/

/-- What was observed in a berth. -/
def seen (i : Nat) (log : Log) : Journal :=
  log.filterMap fun entry ↦ if entry.1 = i then some entry.2 else none

/-- What is seen of a berth in two logs in turn is what is seen in the one and then in the other. -/
@[simp] theorem seen_append (i : Nat) (first second : Log) :
    seen i (first ++ second) = seen i first ++ seen i second :=
  List.filterMap_append

/-- Everything that happens in a berth is seen there. -/
theorem seen_self (i : Nat) (journal : Journal) :
    seen i (journal.map fun observation ↦ (i, observation)) = journal := by
  rw [seen, List.filterMap_map]
  simp

/-- Nothing that happens in another berth is seen. -/
theorem seen_of_ne (hne : j ≠ i) (journal : Journal) :
    seen i (journal.map fun observation ↦ (j, observation)) = [] := by
  rw [seen, List.filterMap_map]
  simp [hne]

/-- How a berth is left, and what was observed there. -/
structure Scene (σ : Type) where
  berth : Option (Berth σ)
  journal : Journal

/-- What was done, as far as one berth is concerned. -/
def Done.scene (done : Done σ α) (i : Nat) : Scene σ := ⟨done.fleet.berths[i]?, seen i done.journal⟩

/-- The engine of a berth acts on its host. -/
def play (berth : Berth σ) (act : Shared σ → Act σ (Shared σ)) : Scene σ :=
  let did := (act berth.shared).run berth.host
  ⟨some { berth with shared := did.value, host := did.host }, did.journal⟩

/-- When nothing is done, a berth stays as it is. -/
@[simp] theorem play_pure (berth : Berth σ) : play berth pure = ⟨some berth, []⟩ := rfl

/-- Acting twice. -/
theorem play_bind (berth : Berth σ) (first second : Shared σ → Act σ (Shared σ)) :
    play berth (fun shared ↦ first shared >>= second) =
      let did := (first berth.shared).run berth.host
      let scene := play { berth with shared := did.value, host := did.host } second
      ⟨scene.berth, did.journal ++ scene.journal⟩ := rfl

/-- Several engines are closed one after the other. -/
theorem scene_closeEach_cons (fleet : Fleet σ) (j : Nat) (rest : List Nat) (i : Nat) :
    (fleet.closeEach (j :: rest)).scene i =
      let scene := ((fleet.close j).fleet.closeEach rest).scene i
      ⟨scene.berth, seen i (fleet.close j).journal ++ scene.journal⟩ :=
  congrArg (Scene.mk _) (seen_append ..)

/-- What is done with the engine of a berth takes place there. -/
theorem scene_work_self (h : fleet.berths[i]? = some berth)
    (action : Shared σ → Act σ (α × Shared σ)) :
    (fleet.work i action).scene i = play berth fun shared ↦ Prod.snd <$> action shared := by
  have hlt := (List.getElem?_eq_some_iff.mp h).1
  unfold work
  rw [h]
  simp only [Done.scene, play, seen_self, List.getElem?_set_self hlt]
  rfl

/-- What is done with the engine of one berth leaves every other berth alone. -/
theorem scene_work_of_ne (hne : j ≠ i) (fleet : Fleet σ)
    (action : Shared σ → Act σ (α × Shared σ)) :
    (fleet.work j action).scene i = ⟨fleet.berths[i]?, []⟩ := by
  unfold work
  split
  · rfl
  · simp only [Done.scene, seen_of_ne hne, List.getElem?_set_ne hne]

/-- Work in a berth, seen from any berth. -/
theorem scene_work (h : fleet.berths[i]? = some berth) (j : Nat)
    (action : Shared σ → Act σ (α × Shared σ)) :
    (fleet.work j action).scene i =
      play berth (if i = j then fun shared ↦ Prod.snd <$> action shared else pure) := by
  split
  case isTrue heq =>
      subst heq
      exact scene_work_self h action
  case isFalse hne => rw [scene_work_of_ne (Ne.symm hne), h, play_pure]

/-- Closing engines one after the other closes each of them, once. -/
theorem scene_closeEach (h : fleet.berths[i]? = some berth) (berths : List Nat) :
    (fleet.closeEach berths).scene i = play berth (if i ∈ berths then Shared.shutDown else pure) := by
  induction berths generalizing fleet berth with
  | nil =>
      show Scene.mk fleet.berths[i]? [] = _
      rw [h, if_neg (List.not_mem_nil), play_pure]
  | cons j rest ih =>
      have hfirst := scene_work h j Shared.close
      have hrest := ih (congrArg Scene.berth hfirst)
      have hjournal : seen i (fleet.close j).journal = _ := congrArg Scene.journal hfirst
      simp only [List.mem_cons]
      rw [scene_closeEach_cons, Shared.shutDown_or, play_bind, hjournal]
      exact congrArg (fun scene : Scene σ ↦ Scene.mk scene.berth (_ ++ scene.journal)) hrest

/-! ## The part of one engine -/

/-- Whether the owner of an engine holds it after a command. -/
def holds (fleet : Fleet σ) (i : Nat) (command : Command) (held : Bool) : Bool :=
  match command with
  | .hold raw => held || fleet.reach (.number raw) == some i
  | .release j => held && decide (i ≠ j)
  | .insert _ | .get _ | .resolve _ | .remove _ | .closeAll | .call _ _ => held

/-- A command has the engine in a berth do something. -/
def Touches (fleet : Fleet σ) (i : Nat) : Command → Prop
  | .insert access | .call access _ => fleet.reach access = some i
  | .remove id => fleet.registry.get? id = some i
  | .closeAll => fleet.isRegistered i
  | .release j => i = j ∧ (fleet.held? i).isSome ∧ ¬ fleet.isRegistered i
  | .get _ | .resolve _ | .hold _ => False

/-- What a command has an engine do. -/
def deed (fleet : Fleet σ) (command : Command) (shared : Shared σ) : Act σ (Shared σ) :=
  match command with
  | .insert _ => do
    Act.trace (.engineRegistered fleet.registry.next shared.name)
    return shared
  | .remove id => do
    let shared ← shared.shutDown
    Act.trace (.engineUnregistered id shared.name)
    return shared
  | .closeAll => shared.shutDown
  | .release _ => shared.retire
  | .call _ call => Prod.snd <$> shared.call call
  | .get _ | .resolve _ | .hold _ => pure shared

/-- An engine is registered exactly if some identifier is kept with its berth. -/
theorem isRegistered_iff : fleet.isRegistered i ↔ i ∈ fleet.registry.entries.map Prod.snd := by
  rw [isRegistered, List.any_eq_true, List.mem_map]
  simp

/-- A berth is found through its owner as long as it is held. -/
theorem held?_eq (h : fleet.berths[i]? = some berth) :
    fleet.held? i = if berth.held then some berth else none := by
  rw [held?, h, Option.filter_some]

/-- The owner of a berth finds it exactly if it is held. -/
theorem isSome_held? (h : fleet.berths[i]? = some berth) :
    (fleet.held? i).isSome ↔ berth.held := by
  rw [held?_eq h]
  cases berth.held <;> simp

/-- Holding an engine does nothing with it. -/
theorem scene_hold (h : fleet.berths[i]? = some berth) (raw : Nat) :
    (fleet.hold raw).scene i =
      ⟨some { berth with held := fleet.holds i (.hold raw) berth.held }, []⟩ := by
  unfold hold
  simp only [holds, reach]
  cases fleet.registry.resolve raw with
  | error error =>
      show Scene.mk fleet.berths[i]? [] = ⟨some { berth with held := berth.held || false }, []⟩
      rw [h, Bool.or_false]
  | ok j =>
      show Scene.mk (fleet.berths.modify j _)[i]? [] =
        ⟨some { berth with held := berth.held || j == i }, []⟩
      rw [List.getElem?_modify, h]
      by_cases hj : j = i
      · simp [hj]
      · simp [hj, beq_false_of_ne hj]

/-- An owner who lets go of an engine leaves the others alone. -/
theorem scene_release_of_ne (hne : i ≠ j) (fleet : Fleet σ) :
    (fleet.release j).scene i = ⟨fleet.berths[i]?, []⟩ := by
  unfold release
  cases fleet.held? j with
  | none => rfl
  | some other =>
      have hberths : (fleet.berths.set j { other with held := false })[i]? = fleet.berths[i]? :=
        List.getElem?_set_ne hne.symm
      simp only
      split
      · exact congrArg (Scene.mk · []) hberths
      · exact (scene_work_of_ne hne.symm _ _).trans (congrArg (Scene.mk · []) hberths)

/-- An engine that its owner lets go of is taken down, unless an identifier keeps it. -/
theorem scene_release_self (h : fleet.berths[i]? = some berth) :
    (fleet.release i).scene i =
      play { berth with held := false }
        (if berth.held ∧ ¬ fleet.isRegistered i then Shared.retire else pure) := by
  have hlt := (List.getElem?_eq_some_iff.mp h).1
  unfold release
  rw [held?_eq h]
  cases hheld : berth.held with
  | false =>
      rw [if_neg (by simp), if_neg (by simp), ← hheld]
      exact congrArg (Scene.mk · []) h
  | true =>
      have hberths : (fleet.berths.set i { berth with held := false })[i]? =
          some { berth with held := false } := List.getElem?_set_self hlt
      rw [if_pos rfl]
      simp only [true_and]
      by_cases hregistered : fleet.isRegistered i
      · rw [if_neg (not_not_intro hregistered)]
        exact (congrArg (fun done : Done σ Bool ↦ done.scene i) (if_pos hregistered)).trans
          (congrArg (Scene.mk · []) hberths)
      · rw [if_pos hregistered]
        refine (congrArg (fun done : Done σ Bool ↦ done.scene i) (if_neg hregistered)).trans ?_
        refine (scene_work_self ?_ _).trans (congrArg _ ?_)
        · exact hberths
        · funext shared
          simp

/-- An engine that is touched does what the command has it do. -/
theorem scene_execute_of_touches (h : fleet.berths[i]? = some berth)
    (htouches : fleet.Touches i command) :
    (fleet.execute command).scene i =
      play { berth with held := fleet.holds i command berth.held } (fleet.deed command) := by
  cases command with
  | insert access =>
      simp only [execute, show fleet.reach access = some i from htouches]
      refine scene_work_self ?_ _
      exact h
  | remove id =>
      simp only [execute, remove, show fleet.registry.get? id = some i from htouches]
      refine scene_work_self ?_ _
      exact h
  | closeAll =>
      refine (scene_closeEach ?_ _).trans (congrArg _ (if_pos (isRegistered_iff.mp htouches)))
      exact h
  | release j =>
      obtain ⟨rfl, hheld, hfree⟩ := htouches
      refine (scene_release_self h).trans ?_
      rw [if_pos ⟨(isSome_held? h).mp hheld, hfree⟩]
      simp [holds]
      rfl
  | call access call =>
      simp only [execute, show fleet.reach access = some i from htouches]
      exact scene_work_self h _
  | _ => exact htouches.elim

/-- An engine that is not touched does nothing. -/
theorem scene_execute_of_not_touches (h : fleet.berths[i]? = some berth)
    (htouches : ¬ fleet.Touches i command) :
    (fleet.execute command).scene i =
      ⟨some { berth with held := fleet.holds i command berth.held }, []⟩ := by
  have hsame : Scene.mk fleet.berths[i]? [] = ⟨some berth, []⟩ := congrArg (Scene.mk · []) h
  -- A command that reaches some engine reaches another than this one, whose berth stays as it is.
  cases command with
  | insert access =>
      simp only [execute]
      cases hreach : fleet.reach access with
      | none => exact hsame
      | some j =>
          have hne : j ≠ i := fun heq ↦ htouches (heq ▸ hreach)
          exact (scene_work_of_ne hne _ _).trans hsame
  | remove id =>
      simp only [execute, remove]
      cases hget : fleet.registry.get? id with
      | none => exact hsame
      | some j =>
          have hne : j ≠ i := fun heq ↦ htouches (heq ▸ hget)
          exact (scene_work_of_ne hne _ _).trans hsame
  | closeAll =>
      refine (scene_closeEach ?_ _).trans
        (congrArg _ (if_neg fun hmem ↦ htouches (isRegistered_iff.mpr hmem)))
      exact h
  | hold raw => exact scene_hold h raw
  | release j =>
      by_cases hne : i = j
      · subst hne
        have hnot : ¬ (berth.held ∧ ¬ fleet.isRegistered i) := fun hboth ↦
          htouches ⟨rfl, (isSome_held? h).mpr hboth.1, hboth.2⟩
        refine (scene_release_self h).trans ?_
        rw [if_neg hnot]
        simp [holds]
      · refine (scene_release_of_ne hne fleet).trans (hsame.trans ?_)
        simp [holds, hne]
  | call access call =>
      simp only [execute]
      cases hreach : fleet.reach access with
      | none => exact hsame
      | some j =>
          have hne : j ≠ i := fun heq ↦ htouches (heq ▸ hreach)
          exact (scene_work_of_ne hne _ _).trans hsame
  | _ => exact hsame

end Fleet

end EventStaging
