import EventStaging.Proofs.Fleet.Commands

/-!
# Identifiers in the long run

Over a whole run of a fleet, an identifier that was issued stands for the engine that it was issued
for until it is taken out (`Fleet.Standing`), and for nothing after that. `Fleet.turn_registry` says
what one turn does to the registry, `Fleet.accounts_final` what the registry tells after any run,
and `Fleet.identifiers_lasting` adds that nothing brings an identifier back.
-/

namespace EventStaging

namespace Fleet

variable {σ : Type} {fleet : Fleet σ} {turn : Turn (Fleet σ) Command Answer Log}
  {turns : List (Turn (Fleet σ) Command Answer Log)} {id : EngineId} {i : Nat}

/-- The identifier that a turn issued, and the berth of the engine that it is for. -/
def issue? (turn : Turn (Fleet σ) Command Answer Log) : Option (EngineId × Nat) :=
  match turn.command, turn.answer with
  | .insert access, .inserted id => do return (← id, ← turn.before.reach access)
  | _, _ => none

/-- The identifiers that turns issued, in order. -/
def issued (turns : List (Turn (Fleet σ) Command Answer Log)) : List (EngineId × Nat) :=
  turns.filterMap issue?

/-- A turn takes an identifier out: by itself, or with all others. -/
def TakesOut (turn : Turn (Fleet σ) Command Answer Log) (id : EngineId) : Prop :=
  turn.command = .remove id ∨ turn.command = .closeAll

/-- An identifier was issued for the engine in a berth, and was not taken out since. -/
def Standing (turns : List (Turn (Fleet σ) Command Answer Log)) (id : EngineId) (i : Nat) : Prop :=
  ∃ earlier turn later, turns = earlier ++ turn :: later ∧ issue? turn = some (id, i) ∧
    ∀ other ∈ later, ¬ TakesOut other id

/-- After one more turn an identifier stands for an engine if it was issued in that turn, or stood
before and was not taken out. -/
theorem standing_snoc :
    Standing (turns ++ [turn]) id i ↔
      issue? turn = some (id, i) ∨ Standing turns id i ∧ ¬ TakesOut turn id := by
  constructor
  · rintro ⟨earlier, issuing, later, hturns, hissue, hlater⟩
    -- The issuing turn is the last one, or the last turn is one of those after it.
    rcases later.eq_nil_or_concat' with rfl | ⟨later, last, rfl⟩
    · obtain ⟨-, hlast⟩ := List.append_inj' hturns rfl
      cases hlast
      exact .inl hissue
    · rw [← List.cons_append, ← List.append_assoc] at hturns
      obtain ⟨hinit, hlast⟩ := List.append_inj' hturns rfl
      cases hlast
      refine .inr ⟨⟨earlier, issuing, later, hinit, hissue, ?_⟩, ?_⟩
      · intro other hmem
        exact hlater other (List.mem_append_left _ hmem)
      · exact hlater turn (List.mem_append_right _ (List.mem_singleton_self _))
  · rintro (hissue | ⟨⟨earlier, issuing, later, rfl, hissue, hlater⟩, hlast⟩)
    · refine ⟨turns, turn, [], rfl, hissue, ?_⟩
      intro other hmem
      cases hmem
    · refine ⟨earlier, issuing, later ++ [turn], by simp, hissue, ?_⟩
      intro other hmem
      rcases List.mem_append.mp hmem with hmem | hmem
      · exact hlater other hmem
      · exact List.mem_singleton.mp hmem ▸ hlast

/-! ## One turn -/

/-- Only inserting issues an identifier. -/
theorem issue?_turn (fleet : Fleet σ) (command : Command) :
    issue? ((system σ).turn fleet command) =
      match command with
      | .insert access => (fleet.reach access).map fun i ↦ (fleet.registry.next, i)
      | _ => none := by
  cases command with
  | insert access =>
      cases hreach : fleet.reach access <;>
        simp [issue?, System.turn, system, execute, register, Done.map, Registry.insert, hreach]
  | _ => rfl

/-- A turn issues the next identifier for an engine, or it issues none, and what is registered stays
so unless it is taken out. -/
theorem turn_registry (fleet : Fleet σ) (command : Command) :
    let turn := (system σ).turn fleet command
    (∃ i, issue? turn = some (fleet.registry.next, i) ∧ (∀ id, ¬ TakesOut turn id) ∧
        turn.after.registry = (fleet.registry.insert i).2) ∨
      (issue? turn = none ∧ turn.after.registry.next = fleet.registry.next ∧
        (∀ id, TakesOut turn id → turn.after.registry.get? id = none) ∧
        ∀ id, ¬ TakesOut turn id → turn.after.registry.get? id = fleet.registry.get? id) := by
  intro turn
  have hissue := issue?_turn fleet command
  have hregistry : turn.after.registry = _ := fleet.registry_execute command
  have htakes : ∀ id, TakesOut turn id ↔ command = .remove id ∨ command = .closeAll :=
    fun _ ↦ Iff.rfl
  rw [hissue]
  simp only [htakes]
  cases command with
  | insert access => cases hreach : fleet.reach access <;> simp [hregistry, hreach]
  | remove id =>
      simp only at hregistry
      refine .inr ⟨rfl, by rw [hregistry, Registry.next_erase], ?_, ?_⟩
      · rintro other (heq | heq) <;> cases heq
        rw [hregistry, Registry.get?_erase_self]
      · intro other hother
        rw [hregistry, Registry.get?_erase_of_ne]
        exact fun heq ↦ hother (.inl (heq ▸ rfl))
  | closeAll => simp [hregistry]
  | _ => simp [hregistry]

/-- Every turn leaves a registry well-formed. -/
theorem wellFormed_turn (h : fleet.registry.WellFormed) (command : Command) :
    ((system σ).turn fleet command).after.registry.WellFormed :=
  registry_execute_induction h h.insert h.erase (.drain _) command

/-- Nothing brings a stale identifier back. -/
theorem stale_turn (h : fleet.registry.Stale id) (command : Command) :
    ((system σ).turn fleet command).after.registry.Stale id :=
  registry_execute_induction (motive := (Registry.Stale · id)) h h.insert h.erase h.drain command

/-- What is no longer registered will not be so again. -/
theorem stale_final (h : fleet.registry.Stale id) (commands : List Command) :
    ((system σ).final fleet commands).registry.Stale id := by
  induction commands generalizing fleet with
  | nil => exact h
  | cons command commands ih => exact ih (stale_turn h command)

/-! ## Whole runs -/

/-- A registry in agreement with what turns have issued and taken out. -/
structure Accounts (turns : List (Turn (Fleet σ) Command Answer Log)) (registry : Registry Nat) :
    Prop where
  wellFormed : registry.WellFormed
  issued_eq : (issued turns).map (fun entry ↦ entry.1.raw) = List.range' 1 (issued turns).length
  next_eq : registry.next.raw = (issued turns).length + 1
  get?_iff : ∀ id i, registry.get? id = some i ↔ Standing turns id i

/-- A new registry accounts for no turns. -/
theorem Accounts.empty : Accounts ([] : List (Turn (Fleet σ) Command Answer Log)) {} where
  wellFormed := .empty
  issued_eq := rfl
  next_eq := rfl
  get?_iff := by
    intro id i
    constructor
    · intro h
      cases h
    · rintro ⟨earlier, turn, later, hturns, -⟩
      simp at hturns

/-- Every turn is accounted for. -/
theorem Accounts.snoc (h : Accounts turns fleet.registry) (command : Command) :
    Accounts (turns ++ [(system σ).turn fleet command])
      ((system σ).turn fleet command).after.registry := by
  have hwellFormed := wellFormed_turn h.wellFormed command
  obtain ⟨i, hissue, htakes, hregistry⟩ | ⟨hissue, hnext, htakes, hkept⟩ :=
    turn_registry fleet command
  · have hissued : issued (turns ++ [(system σ).turn fleet command]) =
        issued turns ++ [(fleet.registry.next, i)] := by
      rw [issued, List.filterMap_append, List.filterMap_cons_some hissue]
      rfl
    refine ⟨hwellFormed, ?_, ?_, ?_⟩
    · rw [hissued, List.map_append, h.issued_eq, List.length_append, List.length_singleton,
        List.range'_1_concat, List.map_singleton, h.next_eq, Nat.add_comm 1]
    · rw [hissued, hregistry, List.length_append]
      exact congrArg (· + 1) h.next_eq
    · intro id k
      have hfresh := h.wellFormed.get?_eq_none (Nat.le_refl fleet.registry.next.raw)
      rw [standing_snoc, hissue, hregistry, ← h.get?_iff]
      -- The number handed out is a fresh one: nothing stood under it before.
      by_cases hid : id = fleet.registry.next
      · subst hid
        rw [Registry.get?_insert_self hfresh, hfresh]
        simp
      · rw [Registry.get?_insert_of_ne hid]
        simp [htakes, Ne.symm hid]
  · have hissued : issued (turns ++ [(system σ).turn fleet command]) = issued turns := by
      rw [issued, List.filterMap_append, List.filterMap_cons_none hissue]
      exact List.append_nil _
    refine ⟨hwellFormed, ?_, ?_, ?_⟩
    · rw [hissued, h.issued_eq]
    · rw [hissued, hnext, h.next_eq]
    · intro id k
      rw [standing_snoc, hissue, ← h.get?_iff]
      by_cases hid : TakesOut ((system σ).turn fleet command) id
      · simp [hid, htakes id hid]
      · simp [hid, hkept id hid]

/-- The registry of a fleet accounts for all turns of a run. -/
theorem accounts_final (berths : List (Berth σ)) (commands : List Command) :
    Accounts ((system σ).history { berths } commands)
      ((system σ).final { berths } commands).registry :=
  System.run_induction (motive := fun turns fleet ↦ Accounts turns fleet.registry) .empty
    (fun _ _ command h ↦ h.snoc command) commands

/-- What a registry tells of every number after some turns. The identifiers issued are numbered from
one on, in order. A number names an engine as long as its identifier stands for that engine, and so
does the identifier. A number names nothing if its identifier stands for nothing or was not issued,
and zero is the number of no identifier. The size is the number of the identifiers issued that name
an engine. -/
structure Tells (turns : List (Turn (Fleet σ) Command Answer Log)) (registry : Registry Nat) :
    Prop where
  issued_eq : (issued turns).map (fun entry ↦ entry.1.raw) = List.range' 1 (issued turns).length
  resolve_iff : ∀ raw i, registry.resolve raw = .ok i ↔ ∃ id, id.raw = raw ∧ Standing turns id i
  get?_eq : ∀ id, registry.get? id = (registry.resolve id.raw).toOption
  resolve_eq_unknown : ∀ raw, (∀ id i, id.raw = raw → ¬ Standing turns id i) →
    registry.resolve raw = .error (.unknown raw)
  resolve_unissued : ∀ raw, (∀ entry ∈ issued turns, entry.1.raw ≠ raw) →
    registry.resolve raw = .error (.unknown raw)
  zero : EngineId.ofRaw? 0 = none ∧ registry.resolve 0 = .error (.unknown 0)
  size_eq : registry.size = (issued turns).countP fun entry ↦ (registry.get? entry.1).isSome

/-- An identifier that stands for an engine was issued. -/
theorem Standing.mem_issued (h : Standing turns id i) : (id, i) ∈ issued turns := by
  obtain ⟨earlier, turn, later, rfl, hissue, -⟩ := h
  exact List.mem_filterMap.mpr ⟨turn, List.mem_append_right _ List.mem_cons_self, hissue⟩

/-- A registry that accounts for the turns tells of every number what they made of it. -/
theorem Accounts.tells {registry : Registry Nat} (h : Accounts turns registry) :
    Tells turns registry := by
  have hresolve : ∀ raw i,
      registry.resolve raw = .ok i ↔ ∃ id, id.raw = raw ∧ Standing turns id i := by
    intro raw i
    simp only [Registry.resolve_eq_ok_iff, h.get?_iff]
  have hunknown : ∀ raw, (∀ id i, id.raw = raw → ¬ Standing turns id i) →
      registry.resolve raw = .error (.unknown raw) := by
    intro raw hnot
    refine Registry.resolve_eq_error_iff.mpr ⟨rfl, ?_⟩
    intro i hok
    obtain ⟨id, hid, hstanding⟩ := (hresolve raw i).mp hok
    exact hnot id i hid hstanding
  refine ⟨h.issued_eq, hresolve, registry.get?_eq_toOption_resolve, hunknown, ?_, ⟨rfl, ?_⟩, ?_⟩
  · intro raw hnot
    refine hunknown raw fun id i hid hstanding ↦ ?_
    exact hnot (id, i) hstanding.mem_issued hid
  · refine hunknown 0 fun id i hid _ ↦ ?_
    exact absurd id.raw_pos (hid ▸ Nat.lt_irrefl 0)
  -- Numbers are given out in order from one, so those issued are all numbers below the next.
  · rw [h.wellFormed.size_eq_countP, h.next_eq, Nat.add_sub_cancel, ← h.issued_eq,
      List.countP_map]
    refine List.countP_congr fun entry _ ↦ ?_
    rw [registry.get?_eq_toOption_resolve]
    simp only [Function.comp_apply]
    cases registry.resolve entry.1.raw <;> simp [Except.toOption, Except.isOk, Except.toBool]

/-- An identifier names the engine that it was issued for until it is taken out, and nothing from
then on. After any commands, whatever they did to the engines themselves, the registry tells of every
number whether its identifier still stands, and for which engine. An identifier that names nothing
any more names nothing after any further commands either. Looking up answers as the registry tells,
closing all answers how many identifiers there were, and nothing that is done with an engine, be it
closed or let go of, changes what is registered. -/
theorem identifiers_lasting (berths : List (Berth σ)) (commands further : List Command) :
    let turns := (system σ).history { berths } commands
    let fleet := (system σ).final { berths } commands
    Tells turns fleet.registry ∧
      (∀ entry ∈ issued turns, fleet.registry.get? entry.1 = none →
        ((system σ).final fleet further).registry.get? entry.1 = none) ∧
      (∀ id, ((system σ).turn fleet (.get id)).answer = .found (fleet.registry.get? id)) ∧
      (∀ raw, ((system σ).turn fleet (.resolve raw)).answer =
        .resolved (fleet.registry.resolve raw)) ∧
      ((system σ).turn fleet .closeAll).answer = .swept fleet.registry.size ∧
      (∀ access call, ((system σ).turn fleet (.call access call)).after.registry =
        fleet.registry) ∧
      ∀ i, ((system σ).turn fleet (.release i)).after.registry = fleet.registry := by
  intro turns fleet
  have haccounts : Accounts turns fleet.registry := accounts_final berths commands
  refine ⟨haccounts.tells, ?_, fun _ ↦ rfl, fun _ ↦ rfl, rfl, ?_, ?_⟩
  · intro entry hmem hnone
    have hraw : entry.1.raw ∈ List.range' 1 (issued turns).length :=
      haccounts.issued_eq ▸ List.mem_map_of_mem hmem
    have hlt : entry.1.raw < fleet.registry.next.raw := by
      have := haccounts.next_eq
      have := (List.mem_range'_1.mp hraw).2
      omega
    exact (stale_final ⟨hlt, hnone⟩ further).get?_eq
  · exact fun access call ↦ fleet.registry_execute (.call access call)
  · exact fun i ↦ fleet.registry_execute (.release i)

end Fleet

end EventStaging
