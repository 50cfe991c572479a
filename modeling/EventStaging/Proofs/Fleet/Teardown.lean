import EventStaging.Proofs.Engine.Traits
import EventStaging.Proofs.Fleet.Identifiers

/-!
# One teardown for every engine

Four things end an engine: it is closed directly, one of its identifiers is removed, all are closed
while it is registered, or the last who keeps it lets go of it (`Fleet.Ends`). `Fleet.deed_of_ends`,
`Fleet.deed_of_not_ends` and `Fleet.deed_of_closed` say what the engine does in each case, and
`Fleet.torn_down_once` that over a whole run the first of these things takes the engine down, and
nothing else ever does.
-/

namespace EventStaging

open Act (Only)

namespace Shared

variable {σ : Type} {shared : Shared σ} {engine : Engine σ}

/-- An open engine is retired and reported as closed. -/
theorem run_shutDown_of_open (h : shared.engine = some engine) (host : σ) :
    shared.shutDown.run host =
      ⟨{ shared with engine := none },
        (engine.retire.run host).journal ++ [.traced (.engineClosed shared.name)],
        (engine.retire.run host).host⟩ := by
  rw [shutDown, close_of_open h]
  rfl

/-- An open engine is taken down, and nothing is reported about its being closed. -/
theorem run_retire_of_open (h : shared.engine = some engine) (host : σ) :
    shared.retire.run host =
      ⟨{ shared with engine := none }, (engine.retire.run host).journal,
        (engine.retire.run host).host⟩ := by
  rw [retire_of_open h, Act.run_bind]
  exact congrArg (Done.mk _ · _) (List.append_nil _)

end Shared

namespace Fleet

variable {σ : Type} {fleet : Fleet σ} {berth : Berth σ} {engine : Engine σ} {i : Nat}
  {command : Command} {turn : Turn (Fleet σ) Command Answer Log}
  {turns : List (Turn (Fleet σ) Command Answer Log)}

/-- A command ends the engine in a berth, if it is still open: the engine is closed directly, an
identifier of it is removed, all engines are closed and it is registered, or its owner lets go of it
and no identifier keeps it. -/
inductive Ends (fleet : Fleet σ) (i : Nat) : Command → Prop where
  | close {access : Access} (hreach : fleet.reach access = some i) : Ends fleet i (.call access .close)
  | remove {id : EngineId} (hget : fleet.registry.get? id = some i) : Ends fleet i (.remove id)
  | closeAll (hregistered : fleet.isRegistered i) : Ends fleet i .closeAll
  | release (hheld : (fleet.held? i).isSome) (hfree : ¬ fleet.isRegistered i) :
    Ends fleet i (.release i)

/-! ## What an engine does in a turn -/

/-- What ends an engine touches its berth. -/
theorem Ends.touches (h : fleet.Ends i command) : fleet.Touches i command := by
  cases h with
  | close hreach => exact hreach
  | remove hget => exact hget
  | closeAll hregistered => exact hregistered
  | release hheld hfree => exact ⟨rfl, hheld, hfree⟩

/-- An engine that is ended is retired; beside that, only trace events are reported. -/
theorem deed_of_ends (h : berth.shared.engine = some engine) (hends : fleet.Ends i command) :
    ∃ events : List Trace.Event, ∀ host, (fleet.deed command berth.shared).run host =
      ⟨{ berth.shared with engine := none },
        (engine.retire.run host).journal ++ events.map .traced, (engine.retire.run host).host⟩ := by
  have hshut := Shared.run_shutDown_of_open h
  cases hends with
  | close => exact ⟨[.engineClosed berth.shared.name], hshut⟩
  | @remove id hget =>
      refine ⟨[.engineClosed berth.shared.name, .engineUnregistered id berth.shared.name],
        fun host ↦ ?_⟩
      simp [deed, Act.run_bind, hshut]
  | closeAll => exact ⟨[.engineClosed berth.shared.name], hshut⟩
  | release =>
      refine ⟨[], fun host ↦ ?_⟩
      rw [List.map_nil, List.append_nil]
      exact Shared.run_retire_of_open h host

/-- An engine that is touched but not ended stays open, and does not say that it goes. -/
theorem deed_of_not_ends (h : berth.shared.engine = some engine)
    (htouches : fleet.Touches i command) (hends : ¬ fleet.Ends i command) (host : σ) :
    let did := (fleet.deed command berth.shared).run host
    did.value.engine.isSome ∧ did.journal.Only Engine.isOngoing := by
  cases command with
  | insert access =>
      refine ⟨Option.isSome_iff_exists.mpr ⟨engine, h⟩, ?_⟩
      exact (Only.bind (Only.observe rfl) fun _ ↦ Only.pure _) host
  | remove id => exact absurd (.remove htouches) hends
  | closeAll => exact absurd (.closeAll htouches) hends
  | release j =>
      obtain ⟨rfl, hheld, hfree⟩ := htouches
      exact absurd (.release hheld hfree) hends
  | call access call =>
      cases call with
      | close => exact absurd (.close htouches) hends
      | perform op =>
          intro did
          simp only [did, deed, Shared.call, Shared.perform_of_open h]
          exact ⟨rfl, engine.ongoing_apply op host⟩
  | _ => exact htouches.elim

/-- An engine that has been taken down is left as it is; only trace events are reported. -/
theorem deed_of_closed (fleet : Fleet σ) (h : berth.shared.engine = none) (command : Command) :
    ∃ events : List Trace.Event, ∀ host, (fleet.deed command berth.shared).run host =
      ⟨berth.shared, events.map .traced, host⟩ := by
  cases command with
  | insert access =>
      exact ⟨[.engineRegistered fleet.registry.next berth.shared.name], fun _ ↦ rfl⟩
  | remove id =>
      refine ⟨[.engineUnregistered id berth.shared.name], fun host ↦ ?_⟩
      rw [deed, Shared.shutDown_of_closed h]
      rfl
  | closeAll =>
      rw [deed, Shared.shutDown_of_closed h]
      exact ⟨[], fun _ ↦ rfl⟩
  | release j =>
      rw [deed, Shared.retire_of_closed h]
      exact ⟨[], fun _ ↦ rfl⟩
  | call access call =>
      rw [deed, Shared.call_of_closed h]
      exact ⟨[], fun _ ↦ rfl⟩
  | _ => exact ⟨[], fun _ ↦ rfl⟩

/-! ## The turns of an engine -/

/-- The engine in a berth, until it is taken down. -/
def engine? (fleet : Fleet σ) (i : Nat) : Option (Engine σ) :=
  fleet.berths[i]?.bind fun berth ↦ berth.shared.engine

/-- A turn that does not end the engine in a berth. It is open afterwards, and has logged no parting
line. -/
structure Works (i : Nat) (turn : Turn (Fleet σ) Command Answer Log) : Prop where
  not_ends : ¬ turn.before.Ends i turn.command
  isOpen : (turn.after.engine? i).isSome
  ongoing : (seen i turn.journal).Only Engine.isOngoing

/-- A turn that takes the engine in a berth down. It logs that it goes, and how many records go with
it if there are any; the handler, the filter and the observer are not called. -/
structure TornDown (i : Nat) (turn : Turn (Fleet σ) Command Answer Log) : Prop where
  ends : turn.before.Ends i turn.command
  lines_eq : ∃ engine, turn.before.engine? i = some engine ∧
    (seen i turn.journal).lines = engine.farewell
  quiet : (seen i turn.journal).Only Observation.isReport
  closed : ∃ berth, turn.after.berths[i]? = some berth ∧ berth.shared.engine = none

/-- A turn after the engine in a berth was taken down. What is shared and the host stay as they are,
and no callback is called, not even the sink. -/
structure Rests (i : Nat) (turn : Turn (Fleet σ) Command Answer Log) : Prop where
  kept : ∃ berth held, berth.shared.engine = none ∧ turn.before.berths[i]? = some berth ∧
    turn.after.berths[i]? = some { berth with held }
  traced : ∃ events : List Trace.Event, seen i turn.journal = events.map .traced

/-- What a turn does in a berth is what its command does there. -/
theorem turn_of_scene {scene : Scene σ} (h : (fleet.execute command).scene i = scene) :
    ((system σ).turn fleet command).after.berths[i]? = scene.berth ∧
      seen i ((system σ).turn fleet command).journal = scene.journal :=
  ⟨congrArg Scene.berth h, congrArg Scene.journal h⟩

/-- A turn that does not end an open engine is work for it. -/
theorem works_turn (h : fleet.berths[i]? = some berth) (hopen : berth.shared.engine = some engine)
    (hends : ¬ fleet.Ends i command) : Works i ((system σ).turn fleet command) := by
  by_cases htouches : fleet.Touches i command
  · obtain ⟨hberth, hseen⟩ := turn_of_scene (scene_execute_of_touches h htouches)
    obtain ⟨hisSome, hongoing⟩ := deed_of_not_ends hopen htouches hends berth.host
    refine ⟨hends, ?_, ?_⟩
    · rw [engine?, hberth]
      exact hisSome
    · rw [hseen]
      exact hongoing
  · obtain ⟨hberth, hseen⟩ := turn_of_scene (scene_execute_of_not_touches h htouches)
    refine ⟨hends, ?_, ?_⟩
    · rw [engine?, hberth]
      exact Option.isSome_iff_exists.mpr ⟨engine, hopen⟩
    · rw [hseen]
      exact .nil

/-- A turn that ends an open engine takes it down. -/
theorem tornDown_turn (h : fleet.berths[i]? = some berth)
    (hopen : berth.shared.engine = some engine) (hends : fleet.Ends i command) :
    TornDown i ((system σ).turn fleet command) := by
  obtain ⟨events, hdeed⟩ := deed_of_ends hopen hends
  obtain ⟨hberth, hseen⟩ := turn_of_scene (scene_execute_of_touches h hends.touches)
  simp only [play, hdeed] at hberth hseen
  refine ⟨hends, ⟨engine, ?_, ?_⟩, ?_, ?_⟩
  · exact (congrArg (Option.bind · _) h).trans hopen
  · rw [hseen, Journal.lines_append, Engine.lines_retire, Journal.lines_traced, List.append_nil]
  · rw [hseen]
    exact (engine.quiet_retire berth.host).append (.traced events)
  · exact ⟨_, hberth, rfl⟩

/-- A closed engine rests in every turn. -/
theorem rests_turn (h : fleet.berths[i]? = some berth) (hclosed : berth.shared.engine = none)
    (command : Command) : Rests i ((system σ).turn fleet command) := by
  by_cases htouches : fleet.Touches i command
  · obtain ⟨events, hdeed⟩ := fleet.deed_of_closed hclosed command
    obtain ⟨hberth, hseen⟩ := turn_of_scene (scene_execute_of_touches h htouches)
    simp only [play, hdeed] at hberth hseen
    exact ⟨⟨berth, _, hclosed, h, hberth⟩, events, hseen⟩
  · obtain ⟨hberth, hseen⟩ := turn_of_scene (scene_execute_of_not_touches h htouches)
    exact ⟨⟨berth, _, hclosed, h, hberth⟩, [], hseen⟩

/-- Once taken down, an engine rests for good. -/
theorem rests_history (h : fleet.berths[i]? = some berth) (hclosed : berth.shared.engine = none)
    (commands : List Command) : ∀ turn ∈ (system σ).history fleet commands, Rests i turn := by
  induction commands generalizing fleet berth with
  | nil =>
      intro turn hmem
      cases hmem
  | cons command commands ih =>
      have hfirst := rests_turn h hclosed command
      intro turn hmem
      rcases List.mem_cons.mp hmem with rfl | hmem
      · exact hfirst
      · obtain ⟨before, held, hnone, -, hafter⟩ := hfirst.kept
        exact ih hafter hnone turn hmem

/-- The turns of an engine: it works throughout, or until it is torn down, and then rests. -/
def Lives (i : Nat) (turns : List (Turn (Fleet σ) Command Answer Log)) : Prop :=
  (∀ turn ∈ turns, Works i turn) ∨
    ∃ earlier down later, turns = earlier ++ down :: later ∧ (∀ turn ∈ earlier, Works i turn) ∧
      TornDown i down ∧ ∀ turn ∈ later, Rests i turn

/-- An open engine works up to the turn that ends it, in which it is taken down, and rests from then
on. -/
theorem lives_history (h : fleet.engine? i = some engine) (commands : List Command) :
    Lives i ((system σ).history fleet commands) := by
  induction commands generalizing fleet engine with
  | nil => exact .inl fun turn hmem ↦ absurd hmem List.not_mem_nil
  | cons command commands ih =>
      obtain ⟨berth, hberth, hopen⟩ := Option.bind_eq_some_iff.mp h
      by_cases hends : fleet.Ends i command
      · have hdown := tornDown_turn hberth hopen hends
        obtain ⟨left, hleft, hclosed⟩ := hdown.closed
        refine .inr ⟨[], _, _, rfl, fun turn hmem ↦ absurd hmem List.not_mem_nil, hdown, ?_⟩
        exact rests_history hleft hclosed commands
      · have hworks := works_turn hberth hopen hends
        obtain ⟨next, hnext⟩ := Option.isSome_iff_exists.mp hworks.isOpen
        rcases ih hnext with hall | ⟨earlier, down, later, hturns, hearlier, hdown, hlater⟩
        · exact .inl (List.forall_mem_cons.mpr ⟨hworks, hall⟩)
        · exact .inr ⟨_ :: earlier, down, later, congrArg (_ :: ·) hturns,
            List.forall_mem_cons.mpr ⟨hworks, hearlier⟩, hdown, hlater⟩

/-! ## Engines that are found -/

/-- Nobody keeps the engine in a berth. -/
structure Abandoned (fleet : Fleet σ) (i : Nat) : Prop where
  not_held : fleet.held? i = none
  not_registered : ¬ fleet.isRegistered i

/-- An engine that an identifier names is registered. -/
theorem isRegistered_of_get? {id : EngineId} (h : fleet.registry.get? id = some i) :
    fleet.isRegistered i := by
  obtain ⟨earlier, later, hentries, -⟩ := List.lookup_eq_some_iff.mp h
  rw [isRegistered_iff, hentries]
  simp

/-- A registered engine is named by an identifier. -/
theorem exists_get?_of_isRegistered (hwellFormed : fleet.registry.WellFormed)
    (h : fleet.isRegistered i) : ∃ id, fleet.registry.get? id = some i := by
  obtain ⟨⟨id, _⟩, hmem, rfl⟩ := List.mem_map.mp (isRegistered_iff.mp h)
  exact ⟨id, hwellFormed.get?_eq_some_iff.mpr hmem⟩

/-- An engine that nobody keeps is out of reach. -/
theorem Abandoned.reach_ne (h : fleet.Abandoned i) (access : Access) :
    fleet.reach access ≠ some i := by
  intro hreach
  cases access with
  | berth j =>
      obtain ⟨berth, hheld, rfl⟩ := Option.map_eq_some_iff.mp hreach
      rw [h.not_held] at hheld
      cases hheld
  | number raw =>
      cases hresolve : fleet.registry.resolve raw with
      | error error => simp [reach, hresolve, Except.toOption] at hreach
      | ok j =>
          obtain ⟨id, -, hget⟩ := Registry.resolve_eq_ok_iff.mp hresolve
          have hj : j = i := by simpa [reach, hresolve, Except.toOption] using hreach
          exact h.not_registered (isRegistered_of_get? (hj ▸ hget))

/-- Every turn keeps the berths, and whether an engine is held changes as `holds` says. -/
theorem exists_berth_turn (h : fleet.berths[i]? = some berth) (command : Command) :
    ∃ next, ((system σ).turn fleet command).after.berths[i]? = some next ∧
      next.held = fleet.holds i command berth.held := by
  by_cases htouches : fleet.Touches i command
  · exact ⟨_, (turn_of_scene (scene_execute_of_touches h htouches)).1, rfl⟩
  · exact ⟨_, (turn_of_scene (scene_execute_of_not_touches h htouches)).1, rfl⟩

/-- An engine that nobody keeps is not kept again. -/
theorem abandoned_turn (h : fleet.berths[i]? = some berth) (habandoned : fleet.Abandoned i)
    (command : Command) : ((system σ).turn fleet command).after.Abandoned i := by
  constructor
  -- Only an identifier or a holder could hold it anew, and neither reaches it any more.
  · obtain ⟨next, hnext, hheld⟩ := exists_berth_turn h command
    have hnot : berth.held = false := by
      rw [← Bool.not_eq_true, ← isSome_held? h, habandoned.not_held]
      simp
    have hholds : fleet.holds i command berth.held = false := by
      rw [hnot]
      cases command with
      | hold raw => simp [holds, habandoned.reach_ne]
      | _ => rfl
    rw [held?_eq hnext, hheld, hholds]
    rfl
  · show ¬ (fleet.execute command).fleet.isRegistered i
    rw [isRegistered_iff, registry_execute]
    have hnot := habandoned.not_registered
    rw [isRegistered_iff] at hnot
    cases command with
    | insert access =>
        simp only
        cases hreach : fleet.reach access with
        | none => exact hnot
        | some j =>
            have hne : i ≠ j := fun heq ↦ habandoned.reach_ne access (heq ▸ hreach)
            simpa [Registry.insert, hne] using hnot
    | remove id =>
        intro hmem
        obtain ⟨entry, hentry, rfl⟩ := List.mem_map.mp hmem
        exact hnot (List.mem_map_of_mem (List.mem_of_mem_filter hentry))
    | closeAll => exact List.not_mem_nil
    | _ => exact hnot

/-- A turn closed the engine in a berth directly. -/
def ClosesDirectly (turn : Turn (Fleet σ) Command Answer Log) (i : Nat) : Prop :=
  ∃ access, turn.command = .call access .close ∧ turn.before.reach access = some i

/-- A turn took an identifier of the engine in a berth out. -/
def Unregisters (turn : Turn (Fleet σ) Command Answer Log) (id : EngineId) (i : Nat) : Prop :=
  TakesOut turn id ∧ turn.before.registry.get? id = some i

/-- A turn that ends an engine closes it directly, or takes one of its identifiers out, or leaves
it abandoned. -/
theorem ends_cases (hwellFormed : fleet.registry.WellFormed) (h : fleet.berths[i]? = some berth)
    (hends : fleet.Ends i command) :
    let turn := (system σ).turn fleet command
    ClosesDirectly turn i ∨ (∃ id, Unregisters turn id i) ∨ turn.after.Abandoned i := by
  intro turn
  cases hends with
  | @close access hreach => exact .inl ⟨access, rfl, hreach⟩
  | @remove id hget => exact .inr (.inl ⟨id, .inl rfl, hget⟩)
  | closeAll hregistered =>
      obtain ⟨id, hget⟩ := exists_get?_of_isRegistered hwellFormed hregistered
      exact .inr (.inl ⟨id, .inr rfl, hget⟩)
  | release hheld hfree =>
      refine .inr (.inr ⟨?_, ?_⟩)
      · obtain ⟨next, hnext, hholds⟩ := exists_berth_turn h (.release i)
        rw [held?_eq hnext, hholds]
        simp [holds]
      · show ¬ (fleet.execute (.release i)).fleet.isRegistered i
        rw [isRegistered, registry_execute]
        exact hfree

/-- An identifier that a turn takes out is stale afterwards. -/
theorem stale_of_unregisters {id : EngineId} (hwellFormed : fleet.registry.WellFormed)
    (h : Unregisters ((system σ).turn fleet command) id i) :
    ((system σ).turn fleet command).after.registry.Stale id := by
  obtain ⟨htakes, hget⟩ := h
  have hlt := hwellFormed.below _ (hwellFormed.get?_eq_some_iff.mp hget)
  obtain ⟨j, -, hnone, -⟩ | ⟨-, hnext, hout, -⟩ := turn_registry fleet command
  · exact absurd htakes (hnone id)
  · exact ⟨hnext ▸ hlt, hout id htakes⟩

/-- What became of the engine in a berth: it is open, or out of reach, or one of the turns closed it,
directly or by taking out an identifier, which names nothing any more. -/
structure Explained (i : Nat) (turns : List (Turn (Fleet σ) Command Answer Log))
    (fleet : Fleet σ) : Prop where
  wellFormed : fleet.registry.WellFormed
  stale : ∀ turn ∈ turns, ∀ id, Unregisters turn id i → fleet.registry.Stale id
  berth : ∃ berth, fleet.berths[i]? = some berth
  fate : (fleet.engine? i).isSome ∨ fleet.Abandoned i ∨
    ∃ turn ∈ turns, ClosesDirectly turn i ∨ ∃ id, Unregisters turn id i

/-- One more turn is explained as well. -/
theorem Explained.snoc (h : Explained i turns fleet) (command : Command) :
    Explained i (turns ++ [(system σ).turn fleet command])
      ((system σ).turn fleet command).after := by
  obtain ⟨berth, hberth⟩ := h.berth
  obtain ⟨next, hnext, -⟩ := exists_berth_turn hberth command
  have hlast : (system σ).turn fleet command ∈ turns ++ [(system σ).turn fleet command] :=
    List.mem_append_right _ (List.mem_singleton_self _)
  refine ⟨wellFormed_turn h.wellFormed command, ?_, ⟨next, hnext⟩, ?_⟩
  · intro turn hmem id hout
    rcases List.mem_append.mp hmem with hmem | hmem
    · exact stale_turn (h.stale turn hmem id hout) command
    · obtain rfl := List.mem_singleton.mp hmem
      exact stale_of_unregisters h.wellFormed hout
  -- What has become of the engine so far decides what this turn can still change.
  · rcases h.fate with hopen | habandoned | ⟨turn, hmem, hcloses⟩
    · obtain ⟨engine, hengine⟩ := Option.isSome_iff_exists.mp hopen
      obtain ⟨_, hsame, hengine⟩ := Option.bind_eq_some_iff.mp hengine
      by_cases hends : fleet.Ends i command
      · rcases ends_cases h.wellFormed hberth hends with hdirect | hout | habandoned
        · exact .inr (.inr ⟨_, hlast, .inl hdirect⟩)
        · exact .inr (.inr ⟨_, hlast, .inr hout⟩)
        · exact .inr (.inl habandoned)
      · exact .inl (works_turn hsame hengine hends).isOpen
    · exact .inr (.inl (abandoned_turn hberth habandoned command))
    · exact .inr (.inr ⟨turn, List.mem_append_left _ hmem, hcloses⟩)

/-- An engine that an identifier names is open, unless a turn closed it directly or took another of
its identifiers out. -/
theorem Explained.open_of_get? {id : EngineId} (h : Explained i turns fleet)
    (hget : fleet.registry.get? id = some i) :
    (fleet.engine? i).isSome ∨ ∃ turn ∈ turns, ClosesDirectly turn i ∨
      ∃ other, other ≠ id ∧ Unregisters turn other i := by
  rcases h.fate with hopen | habandoned | ⟨turn, hmem, hdirect | ⟨other, hout⟩⟩
  · exact .inl hopen
  · exact absurd (isRegistered_of_get? hget) habandoned.not_registered
  · exact .inr ⟨turn, hmem, .inl hdirect⟩
  · refine .inr ⟨turn, hmem, .inr ⟨other, ?_, hout⟩⟩
    rintro rfl
    rw [(h.stale turn hmem other hout).get?_eq] at hget
    cases hget

/-! ## Whole runs -/

/-- Open engines with their hosts, each held by its owner, and none of them registered. -/
def launch (engines : List (Engine σ × σ)) : Fleet σ where
  berths := engines.map fun entry ↦ { shared := .ofEngine entry.1, host := entry.2 }

/-- Each engine has the berth of its number when a fleet is launched. -/
theorem berths_launch (engines : List (Engine σ × σ)) (i : Fin engines.length) :
    (launch engines).berths[i.val]? =
      some { shared := .ofEngine engines[i].1, host := engines[i].2 } := by
  simp [launch]

/-- Each engine is open when a fleet is launched. -/
theorem engine?_launch (engines : List (Engine σ × σ)) (i : Fin engines.length) :
    (launch engines).engine? i = some engines[i].1 := by
  rw [engine?, berths_launch]
  rfl

/-- What became of an engine is explained by the turns of the run. -/
theorem explained_final (engines : List (Engine σ × σ)) (i : Fin engines.length)
    (commands : List Command) :
    Explained i ((system σ).history (launch engines) commands)
      ((system σ).final (launch engines) commands) := by
  refine System.run_induction (motive := Explained i) ?_ (fun _ _ command h ↦ h.snoc command) _
  exact ⟨.empty, fun turn hmem ↦ absurd hmem List.not_mem_nil, ⟨_, berths_launch engines i⟩,
    .inl (Option.isSome_iff_exists.mpr ⟨_, engine?_launch engines i⟩)⟩

/-- A turn looks an identifier up, or its number, and finds the engine in a berth. -/
def Finds (turn : Turn (Fleet σ) Command Answer Log) (id : EngineId) (i : Nat) : Prop :=
  turn.command = .get id ∧ turn.answer = .found (some i) ∨
    turn.command = .resolve id.raw ∧ turn.answer = .resolved (.ok i)

/-- What a lookup finds is what the registry names. -/
theorem get?_of_finds {id : EngineId} (h : Finds ((system σ).turn fleet command) id i) :
    fleet.registry.get? id = some i := by
  rcases h with ⟨hcommand, hanswer⟩ | ⟨hcommand, hanswer⟩
  · obtain rfl : command = .get id := hcommand
    exact Answer.found.inj hanswer
  · obtain rfl : command = .resolve id.raw := hcommand
    rw [Registry.get?_eq_toOption_resolve, Answer.resolved.inj hanswer]
    rfl

/-- Every engine is torn down once, at the first thing that ends it, and at nothing else. Up to there
it is open and logs no parting line; there it logs that it goes, and how many records go with it if
there are any, without a call of its handler, filter or observer; from then on nothing that is done,
be it closing it again through another identifier, through its owner or with all others, changes it
or its host or calls any of its callbacks, the sink included. So an engine that is found under an
identifier is open, unless an earlier turn closed it directly or took another of its identifiers
out. And what is done with another engine leaves this one as it is, and is not observed there. -/
theorem torn_down_once (engines : List (Engine σ × σ)) (i : Fin engines.length)
    (commands : List Command) :
    let turns := (system σ).history (launch engines) commands
    Lives i turns ∧
      (∀ earlier turn later, turns = earlier ++ turn :: later → ∀ id, Finds turn id i →
        (turn.before.engine? i).isSome ∨ ∃ other ∈ earlier, ClosesDirectly other i ∨
          ∃ synonym, synonym ≠ id ∧ Unregisters other synonym i) ∧
      ∀ turn ∈ turns, ∀ access call, turn.command = .call access call →
        turn.before.reach access ≠ some i.val →
        turn.after.berths[i.val]? = turn.before.berths[i.val]? ∧ seen i turn.journal = [] := by
  intro turns
  refine ⟨lives_history (engine?_launch engines i) commands, ?_, ?_⟩
  · intro earlier turn later hturns id hfinds
    obtain ⟨first, command, rest, -, rfl, rfl⟩ := System.split_of_history_eq hturns
    exact (explained_final engines i first).open_of_get? (get?_of_finds hfinds)
  · intro turn hmem access call hcommand hreach
    obtain ⟨earlier, later, hturns⟩ := List.append_of_mem hmem
    obtain ⟨first, command, rest, -, rfl, rfl⟩ := System.split_of_history_eq hturns
    obtain rfl : command = .call access call := hcommand
    obtain ⟨berth, hberth⟩ := (explained_final engines i first).berth
    have htouches : ¬ Touches _ i (.call access call) := hreach
    obtain ⟨hafter, hseen⟩ := turn_of_scene (scene_execute_of_not_touches hberth htouches)
    exact ⟨hafter.trans hberth.symm, hseen⟩

end Fleet

end EventStaging
