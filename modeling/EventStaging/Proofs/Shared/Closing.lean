import EventStaging.Proofs.Shared.Calls

/-!
# Sharing and closing

A shared engine is the engine that it was made from until it is closed, and inert afterwards.
`Shared.Mirrors` compares a turn of the shared engine with a step of the bare one, `Shared.Refused`
says that a turn did nothing, and `Shared.mirrors_until_closed` puts the two phases together.
-/

namespace EventStaging

namespace Shared

variable {σ : Type}

/-- The readers of a shared engine tell how an engine is. -/
structure Reports (shared : Shared σ) (engine : Engine σ) : Prop where
  state_eq : shared.state = some engine.state
  queueSize_eq : shared.queueSize = engine.queueSize
  processed_eq : shared.processed = engine.processed
  isClosed_eq : shared.isClosed = false
  name_eq : shared.name = engine.name
  capacity_eq : shared.capacity = engine.capacity

/-- The readers of a shared engine tell that it is closed. -/
structure Shut (shared : Shared σ) : Prop where
  state_eq : shared.state = none
  queueSize_eq : shared.queueSize = 0
  processed_eq : shared.processed = 0
  isClosed_eq : shared.isClosed = true

/-- A turn of a shared engine is a step of a bare one: the same operation with the same answer, the
same calls in the same order, and the same host and the same readings afterwards. -/
structure Mirrors (turn : Turn (Hosted (Shared σ) σ) Call Answer Journal) (step : Step σ) :
    Prop where
  command_eq : turn.command = .perform step.op
  answer_eq : turn.answer = .performed step.reply.result
  journal_eq : turn.journal = step.journal
  host_eq : turn.after.host = step.host
  reports : turn.after.object.Reports step.after

/-- A turn that was refused because the engine is closed: nothing was called and nothing changed. -/
structure Refused (turn : Turn (Hosted (Shared σ) σ) Call Answer Journal) : Prop where
  answer_eq : turn.answer = turn.command.refusal
  journal_eq : turn.journal = []
  after_eq : turn.after = turn.before

/-- A shared engine reports what the engine says that it was made from. -/
theorem reports_ofEngine (engine : Engine σ) : (ofEngine engine).Reports engine :=
  ⟨rfl, rfl, rfl, rfl, rfl, rfl⟩

/-- A closed engine reports that it is. -/
theorem shut_of_closed {shared : Shared σ} (h : shared.engine = none) : shared.Shut where
  state_eq := by rw [state, h]; rfl
  queueSize_eq := by rw [queueSize, h]; rfl
  processed_eq := by rw [processed, h]; rfl
  isClosed_eq := by rw [isClosed, h]; rfl

/-- As long as only operations are called, a shared engine goes through the steps of the bare one and
shares the engine that these leave. -/
theorem mirrors_steps (engine : Engine σ) (ops : List Op) (host : σ) :
    List.Forall₂ Mirrors ((system σ).history ⟨ofEngine engine, host⟩ (ops.map .perform))
        (engine.steps ops host) ∧
      ((system σ).final ⟨ofEngine engine, host⟩ (ops.map .perform)).object =
        ofEngine (engine.after ops host) := by
  induction ops generalizing engine host with
  | nil => exact ⟨.nil, rfl⟩
  | cons op ops ih =>
      have hturn := turn_perform engine op host
      obtain ⟨hrest, hlast⟩ := ih (engine.step op host).after (engine.step op host).host
      rw [List.map_cons, System.history, System.final, hturn, Engine.steps_cons]
      exact ⟨.cons ⟨rfl, rfl, rfl, rfl, reports_ofEngine _⟩ hrest, hlast⟩

/-- Once closed, a shared engine refuses all that comes, and stays as it is. -/
theorem refused_of_closed {shared : Shared σ} (h : shared.engine = none) (host : σ)
    (calls : List Call) :
    ∀ turn ∈ (system σ).history ⟨shared, host⟩ calls,
      Refused turn ∧ turn.after.object = shared := by
  induction calls with
  | nil =>
      intro turn hmem
      cases hmem
  | cons call calls ih =>
      rw [System.history, turn_of_closed h]
      intro turn hmem
      rcases List.mem_cons.mp hmem with rfl | hmem
      · exact ⟨⟨rfl, rfl, rfl⟩, rfl⟩
      · exact ih turn hmem

/-- The name and the capacity are those at the beginning throughout. -/
theorem kept_history (shared : Shared σ) (host : σ) (calls : List Call) :
    ∀ turn ∈ (system σ).history ⟨shared, host⟩ calls,
      turn.after.object.name = shared.name ∧ turn.after.object.capacity = shared.capacity := by
  induction calls generalizing shared host with
  | nil =>
      intro turn hmem
      cases hmem
  | cons call calls ih =>
      have hkept := shared.kept_call call host
      intro turn hmem
      rcases List.mem_cons.mp hmem with rfl | hmem
      · exact hkept
      · obtain ⟨hname, hcapacity⟩ := ih _ _ turn hmem
        exact ⟨hname.trans hkept.1, hcapacity.trans hkept.2⟩

/-- A shared engine is the engine until it is closed, and inert afterwards. `ops` is what is done up
to the first closing, and `later` is whatever follows. Up to there every operation gives the result
of the bare engine, with the same calls into the host, and the readers tell how the bare engine is.
The first closing answers that it closed the engine. From then on every operation is refused as
closed and every further closing answers no, nothing is called and nothing changes, and the readers
tell that the engine is closed. The name and the capacity are those of the engine throughout. -/
theorem mirrors_until_closed (engine : Engine σ) (host : σ) (ops : List Op) (later : List Call) :
    let start : Hosted (Shared σ) σ := ⟨ofEngine engine, host⟩
    let opened := (system σ).history start (ops.map .perform)
    let closing := (system σ).turn ((system σ).final start (ops.map .perform)) .close
    let closed := (system σ).history closing.after later
    (start.object.Reports engine ∧ List.Forall₂ Mirrors opened (engine.steps ops host)) ∧
      (closing.answer = .closed true ∧ closing.after.object.Shut) ∧
      (∀ turn ∈ closed, Refused turn ∧ turn.after.object.Shut) ∧
      ∀ turn ∈ opened ++ closing :: closed,
        turn.after.object.name = engine.name ∧ turn.after.object.capacity = engine.capacity := by
  intro start opened closing closed
  obtain ⟨hopened, hlast⟩ := mirrors_steps engine ops host
  have hopen : ((system σ).final start (ops.map .perform)).object.engine =
      some (engine.after ops host) := by
    rw [hlast]
    rfl
  obtain ⟨hanswer, hafter⟩ := turn_close_of_open hopen _
  have hclosed : closing.after.object.engine = none := by
    rw [hafter]
  refine ⟨⟨reports_ofEngine engine, hopened⟩, ⟨hanswer, shut_of_closed hclosed⟩, ?_, ?_⟩
  · intro turn hmem
    obtain ⟨hrefused, hobject⟩ := refused_of_closed hclosed _ later turn hmem
    exact ⟨hrefused, shut_of_closed (hobject ▸ hclosed)⟩
  · -- The two phases are the history of one run.
    have hwhole : opened ++ closing :: closed =
        (system σ).history start (ops.map .perform ++ .close :: later) := by
      rw [System.history_append]
      rfl
    rw [hwhole]
    exact kept_history (ofEngine engine) host _

end Shared

end EventStaging
