import EventStaging.Proofs.Engine.Alike
import EventStaging.Proofs.Engine.Traits

/-!
# Callbacks that keep to themselves

What the callbacks of an engine have in common may be limited: a filter may judge by the record
alone, and the handler and the observer may see only a part of the host that the filter and the sink
do not change. Then a push does not change what the handler and the observer see
(`Engine.spares_push`), and the engine works in the same way on all hosts of which they see the same
(`Engine.alike_self_of_apart`).
-/

namespace EventStaging

variable {σ υ α β : Type} {view : σ → υ}

/-- The filter judges by the record alone: `verdict` says how it answers. -/
def Callbacks.JudgesBy (callbacks : Callbacks σ) (verdict : Record → Outcome Bool) : Prop :=
  ∀ filter, callbacks.filter = some filter → ∀ record host, (filter record host).1 = verdict record

/-- A call depends on what is seen of the host only, and so does what is seen of it afterwards. -/
def SeesOnly (view : σ → υ) (f : σ → α × σ) : Prop :=
  ∀ host host', view host = view host' →
    (f host).1 = (f host').1 ∧ view (f host).2 = view (f host').2

/-- The sink does not change what is seen of the host. -/
def Callbacks.SinkSpares (callbacks : Callbacks σ) (view : σ → υ) : Prop :=
  ∀ write, callbacks.sink = some (.host write) →
    ∀ level message host, view (write level message host).2 = view host

/-- The handler and the observer see only a part of the host, and the filter and the sink do not
change that part. -/
structure Callbacks.Apart (callbacks : Callbacks σ) (view : σ → υ) : Prop where
  handler : ∀ handler, callbacks.handler = some handler → ∀ record, SeesOnly view (handler record)
  observer : ∀ observer, callbacks.observer = some observer →
    ∀ old new, SeesOnly view (observer old new)
  filter : ∀ filter, callbacks.filter = some filter →
    ∀ record host, view (filter record host).2 = view host
  sink : ∀ write, callbacks.sink = some (.host write) →
    ∀ level message host, view (write level message host).2 = view host

/-- Hosts are alike if the same is seen of them, and journals if the handler and the observer end
their calls in the same way. -/
def Likeness.ofView (view : σ → υ) : Likeness σ σ where
  hosts host host' := view host = view host'
  journals journal journal' := journal.endings = journal'.endings
  journals_nil := rfl
  journals_append h h' := by simp [h, h']

/-- An action does not change what is seen of the host. -/
def Act.Spares (view : σ → υ) (action : Act σ α) : Prop :=
  ∀ host, view (action.run host).host = view host

/-- A sequence of actions changes nothing that is seen of the host if its parts do not. -/
def Act.Trait.spares (view : σ → υ) : Act.Trait σ where
  Has action := action.Spares view
  pure _ := fun _ ↦ rfl
  bind haction hnext := fun host ↦ (hnext host _).trans (haction host)

namespace Engine

open Act (Spares)

variable {engine : Engine σ} {verdict : Record → Outcome Bool}

/-- A line spares what its sink spares. -/
theorem spares_log (hsink : engine.callbacks.SinkSpares view) (level : Level) (message : String) :
    Spares view (engine.log level message) := by
  intro host
  unfold log
  cases engine.logging with
  | false => rfl
  | true =>
      cases hwrite : engine.callbacks.sink with
      | none => rfl
      | some sink =>
          cases sink with
          | host write =>
              have hcall := hsink write hwrite level message host
              show view ((Act.write (.host write) engine.name level message).run host).host = _
              unfold Act.write
              rw [Act.host_bind]
              split <;> exact hcall
          | forward label => rfl

/-- Reports spare what the sink spares. -/
theorem reports_spares (hsink : engine.callbacks.SinkSpares view) :
    Reports (.spares view) engine where
  log level message _ := spares_log hsink level message
  trace _ := fun _ ↦ rfl

/-- Containing the end of a call spares what callbacks that keep to themselves see. -/
theorem spares_contain (hapart : engine.callbacks.Apart view) (role : Role) (kind : Option Kind)
    (fallback : α) (outcome : Outcome α) :
    Spares view (engine.contain role kind fallback outcome) :=
  (reports_spares hapart.sink).contain role kind fallback outcome

/-- A push does not change what the handler and the observer see of the host. -/
theorem spares_push (hapart : engine.callbacks.Apart view) (allocator : Allocator) (kind : Kind)
    (source : String) (payload : List UInt8) :
    Spares view (engine.push allocator kind source payload) :=
  (reports_spares hapart.sink).push
    (fun filter hfilter record host ↦ hapart.filter filter hfilter record host)
    allocator kind source payload

/-! ## The handler and the observer answer as before -/

/-- A report is the same for the handler and the observer if it spares what they see. -/
theorem ofView_of_quiet {action : Act σ α} (hquiet : action.Quiet) (hspares : Spares view action)
    (hvalue : ∀ host host', (action.run host).value = (action.run host').value) :
    Act.Alike (.ofView view) Eq action action := by
  intro host host' hhost
  refine ⟨hvalue host host', (hquiet host).endings_eq.trans (hquiet host').endings_eq.symm, ?_⟩
  exact (hspares host).trans (Eq.trans hhost (hspares host').symm)

/-- Containing the same end of a call is the same for them. -/
theorem ofView_contain (hapart : engine.callbacks.Apart view) (role : Role) (kind : Option Kind)
    (fallback : α) (outcome : Outcome α) :
    Act.Alike (.ofView view) Eq (engine.contain role kind fallback outcome)
      (engine.contain role kind fallback outcome) := by
  refine ofView_of_quiet (engine.quiet_contain _ _ _ _) (spares_contain hapart _ _ _ _) ?_
  intro host host'
  rw [value_contain, value_contain]

/-- A call that sees only a part of the host is answered in the same way. -/
theorem ofView_call {f : σ → α × σ} (hsees : SeesOnly view f) (note : α → Observation) :
    Act.Alike (.ofView view) Eq (Act.call f note) (Act.call f note) := by
  intro host host' hhost
  obtain ⟨hvalue, hview⟩ := hsees host host' hhost
  refine ⟨hvalue, ?_, hview⟩
  show Journal.endings [note _] = Journal.endings [note _]
  rw [hvalue]

/-- An engine is alike to itself on hosts of which its handler and observer see the same. -/
theorem alike_self_of_apart (hverdict : engine.callbacks.JudgesBy verdict)
    (hapart : engine.callbacks.Apart view) : Engine.Alike (.ofView view) engine engine where
  state_eq := rfl
  queue_eq := rfl
  processed_eq := rfl
  log level message _ :=
    ofView_of_quiet (engine.quiet_log _ _) (spares_log hapart.sink _ _) fun _ _ ↦ rfl
  admits record := by
    rw [admits_eq]
    cases hfilter : engine.callbacks.filter with
    | none => exact .pure rfl
    | some filter =>
        -- The hosts may differ in what the filter keeps there, but not in its verdict.
        refine Act.Alike.bind_eq ?_ fun outcome ↦ ofView_contain hapart _ _ _ outcome
        intro host host' hhost
        have hview := hapart.filter filter hfilter record host
        have hview' := hapart.filter filter hfilter record host'
        have hsame := hverdict filter hfilter record host
        exact ⟨hsame.trans (hverdict filter hfilter record host').symm, rfl,
          hview.trans (Eq.trans hhost hview'.symm)⟩
  deliver record := by
    rw [deliver_eq]
    cases hhandler : engine.callbacks.handler with
    | none => exact .pure rfl
    | some handler =>
        have hcall := ofView_call (hapart.handler handler hhandler record) (.delivered record)
        exact hcall.bind_eq fun outcome ↦ ofView_contain hapart _ _ _ outcome
  announce old new := by
    rw [announce_eq]
    cases hobserver : engine.callbacks.observer with
    | none => exact .pure rfl
    | some observer =>
        refine Act.Alike.bind_eq ?_ fun outcome ↦ ofView_contain hapart _ _ _ outcome
        exact (ofView_call (hapart.observer observer hobserver old new) _).bind_eq fun _ ↦ .pure rfl

end Engine

end EventStaging
