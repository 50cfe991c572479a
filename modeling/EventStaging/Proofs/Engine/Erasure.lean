import EventStaging.Proofs.Engine.Apart
import EventStaging.Proofs.Engine.Capture

/-!
# Pushes that queue nothing

A push is idle if it is refused, or if the filter turns its event away. Main statement
(`Engine.erasure`): when the filter judges by the record alone, the idle pushes of a run can be left
out. The other operations are answered as before and leave the same ring, state and counter, the
handler and the observer are given the same, and the log is the old one without the lines that the
idle pushes wrote, but for lines about failures of the handler and the observer. These are the same
as well if the handler and the observer end their calls as before. Callbacks that share state may
end them in another way, and then the log differs (`Engine.lines_kept_ne_of_shared_state`).
-/

namespace EventStaging

variable {σ τ α β : Type}

/-! ## Idle steps -/

/-- Whether a step is a push that is refused, or one whose event the filter turns away. Nothing but
a push is refused or accepted. -/
def Step.isIdle (step : Step σ) : Bool :=
  match step.reply with
  | .refused _ => true
  | .accepted => step.journal.verdicts.contains (.returned false)
  | .flag _ | .count _ | .done => false

namespace Engine

variable {engine : Engine σ} {op : Op} {host : σ}

/-- The steps that are not idle. -/
def kept (steps : List (Step σ)) : List (Step σ) := steps.filter (!·.isIdle)

/-- The operations of a run that are not idle. -/
def keptOps (engine : Engine σ) (ops : List Op) (host : σ) : List Op :=
  (kept (engine.steps ops host)).map Step.op

/-- An idle step is not kept. -/
theorem kept_cons_of_idle {step : Step σ} (hidle : step.isIdle) (steps : List (Step σ)) :
    kept (step :: steps) = kept steps :=
  List.filter_cons_of_neg (by simp [hidle])

/-- A step that is not idle is kept. -/
theorem kept_cons_of_not_idle {step : Step σ} (hidle : ¬ step.isIdle) (steps : List (Step σ)) :
    kept (step :: steps) = step :: kept steps :=
  List.filter_cons_of_pos (by simp [hidle])

/-- Only a push is idle. -/
theorem eq_push_of_isIdle (hidle : (engine.step op host).isIdle) :
    ∃ allocator kind source payload, op = .push allocator kind source payload := by
  cases op with
  | push allocator kind source payload => exact ⟨allocator, kind, source, payload, rfl⟩
  | _ => cases hidle

/-- An idle push leaves the engine as it was. -/
theorem after_of_isIdle (hidle : (engine.step op host).isIdle) :
    (engine.step op host).after = engine := by
  obtain ⟨allocator, kind, source, payload, rfl⟩ := eq_push_of_isIdle hidle
  have hcases := engine.push_cases allocator kind source payload host
  rw [step_of_apply_eq (engine.apply_push allocator kind source payload)] at hidle ⊢
  simp only at hcases
  rcases hcases with ⟨error, hvalue⟩ | ⟨hvalue, -⟩ | ⟨-, hvalue, hverdict⟩
  · rw [hvalue]
    rfl
  · rw [hvalue]
    rfl
  · -- A push that queues its record is accepted, and no filter has said no.
    rw [hvalue] at hidle
    exact absurd (List.contains_iff_mem.mp hidle) hverdict

/-- An idle push calls neither the handler nor the observer. -/
theorem seen_of_isIdle (hidle : (engine.step op host).isIdle) :
    (engine.step op host).journal.deliveries = [] ∧
      (engine.step op host).journal.transitions = [] ∧
      (engine.step op host).journal.endings = [] := by
  obtain ⟨allocator, kind, source, payload, rfl⟩ := eq_push_of_isIdle hidle
  have honly := engine.only_apply (.push allocator kind source payload) host
  exact ⟨honly.deliveries_eq_of_isIntake, honly.transitions_eq_of_isIntake,
    honly.endings_eq_of_isIntake⟩

/-- The callbacks are the same in every step of a run. -/
theorem callbacks_of_mem_steps {ops : List Op} {step : Step σ}
    (hmem : step ∈ engine.steps ops host) : step.before.callbacks = engine.callbacks := by
  induction ops generalizing engine host with
  | nil => cases hmem
  | cons op ops ih =>
      rcases List.mem_cons.mp hmem with rfl | hmem
      · rfl
      · exact (ih hmem).trans (callbacks_apply engine op host)

/-! ## Leaving the idle steps out -/

/-- If idle pushes leave the hosts alike, what is kept of a run is alike to the run of the kept
operations alone, and both runs end in alike engines. -/
theorem alike_kept {like : Likeness σ τ} {engine' : Engine τ} {host' : τ}
    (hidle : ∀ (next : Engine σ) (op : Op) (host : σ) (host' : τ),
      next.callbacks = engine.callbacks → (next.step op host).isIdle → like.hosts host host' →
        like.hosts (next.step op host).host host')
    (hengine : Engine.Alike like engine engine') (hhost : like.hosts host host') (ops : List Op) :
    List.Forall₂ (Step.Alike like) (kept (engine.steps ops host))
        (engine'.steps (engine.keptOps ops host) host') ∧
      Engine.Alike like (engine.after ops host)
        (engine'.after (engine.keptOps ops host) host') := by
  unfold keptOps
  induction ops generalizing engine engine' host host' with
  | nil => exact ⟨.nil, hengine⟩
  | cons op ops ih =>
      rw [steps_cons, after_cons]
      by_cases hstep : (engine.step op host).isIdle
      · -- The other run stands still, and the induction goes on from the same engines.
        rw [kept_cons_of_idle hstep, after_of_isIdle hstep]
        exact ih hidle hengine (hidle engine op host host' rfl hstep hhost)
      · rw [kept_cons_of_not_idle hstep, List.map_cons, steps_cons, after_cons]
        have halike := hengine.step hhost op
        obtain ⟨hsteps, hafter⟩ := ih (fun next op' host host' hcallbacks ↦
          hidle next op' host host' (hcallbacks.trans (callbacks_apply engine op _)))
          halike.after halike.host
        exact ⟨.cons halike hsteps, hafter⟩

/-- What idle pushes do not show is read from the kept steps as from all. -/
theorem flatMap_kept {read : Journal → List α}
    (happend : ∀ first second, read (first ++ second) = read first ++ read second)
    {steps : List (Step σ)} (hidle : ∀ step ∈ steps, step.isIdle → read step.journal = []) :
    read ((kept steps).flatMap Step.journal) = read (steps.flatMap Step.journal) := by
  induction steps with
  | nil => rfl
  | cons step steps ih =>
      have hrest := ih fun other hmem ↦ hidle other (List.mem_cons_of_mem _ hmem)
      rw [List.flatMap_cons, happend]
      by_cases hstep : step.isIdle
      · rw [kept_cons_of_idle hstep, hidle step List.mem_cons_self hstep, hrest, List.nil_append]
      · rw [kept_cons_of_not_idle hstep, List.flatMap_cons, happend, hrest]

/-! ## What idle pushes leave alike -/

end Engine

/-- Two journals show the callbacks the same records and changes of state, and have the same log
lines but for those about failures. If the handler and the observer end all their calls in the same
way, the log lines are the same without exception. -/
structure Journal.Alike (journal journal' : Journal) : Prop where
  offers_eq : journal.offers = journal'.offers
  deliveries_eq : journal.deliveries = journal'.deliveries
  transitions_eq : journal.transitions = journal'.transitions
  plainLines_eq : Engine.plainLines journal.lines = Engine.plainLines journal'.lines
  lines_eq : journal.endings = journal'.endings → journal.lines = journal'.lines

namespace Journal.Alike

theorem refl (journal : Journal) : Alike journal journal :=
  ⟨rfl, rfl, rfl, rfl, fun _ ↦ rfl⟩

/-- Journals that are alike part by part are alike. -/
theorem append {first second first' second' : Journal} (hfirst : Alike first first')
    (hsecond : Alike second second') : Alike (first ++ second) (first' ++ second') where
  offers_eq := by simp [hfirst.offers_eq, hsecond.offers_eq]
  deliveries_eq := by simp [hfirst.deliveries_eq, hsecond.deliveries_eq]
  transitions_eq := by simp [hfirst.transitions_eq, hsecond.transitions_eq]
  plainLines_eq := by simp [hfirst.plainLines_eq, hsecond.plainLines_eq]
  lines_eq h := by
    -- As many calls end in the first parts, so the endings are the same part by part.
    have hlength : first.endings.length = first'.endings.length := by
      rw [length_endings, length_endings, hfirst.deliveries_eq, hfirst.transitions_eq]
    rw [endings_append, endings_append] at h
    obtain ⟨hleft, hright⟩ := List.append_inj h hlength
    rw [lines_append, lines_append, hfirst.lines_eq hleft, hsecond.lines_eq hright]

/-- How the handler ends its call is not compared. -/
theorem delivered (record : Record) (outcome outcome' : Outcome Unit) :
    Alike [.delivered record outcome] [.delivered record outcome'] :=
  ⟨rfl, rfl, rfl, rfl, fun _ ↦ rfl⟩

/-- How the observer ends its call is not compared. -/
theorem notified (old new : Lifecycle) (outcome outcome' : Outcome Unit) :
    Alike [.notified old new outcome] [.notified old new outcome'] :=
  ⟨rfl, rfl, rfl, rfl, fun _ ↦ rfl⟩

/-- Journals of reports are alike if they have the same log lines. -/
theorem of_isReport {journal journal' : Journal} (h : journal.Only Observation.isReport)
    (h' : journal'.Only Observation.isReport) (hlines : journal.lines = journal'.lines) :
    Alike journal journal' where
  offers_eq := h.offers_eq.trans h'.offers_eq.symm
  deliveries_eq := h.deliveries_eq.trans h'.deliveries_eq.symm
  transitions_eq := h.transitions_eq.trans h'.transitions_eq.symm
  plainLines_eq := congrArg _ hlines
  lines_eq _ := hlines

end Journal.Alike

/-- Hosts do not matter, and journals are alike up to how calls end. -/
def Likeness.uptoEndings : Likeness σ σ where
  hosts _ _ := True
  journals := Journal.Alike
  journals_nil := .refl []
  journals_append := .append

namespace Engine

variable {engine : Engine σ} {verdict : Record → Outcome Bool}

/-- An action that only reports is alike to itself if the host decides neither its value nor what
it logs. -/
theorem alike_of_quiet {action : Act σ α} (hquiet : action.Quiet)
    (hvalue : ∀ host host', (action.run host).value = (action.run host').value)
    (hlines : ∀ host host', (action.run host).journal.lines = (action.run host').journal.lines) :
    Act.Alike .uptoEndings Eq action action := by
  intro host host' _
  refine ⟨hvalue host host', ?_, trivial⟩
  exact .of_isReport (hquiet host) (hquiet host') (hlines host host')

/-- Containing the same end of a call is the same on every host. -/
theorem uptoEndings_contain (role : Role) (kind : Option Kind) (fallback : α)
    (outcome : Outcome α) :
    Act.Alike .uptoEndings Eq (engine.contain role kind fallback outcome)
      (engine.contain role kind fallback outcome) := by
  refine alike_of_quiet (engine.quiet_contain _ _ _ _) ?_ ?_
  · intro host host'
    rw [value_contain, value_contain]
  · intro host host'
    rw [lines_contain, lines_contain]

/-- A filter that judges by the record alone decides the same on every host. -/
theorem uptoEndings_admits (hverdict : engine.callbacks.JudgesBy verdict) (record : Record) :
    Act.Alike .uptoEndings Eq (engine.admits record) (engine.admits record) := by
  rw [admits_eq]
  cases hfilter : engine.callbacks.filter with
  | none => exact .pure rfl
  | some filter =>
      have hoffer : Act.Alike .uptoEndings Eq (Act.offer filter record)
          (Act.offer filter record) := by
        intro host host' _
        have hsame : (filter record host).1 = (filter record host').1 :=
          (hverdict filter hfilter record host).trans (hverdict filter hfilter record host').symm
        refine ⟨hsame, ?_, trivial⟩
        show Journal.Alike [.offered record _] [.offered record _]
        rw [hsame]
        exact .refl _
      exact hoffer.bind_eq fun outcome ↦ uptoEndings_contain _ _ _ outcome

/-- A call of the handler or the observer is alike to another one that is noted in an alike way. -/
theorem alike_answered {called called' : Journal} {outcome outcome' : Outcome Unit} (role : Role)
    (kind : Option Kind) (hcalled : Journal.Alike called called')
    (hendings : called.endings = [outcome]) (hendings' : called'.endings = [outcome'])
    (host host' : σ) :
    Journal.Alike (called ++ ((engine.contain role kind () outcome).run host).journal)
      (called' ++ ((engine.contain role kind () outcome').run host').journal) := by
  have hquiet := engine.quiet_contain role kind () outcome host
  have hquiet' := engine.quiet_contain role kind () outcome' host'
  constructor
  case offers_eq => simp [hcalled.offers_eq, hquiet.offers_eq, hquiet'.offers_eq]
  case deliveries_eq =>
    simp [hcalled.deliveries_eq, hquiet.deliveries_eq, hquiet'.deliveries_eq]
  case transitions_eq =>
    simp [hcalled.transitions_eq, hquiet.transitions_eq, hquiet'.transitions_eq]
  case plainLines_eq => simp [hcalled.plainLines_eq, plainLines_contain]
  case lines_eq =>
    intro h
    rw [Journal.endings_append, Journal.endings_append, hquiet.endings_eq, hquiet'.endings_eq,
      List.append_nil, List.append_nil] at h
    -- The ending of the call is all that decides whether and how a failure is logged.
    have houtcome : outcome = outcome' := by simpa [hendings, hendings'] using h
    rw [Journal.lines_append, Journal.lines_append, hcalled.lines_eq h, lines_contain,
      lines_contain, houtcome]

/-- A delivery is the same on every host, but for how the handler ends it. -/
theorem uptoEndings_deliver (record : Record) :
    Act.Alike .uptoEndings Eq (engine.deliver record) (engine.deliver record) := by
  rw [deliver_eq]
  cases engine.callbacks.handler with
  | none => exact .pure rfl
  | some handler =>
      intro host host' _
      exact ⟨rfl, alike_answered .event _ (.delivered record _ _) rfl rfl _ _, trivial⟩

/-- An announcement is the same on every host, but for how the observer ends it. -/
theorem uptoEndings_announce (old new : Lifecycle) :
    Act.Alike .uptoEndings Eq (engine.announce old new) (engine.announce old new) := by
  rw [announce_eq]
  cases engine.callbacks.observer with
  | none => exact .pure rfl
  | some observer =>
      intro host host' _
      exact ⟨rfl, alike_answered .stateChange _ (.notified old new _ _) rfl rfl _ _, trivial⟩

/-- An engine whose filter judges by the record alone is alike to itself on whatever host. -/
theorem alike_self (hverdict : engine.callbacks.JudgesBy verdict) :
    Engine.Alike .uptoEndings engine engine where
  state_eq := rfl
  queue_eq := rfl
  processed_eq := rfl
  log level message _ := by
    refine alike_of_quiet (engine.quiet_log _ _) (fun _ _ ↦ rfl) ?_
    intro host host'
    rw [lines_log, lines_log]
  admits := uptoEndings_admits hverdict
  deliver := uptoEndings_deliver
  announce := uptoEndings_announce

/-! ## Growth that is refused -/

/-- A record that cannot be queued for want of storage finds the ring with no free slot. -/
theorem of_enqueue_allocation {allocator : Allocator} {record : Record} {host : σ} {bytes : Nat}
    (h : ((engine.enqueue allocator record).run host).value.1 = .error (.allocation bytes)) :
    ¬ engine.queue.isFull ∧ engine.queue.length = engine.queue.slots.size := by
  unfold enqueue at h
  simp only at h
  cases hpush : (engine.queue.push allocator.slots record).1 with
  | ok _ =>
      rw [hpush] at h
      cases h
  | error refusal =>
      rw [hpush] at h
      cases refusal with
      | full item => cases h
      | noStorage item bytes => exact Ring.of_push_noStorage hpush

/-- A push that is refused although its payload was copied has been let in by the filter, and has
found the ring with no free slot. -/
theorem of_push_allocation {allocator : Allocator} {kind : Kind} {source : String}
    {payload : List UInt8} {host : σ} {bytes : Nat} {record : Record}
    (hcopy : Record.copy allocator kind source payload = .ok record)
    (h : ((engine.push allocator kind source payload).run host).value.1 =
      .error (.allocation bytes)) :
    ¬ engine.queue.isFull ∧ engine.queue.length = engine.queue.slots.size ∧
      ((engine.admits record).run host).value = true := by
  by_cases hfull : engine.queue.isFull
  · rw [push_of_full hfull] at h
    cases h
  rw [push_of_copied hfull hcopy, Act.value_bind] at h
  cases hadmits : ((engine.admits record).run host).value with
  | false =>
      rw [hadmits] at h
      cases h
  | true =>
      rw [hadmits] at h
      exact ⟨hfull, (of_enqueue_allocation h).2, rfl⟩

/-- A record that the filter lets in is queued in a larger ring if the ring can grow. -/
theorem value_push_of_canGrow {allocator : Allocator} {kind : Kind} {source : String}
    {payload : List UInt8} {host : σ} {record : Record} (hfull : ¬ engine.queue.isFull)
    (hlen : engine.queue.length = engine.queue.slots.size)
    (hcopy : Record.copy allocator kind source payload = .ok record)
    (hadmits : ((engine.admits record).run host).value = true)
    (hcan : engine.queue.canGrow allocator.slots) :
    ((engine.push allocator kind source payload).run host).value =
      (.ok (), { engine with queue := engine.queue.grow.place record }) := by
  have hpush := Ring.push_of_canGrow hfull hlen hcan record
  rw [push_of_copied hfull hcopy, Act.value_bind, hadmits, if_pos rfl,
    value_enqueue_of_ok (by rw [hpush]), hpush]

end Engine

/-- If a step is a push that was refused because the ring could not grow, then the ring takes the
same record, whenever its payload can be copied again and the ring can grow. -/
def Step.LeavesRoom (step : Step σ) : Prop :=
  ∀ (allocator later : Allocator) (kind : Kind) (source : String) (payload : List UInt8)
    (record : Record) (bytes : Nat) (host : σ),
    step.op = .push allocator kind source payload →
    Record.copy allocator kind source payload = .ok record →
    step.reply = .refused (.allocation bytes) →
    Record.copy later kind source payload = .ok record →
    step.after.queue.canGrow later.slots →
    ((step.after.push later kind source payload).run host).value =
      (.ok (), { step.after with queue := step.after.queue.grow.place record })

namespace Engine

variable {engine : Engine σ} {verdict : Record → Outcome Bool}

/-- A push that was refused for want of a larger ring leaves room for the same record once the ring
can grow. -/
theorem leavesRoom_step (hverdict : engine.callbacks.JudgesBy verdict) {op : Op} {host : σ}
    (hidle : (engine.step op host).isIdle) : (engine.step op host).LeavesRoom := by
  intro allocator later kind source payload record bytes host' hop hcopy hreply hlater hcan
  rw [after_of_isIdle hidle] at hcan ⊢
  have hop' : op = .push allocator kind source payload := hop
  rw [hop', step_of_apply_eq (engine.apply_push allocator kind source payload)] at hreply
  have hrefused : ((engine.push allocator kind source payload).run host).value.1 =
      .error (.allocation bytes) :=
    Reply.ofPush_eq_refused_iff.mp hreply
  obtain ⟨hfull, hlen, hadmits⟩ := of_push_allocation hcopy hrefused
  -- The filter lets the record in again, since it judges by the record alone.
  have hsame := (uptoEndings_admits hverdict record host host' trivial).value
  exact value_push_of_canGrow hfull hlen hlater (hsame ▸ hadmits) hcan

/-! ## Whole runs -/

/-- Two engines are in the same state, down to the slots of their rings. -/
structure SameState (engine engine' : Engine σ) : Prop where
  state_eq : engine.state = engine'.state
  queue_eq : engine.queue = engine'.queue
  processed_eq : engine.processed = engine'.processed

end Engine

open Engine (SameState)

/-- Two steps that answer the same operation alike, between the same states, and show alike. -/
structure Step.Same (step step' : Step σ) : Prop where
  op_eq : step.op = step'.op
  reply_eq : step.reply = step'.reply
  before : SameState step.before step'.before
  after : SameState step.after step'.after
  journal : Journal.Alike step.journal step'.journal

namespace Engine

/-- Alike engines are in the same state. -/
theorem sameState_of_alike {like : Likeness σ σ} {engine engine' : Engine σ}
    (h : Engine.Alike like engine engine') : SameState engine engine' :=
  ⟨h.state_eq, h.queue_eq, h.processed_eq⟩

/-- Steps that are alike up to how calls end are the same. -/
theorem same_of_alike {step step' : Step σ} (h : Step.Alike .uptoEndings step step') :
    Step.Same step step' :=
  ⟨h.op_eq, h.reply_eq, sameState_of_alike h.before, sameState_of_alike h.after, h.journal⟩

variable {engine : Engine σ} {verdict : Record → Outcome Bool}

/-- Callbacks that keep to themselves end their calls as before when idle pushes are left out. -/
theorem endings_kept {υ : Type} {view : σ → υ} (hverdict : engine.callbacks.JudgesBy verdict)
    (hapart : engine.callbacks.Apart view) (ops : List Op) (host : σ) :
    Journal.endings ((kept (engine.steps ops host)).flatMap Step.journal) =
      Journal.endings ((engine.steps (engine.keptOps ops host) host).flatMap Step.journal) := by
  have hidle : ∀ (next : Engine σ) (op : Op) (host host' : σ), next.callbacks = engine.callbacks →
      (next.step op host).isIdle → view host = view host' →
        view (next.step op host).host = view host' := by
    intro next op host host' hcallbacks hstep hview
    obtain ⟨allocator, kind, source, payload, rfl⟩ := eq_push_of_isIdle hstep
    rw [step_of_apply_eq (next.apply_push allocator kind source payload), ← hview]
    exact spares_push (hcallbacks ▸ hapart) allocator kind source payload host
  have hhost : (Likeness.ofView view).hosts host host := rfl
  exact Step.Alike.journals (alike_kept hidle (alike_self_of_apart hverdict hapart) hhost ops).1

/-- Pushes that queue nothing can be left out of a run, if the filter judges by the record alone.
The other operations are answered as before and leave the same state, and the handler and the
observer are given the same. The log is the old one without the lines of the pushes left out: but
for lines about failures in any case, and to the last line if the handler and the observer end their
calls as before, as they do if the callbacks keep to themselves. A log that the sink captures grows
by the lines of either run. The pushes left out leave the engine as it was, and one that was refused
because the ring could not grow is accepted once it can. -/
theorem erasure (engine : Engine σ) (verdict : Record → Outcome Bool)
    (hverdict : engine.callbacks.JudgesBy verdict) (ops : List Op) (host : σ) :
    let steps := engine.steps ops host
    let left := (kept steps).flatMap Step.journal
    let done := (engine.run ops).run host
    let done' := (engine.run (engine.keptOps ops host)).run host
    List.Forall₂ Step.Same (kept steps) (engine.steps (engine.keptOps ops host) host) ∧
      SameState done.value.2 done'.value.2 ∧
      done.journal.deliveries = done'.journal.deliveries ∧
      done.journal.transitions = done'.journal.transitions ∧
      plainLines (Journal.lines left) = plainLines done'.journal.lines ∧
      (done.journal.endings = done'.journal.endings →
        Journal.lines left = done'.journal.lines) ∧
      (∀ (υ : Type) (view : σ → υ), engine.callbacks.Apart view →
        Journal.lines left = done'.journal.lines) ∧
      (∀ cell, engine.callbacks.Captures cell →
        (cell.get done.host).lines = (cell.get host).lines ++ done.journal.lines ∧
        (cell.get done'.host).lines = (cell.get host).lines ++ done'.journal.lines) ∧
      ∀ step ∈ steps, step.isIdle → step.after = step.before ∧ step.LeavesRoom := by
  intro steps left done done'
  have hhost : (Likeness.uptoEndings : Likeness σ σ).hosts host host := trivial
  obtain ⟨hsteps, hafter⟩ :=
    alike_kept (fun _ _ _ _ _ _ _ ↦ trivial) (alike_self hverdict) hhost ops
  have hjournal : done.journal = steps.flatMap Step.journal := engine.journal_run ops host
  have hjournal' : done'.journal = _ := engine.journal_run (engine.keptOps ops host) host
  have hshown : Journal.Alike left done'.journal := hjournal' ▸ Step.Alike.journals hsteps
  have hidle : ∀ step ∈ steps, step.isIdle →
      (step.journal.deliveries = [] ∧ step.journal.transitions = [] ∧ step.journal.endings = []) ∧
        step.after = step.before ∧ step.LeavesRoom := by
    intro step hmem hstep
    obtain ⟨host', heq⟩ := exists_eq_step_of_mem hmem
    have hcallbacks := callbacks_of_mem_steps hmem
    rw [heq] at hstep ⊢
    exact ⟨seen_of_isIdle hstep, after_of_isIdle hstep,
      leavesRoom_step (hcallbacks ▸ hverdict) hstep⟩
  -- Deliveries, transitions and endings of the idle steps are empty, so the whole run has those of
  -- the steps that are kept.
  refine ⟨hsteps.imp fun _ _ ↦ same_of_alike, sameState_of_alike hafter, ?_, ?_,
    hshown.plainLines_eq, ?_, ?_, ?_, fun step hmem hstep ↦ (hidle step hmem hstep).2⟩
  · rw [hjournal, ← hshown.deliveries_eq]
    exact (flatMap_kept Journal.deliveries_append fun step hmem h ↦ (hidle step hmem h).1.1).symm
  · rw [hjournal, ← hshown.transitions_eq]
    exact (flatMap_kept Journal.transitions_append fun step hmem h ↦ (hidle step hmem h).1.2.1).symm
  · intro hendings
    rw [hjournal, ← flatMap_kept Journal.endings_append fun step hmem h ↦
      (hidle step hmem h).1.2.2] at hendings
    exact hshown.lines_eq hendings
  · intro υ view hapart
    have hendings := endings_kept hverdict hapart ops host
    rw [← hjournal'] at hendings
    exact hshown.lines_eq hendings
  · intro cell hcaptures
    exact ⟨captures_run hcaptures ops host, captures_run hcaptures _ host⟩

/-- Three of six operations are left out of the run of an engine with room for one record: a push
that the filter turns away, one whose payload cannot be copied, and one that finds the queue full.
The filter counts the records that it is asked about, the handler fails, and the log is captured. -/
theorem erasure_of_three_pushes :
    let verdict := fun record : Record ↦ Outcome.returned (record.source != "noise")
    let config : Config Nat :=
      { name := "small"
        maxQueueSize := 1
        enableLogging := true
        callbacks :=
          { handler := some fun _ asked ↦ (.failed "busy", asked)
            filter := some fun record asked ↦ (verdict record, asked + 1) } }
    let engine := ofConfig config.capturing
    let ops : List Op :=
      [.push .unlimited .data "noise" [], .push (.upTo 0) .data "a" [1],
        .push .unlimited .data "a" [], .push .unlimited .data "b" [], .start, .process]
    engine.callbacks.JudgesBy verdict ∧ engine.callbacks.Apart (fun _ ↦ ()) ∧
      (engine.steps ops (0, {})).map Step.isIdle = [true, true, false, true, false, false] ∧
      SameState ((engine.run ops).run (0, {})).value.2
        ((engine.run (engine.keptOps ops (0, {}))).run (0, {})).value.2 ∧
      ((engine.run ops).run (0, {})).journal.deliveries =
        ((engine.run (engine.keptOps ops (0, {}))).run (0, {})).journal.deliveries ∧
      ((engine.run (engine.keptOps ops (0, {}))).run (0, {})).host.2.lines =
        Journal.lines ((kept (engine.steps ops (0, {}))).flatMap Step.journal) := by
  intro verdict config engine ops
  have hverdict : engine.callbacks.JudgesBy verdict := by
    rintro filter hfilter record host
    cases hfilter
    rfl
  have hapart : engine.callbacks.Apart (fun _ ↦ ()) := by
    constructor
    case handler =>
      rintro handler hhandler record host host' -
      cases hhandler
      exact ⟨rfl, rfl⟩
    case observer =>
      intro observer hobserver
      cases hobserver
    case filter => exact fun _ _ _ _ ↦ rfl
    case sink => exact fun _ _ _ _ _ ↦ rfl
  -- The handler reads nothing of the host, so the lines agree without a look at the endings.
  obtain ⟨-, hstate, hdeliveries, -, -, -, hlines, hlog, -⟩ :=
    erasure engine verdict hverdict ops (0, {})
  have hcaptured := (hlog capturedLog config.callbacks.captures_capturing).2
  rw [get_capturedLog, get_capturedLog, Doubles.LogCapture.lines_empty,
    List.nil_append] at hcaptured
  refine ⟨hverdict, hapart, by decide, hstate, hdeliveries, ?_⟩
  exact hcaptured.trans (hlines Unit _ hapart).symm

/-- A verdict that depends on the record alone does not fix the lines about failures. The filter
counts the records that it is asked about, and the handler fails once there were two. One push is
turned away. The captured log of the run without it lacks the line about the failure of the handler,
which that push did not write. -/
theorem lines_kept_ne_of_shared_state :
    let verdict := fun record : Record ↦ Outcome.returned (record.source != "noise")
    let config : Config Nat :=
      { name := "small"
        enableLogging := true
        callbacks :=
          { handler := some fun _ asked ↦
              (if asked < 2 then .returned () else .failed "late", asked)
            filter := some fun record asked ↦ (verdict record, asked + 1) } }
    let engine := ofConfig config.capturing
    let others : List Op := [.push .unlimited .data "a" [], .start, .process]
    let ops : List Op := .push .unlimited .data "noise" [] :: others
    engine.callbacks.JudgesBy verdict ∧ engine.callbacks.Captures capturedLog ∧
      (engine.steps ops (0, {})).map Step.isIdle = [true, false, false, false] ∧
      engine.keptOps ops (0, {}) = others ∧
      ((engine.run others).run (0, {})).host.2.lines ≠
        Journal.lines ((kept (engine.steps ops (0, {}))).flatMap Step.journal) := by
  intro verdict config engine others ops
  refine ⟨?_, config.callbacks.captures_capturing, by decide, rfl, by decide⟩
  rintro filter hfilter record host
  cases hfilter
  rfl

end Engine

end EventStaging
