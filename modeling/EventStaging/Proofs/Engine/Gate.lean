import EventStaging.Proofs.Engine.Intake

/-!
# The gate

The state of an engine decides whether it dispatches, and nothing else. Main statement
(`Engine.state_gates_dispatch`): the handler is called and the counter grows only where a running
engine is asked to dispatch, and an engine that is not running only warns. Producers do not notice
the state: two engines that are made from one configuration and hold the same records in as many
slots answer a push, and a request to clear the queue, in the same way (`Step.SameStaging`), so
starts and stops may be put anywhere between them.
-/

namespace EventStaging

variable {σ υ : Type} {view : σ → υ}

/-- Whether an operation asks an engine to dispatch. -/
def Op.isDispatch : Op → Bool
  | .process | .processAll => true
  | .push .. | .clear | .start | .stop => false

/-- Whether an operation is about what is queued, and dispatches nothing. -/
def Op.isStaging : Op → Bool
  | .push .. | .clear => true
  | .process | .processAll | .start | .stop => false

/-! ## Where records are dispatched -/

/-- A step dispatches if it asks a running engine to and something is queued. -/
def Step.Dispatches (step : Step σ) : Prop :=
  step.op.isDispatch ∧ step.before.state = .running ∧ step.before.queue.toList ≠ []

/-- In a step the counter grows and the handler is called if the step dispatches, and only then. -/
structure Step.Gated (step : Step σ) : Prop where
  grows_iff : step.before.processed < step.after.processed ↔ step.Dispatches
  kept : ¬ step.Dispatches → step.after.processed = step.before.processed
  delivers_iff : step.journal.deliveries ≠ [] ↔
    step.Dispatches ∧ step.before.callbacks.handler.isSome

/-- Two steps with the same result for producers: the same answer, the same questions to the filter
with the same answers, the same log lines, and as much in the queue. Equal rings stay equal slot by
slot. -/
structure Step.SameStaging (step step' : Step σ) : Prop where
  reply_eq : step.reply = step'.reply
  calls_eq : step.journal.calls = step'.journal.calls
  lines_eq : step.journal.lines = step'.journal.lines
  backlog_eq : step.after.queue.toBacklog = step'.after.queue.toBacklog
  queue_eq : step.before.queue = step'.before.queue → step.after.queue = step'.after.queue

/-- The filter sees only a part of the host, and the observer and the sink do not change that
part. -/
structure Callbacks.Secludes (callbacks : Callbacks σ) (view : σ → υ) : Prop where
  filter : ∀ filter, callbacks.filter = some filter → ∀ record, SeesOnly view (filter record)
  observer : ∀ observer, callbacks.observer = some observer →
    ∀ old new host, view (observer old new host).2 = view host
  sink : callbacks.SinkSpares view

namespace Engine

open Act (Only Spares)

variable {engine engine' : Engine σ} {op : Op} {host host' : σ}

/-- Something is taken out exactly if something is there, if anything may be taken at all. -/
theorem popUpTo_ne_nil_iff (hholds : engine.queue.Holds engine.queue.toList) {limit : Nat}
    (hlimit : engine.queue.toList ≠ [] → 0 < limit) :
    (engine.queue.popUpTo limit).1 ≠ [] ↔ engine.queue.toList ≠ [] := by
  rw [(hholds.popUpTo limit).1, Ne, List.take_eq_nil_iff]
  constructor
  · exact fun h hnil ↦ h (.inr hnil)
  · rintro h (hzero | hnil)
    · exact Nat.lt_irrefl 0 (hzero ▸ hlimit h)
    · exact h hnil

/-- What a step dispatches is what it pops, if it pops anything. -/
theorem dispatched_ne_nil_iff (hholds : engine.queue.Holds engine.queue.toList) (op : Op)
    (host : σ) : dispatched [engine.step op host] ≠ [] ↔ (engine.step op host).Dispatches := by
  have hpopped : ∀ limit, (engine.queue.toList ≠ [] → 0 < limit) → op.isDispatch →
      (engine.step op host).removed =
        (if engine.state.isRunning then (engine.queue.popUpTo limit).1.map .dispatched else []) →
      (dispatched [engine.step op host] ≠ [] ↔ (engine.step op host).Dispatches) := by
    intro limit hlimit hop hremoved
    by_cases hrunning : engine.state.isRunning
    · rw [if_pos hrunning] at hremoved
      rw [dispatched_of_dispatched hremoved, popUpTo_ne_nil_iff hholds hlimit]
      exact ⟨fun h ↦ ⟨hop, Lifecycle.isRunning_iff.mp hrunning, h⟩, fun h ↦ h.2.2⟩
    · rw [if_neg hrunning] at hremoved
      rw [dispatched, removed_singleton, hremoved]
      exact iff_of_false (· rfl) fun h ↦ hrunning (Lifecycle.isRunning_iff.mpr h.2.1)
  have hidle : ¬ op.isDispatch → dispatched [engine.step op host] = [] →
      (dispatched [engine.step op host] ≠ [] ↔ (engine.step op host).Dispatches) :=
    fun hop hnil ↦ iff_of_false (· hnil) fun h ↦ hop h.1
  -- A single dispatch pops one record if there is one, and a full one as many as there are.
  cases op with
  | process => exact hpopped 1 (fun _ ↦ Nat.one_pos) rfl rfl
  | processAll =>
      refine hpopped engine.queueSize (fun hne ↦ ?_) rfl rfl
      rw [queueSize, hholds.length_eq]
      exact List.length_pos_iff.mpr hne
  | clear => exact hidle Bool.false_ne_true (dispatched_of_dropped rfl)
  | push allocator kind source payload => exact hidle Bool.false_ne_true rfl
  | start => exact hidle Bool.false_ne_true rfl
  | stop => exact hidle Bool.false_ne_true rfl

/-- Every operation respects the gate. -/
theorem gated_step (hholds : engine.queue.Holds engine.queue.toList) (op : Op) (host : σ) :
    (engine.step op host).Gated := by
  have hbooks := Accounts.step hholds op host
  have hiff := dispatched_ne_nil_iff hholds op host
  have hprocessed := hbooks.processed_eq
  have hdeliveries := hbooks.deliveries_eq
  rw [List.flatMap_singleton] at hdeliveries
  constructor
  case grows_iff =>
    rw [← hiff, ← List.length_pos_iff]
    show engine.processed < _ ↔ _
    omega
  case kept =>
    intro hnot
    rw [hprocessed, not_not.mp (mt hiff.mp hnot)]
    rfl
  case delivers_iff =>
    rw [hdeliveries, ← hiff]
    show _ ↔ _ ∧ engine.callbacks.handler.isSome
    cases engine.callbacks.handler <;> simp

/-! ## Engines that are not running -/

/-- An engine that is not running only warns. -/
theorem halted (hstate : engine.state ≠ .running) (host : σ) :
    let one := engine.process.run host
    let all := engine.processAll.run host
    let warning := engine.offeredLines (.warn, "Processor not running")
    (one.value = (false, engine) ∧ one.journal.calls = [] ∧ one.journal.lines = warning) ∧
      all.value = (0, engine) ∧ all.journal.calls = [] ∧ all.journal.lines = warning := by
  have hrunning : ¬ engine.state.isRunning := mt Lifecycle.isRunning_iff.mp hstate
  have hwarns {α : Type} (value : α) :
      let done := (do engine.warnNotRunning; return value : Act σ α).run host
      done.value = value ∧ done.journal.calls = [] ∧
        done.journal.lines = engine.offeredLines (.warn, "Processor not running") :=
    ⟨rfl, (engine.quiet_conclude (.warn, "Processor not running") value host).calls_eq,
      engine.lines_conclude (.warn, "Processor not running") value host⟩
  rw [process_of_not_running hrunning, processAll_of_not_running hrunning]
  exact ⟨hwarns (false, engine), hwarns (0, engine)⟩

/-! ## Producers do not notice the state -/

/-- A push asks the filter once, if it comes so far and there is a filter. -/
theorem verdicts_push (hholds : engine.queue.Holds engine.queue.toList) (allocator : Allocator)
    (kind : Kind) (source : String) (payload : List UInt8) (host : σ) :
    let record : Record := ⟨kind, source, payload⟩
    (engine.step (.push allocator kind source payload) host).journal.verdicts =
      if (engine.fate allocator record host).asks then (engine.answer? record host).toList
      else [] := by
  intro record
  have hcalls := (decided_push hholds allocator kind source payload host).calls
  rw [step_of_apply_eq (engine.apply_push allocator kind source payload),
    ← Journal.verdicts_calls, hcalls]
  split
  · cases engine.answer? record host <;> rfl
  · rfl

/-- Two engines with the same callbacks hold the same records in as many slots. -/
structure Peers (engine engine' : Engine σ) : Prop where
  logging_eq : engine.logging = engine'.logging
  callbacks_eq : engine.callbacks = engine'.callbacks
  backlog_eq : engine.queue.toBacklog = engine'.queue.toBacklog
  holds : engine.queue.Holds engine.queue.toList
  holds' : engine'.queue.Holds engine'.queue.toList

namespace Peers

/-- Peers offer the same lines. -/
theorem offeredLines_eq (h : Peers engine engine') (line : Level × String) :
    engine.offeredLines line = engine'.offeredLines line := by
  rw [offeredLines, offeredLines, h.logging_eq, h.callbacks_eq]

/-- Peers log the same about the answer of a filter. -/
theorem doubts_eq (h : Peers engine engine') (kind : Kind) (answer : Option (Outcome Bool)) :
    engine.doubts kind answer = engine'.doubts kind answer := by
  unfold doubts
  simp only [h.offeredLines_eq]

/-- The filter is asked in the same way. If it answers the same, the fate is the same. -/
theorem fate_eq (h : Peers engine engine') {allocator : Allocator} {record : Record}
    (hanswer : (engine.fate allocator record host).asks →
      engine.answer? record host = engine'.answer? record host') :
    engine.fate allocator record host = engine'.fate allocator record host' := by
  refine (Fate.of_congr hanswer).trans ?_
  show Fate.of engine.queue.toBacklog.bound engine.queue.toBacklog.items.length
    engine.queue.toBacklog.slots _ _ _ = _
  rw [h.backlog_eq]
  rfl

/-- Whether the filter is asked does not depend on which of two peers takes the event in. -/
theorem asks_iff (h : Peers engine engine') (allocator : Allocator) (record : Record)
    (host host' : σ) :
    (engine.fate allocator record host).asks ↔ (engine'.fate allocator record host').asks := by
  rw [fate, fate, Fate.asks_of, Fate.asks_of]
  show engine.queue.toBacklog.bound ≠ some engine.queue.toBacklog.items.length ∧ _ ↔ _
  rw [h.backlog_eq]
  rfl

/-- Whether there is an answer does not depend on the host. -/
theorem length_answer? (h : Peers engine engine') (record : Record) (host host' : σ) :
    (engine.answer? record host).toList.length = (engine'.answer? record host').toList.length := by
  rw [answer?, answer?, h.callbacks_eq]
  cases engine'.callbacks.filter <;> rfl

/-- Peers have as many records queued. -/
theorem length_eq (h : Peers engine engine') :
    engine.queue.toList.length = engine'.queue.toList.length :=
  congrArg (List.length ·.items) h.backlog_eq

theorem queueSize_eq (h : Peers engine engine') : engine.queueSize = engine'.queueSize := by
  rw [queueSize, queueSize, h.holds.length_eq, h.holds'.length_eq]
  exact h.length_eq

/-- A push is decided in the same way. -/
theorem push (h : Peers engine engine') (allocator : Allocator) (kind : Kind) (source : String)
    (payload : List UInt8)
    (hanswer : (engine.fate allocator ⟨kind, source, payload⟩ host).asks →
      engine.answer? ⟨kind, source, payload⟩ host =
        engine'.answer? ⟨kind, source, payload⟩ host') :
    (engine.step (.push allocator kind source payload) host).SameStaging
      (engine'.step (.push allocator kind source payload) host') := by
  have hone := decided_push h.holds allocator kind source payload host
  have hother := decided_push h.holds' allocator kind source payload host'
  simp only at hone hother
  -- The same fate is met on both sides; reply, calls, lines and queue are all read off it.
  rw [← h.fate_eq hanswer] at hother
  rw [step_of_apply_eq (engine.apply_push ..), step_of_apply_eq (engine'.apply_push ..)]
  constructor
  case reply_eq => exact congrArg Reply.ofPush (hone.result.trans hother.result.symm)
  case calls_eq =>
    refine hone.calls.trans (Eq.trans ?_ hother.calls.symm)
    split
    · rw [hanswer ‹_›]
    · rfl
  case lines_eq =>
    refine hone.lines.trans (Eq.trans ?_ hother.lines.symm)
    rw [h.offeredLines_eq, h.length_eq]
    split
    · rw [hanswer ‹_›, h.doubts_eq]
    · rfl
  case backlog_eq =>
    show ((engine.push allocator kind source payload).run host).value.2.queue.toBacklog =
      ((engine'.push allocator kind source payload).run host').value.2.queue.toBacklog
    rw [hone.after, hother.after]
    split
    · have hstands := h.holds.standsFor.push allocator.slots ⟨kind, source, payload⟩
      have hstands' := h.holds'.standsFor.push allocator.slots ⟨kind, source, payload⟩
      rw [← h.backlog_eq] at hstands'
      exact hstands.2.toBacklog_eq.trans hstands'.2.toBacklog_eq.symm
    · exact h.backlog_eq
  case queue_eq =>
    intro hqueue
    have hqueue' : engine.queue = engine'.queue := hqueue
    show ((engine.push allocator kind source payload).run host).value.2.queue =
      ((engine'.push allocator kind source payload).run host').value.2.queue
    rw [hone.after, hother.after]
    split
    · exact congrArg (fun queue ↦ (Ring.push allocator.slots queue _).2) hqueue'
    · exact hqueue'

/-- Peers clear their queues alike. -/
theorem clear (h : Peers engine engine') :
    (engine.step .clear host).SameStaging (engine'.step .clear host') := by
  rw [step_of_apply_eq engine.apply_clear, step_of_apply_eq engine'.apply_clear, value_clear,
    value_clear]
  constructor
  case reply_eq => exact congrArg Reply.count h.queueSize_eq
  case calls_eq =>
    exact (engine.quiet_clear host).calls_eq.trans (engine'.quiet_clear host').calls_eq.symm
  case lines_eq =>
    refine (engine.lines_clear host).trans (Eq.trans ?_ (engine'.lines_clear host').symm)
    rw [h.queueSize_eq, h.offeredLines_eq]
  case backlog_eq =>
    have hstands' := h.holds'.standsFor.clear.2.toBacklog_eq
    rw [← h.backlog_eq] at hstands'
    exact h.holds.standsFor.clear.2.toBacklog_eq.trans hstands'.symm
  case queue_eq => exact fun hqueue ↦ congrArg (Ring.clear · |>.2) hqueue

/-- An operation about the queue has the same result. -/
theorem staging (h : Peers engine engine') (hstaging : op.isStaging)
    (hanswer : ∀ record, engine.answer? record host = engine'.answer? record host') :
    (engine.step op host).SameStaging (engine'.step op host') := by
  cases op with
  | push allocator kind source payload =>
      exact h.push allocator kind source payload fun _ ↦ hanswer _
  | clear => exact h.clear
  | process | processAll | start | stop => cases hstaging

/-- If the filter answers the same from here on, an operation about the queue has the same result,
and the filter answers the same after it. -/
theorem staging_of_verdicts (h : Peers engine engine') (hstaging : op.isStaging)
    {later later' : List (Outcome Bool)}
    (hverdicts : (engine.step op host).journal.verdicts ++ later =
      (engine'.step op host').journal.verdicts ++ later') :
    (engine.step op host).SameStaging (engine'.step op host') ∧ later = later' := by
  cases op with
  | push allocator kind source payload =>
      have hasks := h.asks_iff allocator ⟨kind, source, payload⟩ host host'
      rw [verdicts_push h.holds, verdicts_push h.holds'] at hverdicts
      by_cases hasked : (engine.fate allocator ⟨kind, source, payload⟩ host).asks
      · rw [if_pos hasked, if_pos (hasks.mp hasked)] at hverdicts
        obtain ⟨hanswer, hlater⟩ := List.append_inj hverdicts (h.length_answer? _ host host')
        refine ⟨h.push allocator kind source payload fun _ ↦ ?_, hlater⟩
        simpa using congrArg List.head? hanswer
      · rw [if_neg hasked, if_neg (mt hasks.mpr hasked)] at hverdicts
        exact ⟨h.push allocator kind source payload fun hasks ↦ absurd hasks hasked, hverdicts⟩
  | clear =>
      have hquiet : (engine.step .clear host).journal.verdicts = [] :=
        (engine.only_apply .clear host).verdicts_eq
      have hquiet' : (engine'.step .clear host').journal.verdicts = [] :=
        (engine'.only_apply .clear host').verdicts_eq
      rw [hquiet, hquiet'] at hverdicts
      exact ⟨h.clear, hverdicts⟩
  | process | processAll | start | stop => cases hstaging

/-- Engines stay peers if their queues do. -/
theorem of_steps {op' : Op} (h : Peers engine engine')
    (hbacklog : (engine.step op host).after.queue.toBacklog =
      (engine'.step op' host').after.queue.toBacklog) :
    Peers (engine.step op host).after (engine'.step op' host').after where
  logging_eq := (engine.logging_apply op host).trans
    (h.logging_eq.trans (engine'.logging_apply op' host').symm)
  callbacks_eq := (engine.callbacks_apply op host).trans
    (h.callbacks_eq.trans (engine'.callbacks_apply op' host').symm)
  backlog_eq := hbacklog
  holds := (Accounts.step h.holds op host).holds
  holds' := (Accounts.step h.holds' op' host').holds

end Peers

/-! ## Starts and stops between pushes -/

/-- A filter that sees the same answers the same. -/
theorem answer?_eq (hsecludes : engine.callbacks.Secludes view)
    (hcallbacks : engine.callbacks = engine'.callbacks) (hview : view host = view host')
    (record : Record) : engine.answer? record host = engine'.answer? record host' := by
  rw [answer?, answer?, ← hcallbacks]
  cases hfilter : engine.callbacks.filter with
  | none => rfl
  | some filter => exact congrArg some (hsecludes.filter filter hfilter record host host' hview).1

/-- A filter that sees the same leaves the same to be seen. -/
theorem view_afterFilter (hsecludes : engine.callbacks.Secludes view)
    (hcallbacks : engine.callbacks = engine'.callbacks) (hview : view host = view host')
    (record : Record) :
    view (engine.afterFilter record host) = view (engine'.afterFilter record host') := by
  rw [afterFilter, afterFilter, ← hcallbacks]
  cases hfilter : engine.callbacks.filter with
  | none => exact hview
  | some filter => exact (hsecludes.filter filter hfilter record host host' hview).2

/-- What the filter sees of the host after an operation about the queue is the same. -/
theorem view_staging (h : Peers engine engine') (hsecludes : engine.callbacks.Secludes view)
    (hview : view host = view host') (hstaging : op.isStaging) :
    view (engine.step op host).host = view (engine'.step op host').host := by
  have hsink' : engine'.callbacks.SinkSpares view := h.callbacks_eq ▸ hsecludes.sink
  cases op with
  | push allocator kind source payload =>
      have hone := decided_push h.holds allocator kind source payload host
      have hother := decided_push h.holds' allocator kind source payload host'
      have hanswer := answer?_eq hsecludes h.callbacks_eq hview ⟨kind, source, payload⟩
      simp only at hone hother
      rw [← h.fate_eq fun _ ↦ hanswer] at hother
      refine (hone.view hsecludes.sink).trans (Eq.trans ?_ (hother.view hsink').symm)
      split
      · exact view_afterFilter hsecludes h.callbacks_eq hview _
      · exact hview
  | clear =>
      exact ((reports_spares hsecludes.sink).clear host).trans
        (hview.trans ((reports_spares hsink').clear host').symm)
  | process | processAll | start | stop => cases hstaging

/-- A change of state leaves what the filter sees of the host. -/
theorem spares_moveTo (hsecludes : engine.callbacks.Secludes view) (new : Lifecycle) :
    Spares view (engine.moveTo new) := by
  have hreports := reports_spares hsecludes.sink
  unfold moveTo
  split
  · exact (Act.Trait.spares view).pure _
  · refine (Act.Trait.spares view).seq (spares_log hsecludes.sink _ _) fun _ ↦
      (Act.Trait.spares view).seq ?_ fun _ ↦ (Act.Trait.spares view).pure _
    rw [announce_eq]
    cases hobserver : engine.callbacks.observer with
    | none => exact (Act.Trait.spares view).pure ()
    | some observer =>
        refine (Act.Trait.spares view).seq ?_ fun _ ↦
          (hreports.of_moved new _ _).contain _ _ _ _
        exact fun host ↦ hsecludes.observer observer hobserver _ _ host

/-- A start or a stop changes the state, and does not ask the filter. -/
theorem step_of_move (hdispatch : ¬ op.isDispatch) (hstaging : ¬ op.isStaging) (host : σ) :
    (∃ state, (engine.step op host).after = { engine with state }) ∧
      (engine.step op host).journal.verdicts = [] := by
  cases op with
  | push | clear => exact absurd rfl hstaging
  | process | processAll => exact absurd rfl hdispatch
  | start =>
      exact ⟨⟨_, engine.value_moveTo .running host⟩,
        (engine.only_apply .start host).verdicts_eq_of_isMove⟩
  | stop =>
      exact ⟨⟨_, engine.value_moveTo .stopped host⟩,
        (engine.only_apply .stop host).verdicts_eq_of_isMove⟩

/-- A start or a stop leaves what the filter sees of the host. -/
theorem view_move (hsecludes : engine.callbacks.Secludes view) (hdispatch : ¬ op.isDispatch)
    (hstaging : ¬ op.isStaging) (host : σ) : view (engine.step op host).host = view host := by
  cases op with
  | push | clear => exact absurd rfl hstaging
  | process | processAll => exact absurd rfl hdispatch
  | start => exact spares_moveTo hsecludes .running host
  | stop => exact spares_moveTo hsecludes .stopped host

/-- The steps of a run that are about the queue. -/
def staging (steps : List (Step σ)) : List (Step σ) := steps.filter (·.op.isStaging)

/-- A step for producers is among the steps for producers. -/
theorem staging_cons_of_staging {step : Step σ} (hstaging : step.op.isStaging)
    (steps : List (Step σ)) : staging (step :: steps) = step :: staging steps :=
  List.filter_cons_of_pos hstaging

/-- A step that is not for producers is not among them. -/
theorem staging_cons_of_not_staging {step : Step σ} (hstaging : ¬ step.op.isStaging)
    (steps : List (Step σ)) : staging (step :: steps) = staging steps :=
  List.filter_cons_of_neg hstaging

/-- The answers of the filter in a run. -/
def verdicts (steps : List (Step σ)) : List (Outcome Bool) :=
  steps.flatMap fun step ↦ step.journal.verdicts

/-- The verdicts of a run are those of its first step and then of the others. -/
theorem verdicts_cons (step : Step σ) (steps : List (Step σ)) :
    verdicts (step :: steps) = step.journal.verdicts ++ verdicts steps := rfl

/-- An engine stays a peer when it moves to another state. -/
theorem Peers.of_move (h : Peers engine engine') {state : Lifecycle}
    (hafter : (engine.step op host).after = { engine with state }) :
    Peers (engine.step op host).after engine' := by
  rw [hafter]
  exact ⟨h.logging_eq, h.callbacks_eq, h.backlog_eq, h.holds, h.holds'⟩

/-- Starts and stops may be put anywhere between pushes and requests to clear the queue, as long as
the filter answers the same. -/
theorem sameStaging_steps {mixed : List Op} (h : Peers engine engine')
    (hqueue : engine.queue = engine'.queue) (hmixed : ∀ op ∈ mixed, ¬ op.isDispatch)
    (hverdicts : verdicts (engine.steps mixed host) =
      verdicts (engine'.steps (mixed.filter Op.isStaging) host')) :
    List.Forall₂ Step.SameStaging (staging (engine.steps mixed host))
        (engine'.steps (mixed.filter Op.isStaging) host') ∧
      (engine.after mixed host).queue =
        (engine'.after (mixed.filter Op.isStaging) host').queue := by
  induction mixed generalizing engine engine' host host' with
  | nil => exact ⟨.nil, hqueue⟩
  | cons op mixed ih =>
      have hrest : ∀ op ∈ mixed, ¬ op.isDispatch := fun op hmem ↦ hmixed op (.tail _ hmem)
      by_cases hstaging : op.isStaging
      case pos =>
        -- Both runs take the step, with the same result.
        rw [List.filter_cons_of_pos hstaging] at hverdicts ⊢
        rw [steps_cons, steps_cons, verdicts_cons, verdicts_cons] at hverdicts
        obtain ⟨hsame, hlater⟩ := h.staging_of_verdicts hstaging hverdicts
        obtain ⟨hsteps, hlast⟩ :=
          ih (h.of_steps hsame.backlog_eq) (hsame.queue_eq hqueue) hrest hlater
        rw [steps_cons, staging_cons_of_staging hstaging]
        exact ⟨.cons hsame hsteps, hlast⟩
      case neg =>
        -- Only the first run takes the step, and the engine has the same queue afterwards.
        obtain ⟨⟨state, hafter⟩, hnone⟩ := step_of_move (hmixed op (.head _)) hstaging host
        rw [List.filter_cons_of_neg hstaging] at hverdicts ⊢
        rw [steps_cons, verdicts_cons, hnone, List.nil_append] at hverdicts
        rw [steps_cons, staging_cons_of_not_staging hstaging]
        refine ih (h.of_move hafter) ?_ hrest hverdicts
        rw [hafter]
        exact hqueue

/-- A filter that sees nothing of what the observer and the sink do answers the same. -/
theorem verdicts_steps {mixed : List Op} (h : Peers engine engine')
    (hsecludes : engine.callbacks.Secludes view) (hview : view host = view host')
    (hmixed : ∀ op ∈ mixed, ¬ op.isDispatch) :
    verdicts (engine.steps mixed host) =
      verdicts (engine'.steps (mixed.filter Op.isStaging) host') := by
  induction mixed generalizing engine engine' host host' with
  | nil => rfl
  | cons op mixed ih =>
      have hrest : ∀ op ∈ mixed, ¬ op.isDispatch := fun op hmem ↦ hmixed op (.tail _ hmem)
      have hsecludes' := engine.callbacks_apply op host ▸ hsecludes
      by_cases hstaging : op.isStaging
      case pos =>
        have hsame := h.staging hstaging (answer?_eq hsecludes h.callbacks_eq hview)
        have hview' := view_staging h hsecludes hview hstaging
        rw [List.filter_cons_of_pos hstaging, steps_cons, steps_cons, verdicts_cons, verdicts_cons,
          ← Journal.verdicts_calls, hsame.calls_eq, Journal.verdicts_calls]
        exact congrArg _ (ih (h.of_steps hsame.backlog_eq) hsecludes' hview' hrest)
      case neg =>
        have hmove := hmixed op (.head _)
        obtain ⟨⟨state, hafter⟩, hnone⟩ := step_of_move hmove hstaging host
        rw [List.filter_cons_of_neg hstaging, steps_cons, verdicts_cons, hnone, List.nil_append]
        exact ih (h.of_move hafter) hsecludes'
          ((view_move hsecludes hmove hstaging host).trans hview) hrest

/-- No run changes whether an engine logs. -/
theorem logging_after (engine : Engine σ) (ops : List Op) (host : σ) :
    (engine.after ops host).logging = engine.logging := by
  obtain ⟨state, queue, processed, -, hvalue⟩ := engine.exists_eq_run ops host
  rw [after, hvalue]

/-- The state of an engine gates dispatch, and nothing else. First, only steps that ask a running
engine to dispatch call the handler and add to the counter. Second, an engine that is not running
stays as it is when it is asked to, calls nobody and warns. Third, the state and the counter make no
difference to pushes and to clearing the queue. Fourth, neither do starts and stops in between, as
long as the filter answers the same; and it does if it sees nothing of what the observer and the
sink do. -/
theorem state_gates_dispatch (config : Config σ) (ops : List Op) (host : σ) :
    let first := ofConfig config
    let engine := first.after ops host
    ((∀ step ∈ first.steps ops host, step.Gated) ∧ (create config).Quiet ∧ engine.retire.Quiet) ∧
      (engine.state ≠ .running → ∀ now,
        let one := engine.process.run now
        let all := engine.processAll.run now
        let warning := engine.offeredLines (.warn, "Processor not running")
        (one.value = (false, engine) ∧ one.journal.calls = [] ∧ one.journal.lines = warning) ∧
          all.value = (0, engine) ∧ all.journal.calls = [] ∧ all.journal.lines = warning) ∧
      (∀ ops' host' now now',
        let engine' := first.after ops' host'
        engine.queue.toBacklog = engine'.queue.toBacklog →
          (∀ record, engine.answer? record now = engine'.answer? record now') →
          ∀ op, op.isStaging → (engine.step op now).SameStaging (engine'.step op now')) ∧
      ∀ mixed, (∀ op ∈ mixed, ¬ op.isDispatch) → ∀ now now',
        let run := engine.steps mixed now
        let staged := engine.steps (mixed.filter Op.isStaging) now'
        (verdicts run = verdicts staged →
          List.Forall₂ Step.SameStaging (staging run) staged ∧
            (engine.after mixed now).queue =
              (engine.after (mixed.filter Op.isStaging) now').queue) ∧
        ∀ (υ : Type) (view : σ → υ), config.callbacks.Secludes view → view now = view now' →
          verdicts run = verdicts staged := by
  intro first engine
  have hbooks : Accounts first _ engine := accounts_ofConfig config ops host
  have hpeers (ops' : List Op) (host' : σ)
      (hbacklog : engine.queue.toBacklog = (first.after ops' host').queue.toBacklog) :
      Peers engine (first.after ops' host') := by
    have hbooks' : Accounts first _ (first.after ops' host') := accounts_ofConfig config ops' host'
    exact ⟨(first.logging_after ops host).trans (first.logging_after ops' host').symm,
      hbooks.callbacks_eq.trans hbooks'.callbacks_eq.symm, hbacklog, hbooks.holds, hbooks'.holds⟩
  have hgated : ∀ step ∈ first.steps ops host, step.Gated :=
    forall_steps_of_holds config ops host fun _ op host hholds ↦ gated_step hholds op host
  refine ⟨⟨hgated, quiet_create config, engine.quiet_retire⟩, fun hstate now ↦ halted hstate now,
    ?_, ?_⟩
  · intro ops' host' now now' engine' hbacklog hanswer op hstaging
    exact (hpeers ops' host' hbacklog).staging hstaging hanswer
  · intro mixed hmixed now now' run staged
    -- The engine as it stands is a peer of itself, whatever became of the host.
    refine ⟨sameStaging_steps (hpeers ops host rfl) rfl hmixed, fun υ view hsecludes hview ↦ ?_⟩
    have hcallbacks : engine.callbacks = config.callbacks := hbooks.callbacks_eq
    exact verdicts_steps (hpeers ops host rfl) (hcallbacks ▸ hsecludes) hview hmixed

/-- A filter that lets every other record in, and an observer that counts on its own. -/
theorem state_gates_dispatch_of_alternating_filter :
    let filter : Filter (Nat × Nat) := fun _ host ↦
      (.returned (host.1 % 2 == 0), host.1 + 1, host.2)
    let observer : Observer (Nat × Nat) := fun _ _ host ↦ (none, host.1, host.2 + 1)
    let engine := ofConfig
      { name := "gate", callbacks := { filter := some filter, observer := some observer } }
    let push := Op.push .unlimited .data "source" []
    List.Forall₂ Step.SameStaging
      (staging (engine.steps [.start, push, .stop, push, .start, .clear] (0, 0)))
      (engine.steps [push, push, .clear] (0, 0)) := by
  intro filter observer engine push
  have hsecludes : engine.callbacks.Secludes Prod.fst := {
    filter := by
      rintro _ ⟨rfl⟩ record host host' hview
      exact ⟨congrArg (fun count ↦ Outcome.returned (count % 2 == 0)) hview,
        congrArg (· + 1) hview⟩
    observer := by
      rintro _ ⟨rfl⟩ old new host
      rfl
    sink := nofun }
  have hmixed : ∀ op ∈ [.start, push, .stop, push, .start, .clear], ¬ op.isDispatch := by decide
  have hgates := state_gates_dispatch { name := "gate", callbacks := engine.callbacks } [] (0, 0)
  obtain ⟨hstaging, hverdicts⟩ := hgates.2.2.2 _ hmixed (0, 0) (0, 0)
  exact (hstaging (hverdicts Nat Prod.fst hsecludes rfl)).1

end Engine

end EventStaging
