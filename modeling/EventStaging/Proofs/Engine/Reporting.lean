import EventStaging.Proofs.Engine.Intake
import EventStaging.Proofs.Engine.Logging

/-!
# What is reported of failures

A filter, a handler or an observer that ends in an error or a panic meets with a mishap
(`Journal.mishaps`). Each mishap is reported by a trace event, and by a line at the level of errors if
lines are heard; a push for which there is no storage has such a line too. Main statement
(`Engine.failures_reported`): over the whole life of an engine nothing else is reported as a failure,
the reports come in the order in which the failures happened, and neither logging nor the sink makes
a difference to the events. A panic of the sink is answered by one event of its own.
-/

namespace EventStaging

open Doubles (LogCapture)

variable {σ ρ τ α : Type}

/-! ## Mishaps -/

/-- How a call failed, in the words of the host, if it did. -/
def Outcome.failure? : Outcome α → Option Failure
  | .returned _ => none
  | .failed error => some (.failed error)
  | .panicked (.text message) => some (.panicked message)
  | .panicked .other => some (.panicked "non-string panic payload")

/-- A call of a callback that failed: the part of the callback, the kind of the record if the call
was about one, and how it failed. -/
structure Mishap where
  role : Role
  kind : Option Kind
  failure : Failure
  deriving DecidableEq, Repr

namespace Mishap

/-- The trace event about a mishap. -/
def event (engine : String) (mishap : Mishap) : Trace.Event :=
  .callbackFailed engine mishap.role mishap.kind mishap.failure

/-- The log line about a mishap. -/
def line (mishap : Mishap) : Level × String :=
  (.error, Engine.failureLine mishap.role mishap.kind mishap.failure)

/-- The text that came with the failure: that of the error, or the payload of the panic. -/
def text (mishap : Mishap) : String :=
  match mishap.failure with
  | .failed error => error
  | .panicked message => message

/-- The line names the callback and ends with the text. -/
theorem exists_line_eq (mishap : Mishap) :
    ∃ middle, mishap.line =
      (.error, "Panic or error in " ++ mishap.role.name ++ " handler" ++ middle ++ mishap.text) := by
  obtain ⟨role, kind, failure⟩ := mishap
  -- What the failure says is an opening, which tells errors from panics, and then the text.
  have hfailure : ∃ opening, failure.message = opening ++ text ⟨role, kind, failure⟩ := by
    cases failure with
    | failed error => exact ⟨"callback failed: ", rfl⟩
    | panicked message => exact ⟨"callback panicked: ", rfl⟩
  obtain ⟨opening, hmessage⟩ := hfailure
  cases kind with
  | none =>
      have hhandler : " handler: " = " handler" ++ ": " := rfl
      refine ⟨": " ++ opening, congrArg (Level.error, ·) ?_⟩
      show "Panic or error in " ++ role.name ++ " handler: " ++ failure.message = _
      rw [hmessage, hhandler]
      simp only [String.append_assoc]
  | some kind =>
      have hhandler : " handler (type=" = " handler" ++ " (type=" := rfl
      refine ⟨" (type=" ++ kind.name ++ "): " ++ opening, congrArg (Level.error, ·) ?_⟩
      show "Panic or error in " ++ role.name ++ " handler (type=" ++ kind.name ++ "): " ++
        failure.message = _
      rw [hmessage, hhandler]
      simp only [String.append_assoc]

end Mishap

/-- The failed call of a callback that an observation is about, if it is about one. -/
def Observation.mishap? : Observation → Option Mishap
  | .offered record outcome => outcome.failure?.map (⟨.filter, some record.kind, ·⟩)
  | .delivered record outcome => outcome.failure?.map (⟨.event, some record.kind, ·⟩)
  | .notified _ _ outcome => outcome.failure?.map (⟨.stateChange, none, ·⟩)
  | .logged .. | .traced _ => none

namespace Journal

/-- The failed calls of callbacks. -/
def mishaps (journal : Journal) : List Mishap := journal.filterMap Observation.mishap?

/-- The levels of the lines over which the sink panicked. -/
def sinkPanics (journal : Journal) : List Level :=
  journal.filterMap fun
    | .logged level _ outcome => outcome.failure?.map fun _ ↦ level
    | _ => none

/-- The lines at the level of errors. -/
def errorLines (journal : Journal) : List (Level × String) :=
  journal.lines.filter (·.1 == .error)

/-- The trace events of two journals in turn are those of the one and then of the other. So it is
with failed calls and error lines. -/
@[simp] theorem events_append (first second : Journal) :
    events (first ++ second) = events first ++ events second :=
  List.filterMap_append

@[simp] theorem mishaps_append (first second : Journal) :
    mishaps (first ++ second) = mishaps first ++ mishaps second :=
  List.filterMap_append

@[simp] theorem errorLines_append (first second : Journal) :
    errorLines (first ++ second) = errorLines first ++ errorLines second := by
  rw [errorLines, lines_append, List.filter_append]
  rfl

/-- The calls of a journal tell all the failed ones. -/
theorem mishaps_calls (journal : Journal) : journal.calls.mishaps = journal.mishaps :=
  journal.filterMap_calls fun observation hreport ↦ by cases observation <;> trivial

/-- A call of the filter, the handler or the observer is no trace event. -/
theorem events_of_not_report {observation : Observation} (h : observation.isReport = false) :
    events [observation] = [] := by
  cases observation <;> first | rfl | cases h

/-- A call of the filter, the handler or the observer is no error line. -/
theorem errorLines_of_not_report {observation : Observation} (h : observation.isReport = false) :
    errorLines [observation] = [] := by
  cases observation <;> first | rfl | cases h

/-- In a journal of reports no call has failed. -/
theorem Only.mishaps_eq {journal : Journal} (h : journal.Only Observation.isReport) :
    journal.mishaps = [] :=
  h.filterMap_eq_nil fun observation hreport ↦ by cases observation <;> trivial

end Journal

/-! ## Contained calls -/

/-- How the calls of a callback are noted: the failed ones as mishaps. -/
structure Observation.Witness (role : Role) (kind : Option Kind) (note : Outcome α → Observation) :
    Prop where
  isReport : ∀ outcome, (note outcome).isReport = false
  mishap? : ∀ outcome, (note outcome).mishap? = outcome.failure?.map (⟨role, kind, ·⟩)

namespace Engine

variable {engine : Engine σ} {trait : Act.Trait σ}

/-- The calls that an engine contains have a trait, whichever callback they are noted for. -/
structure Contains (trait : Act.Trait σ) (engine : Engine σ) : Prop where
  call : ∀ {α : Type} {role : Role} {kind : Option Kind} {note : Outcome α → Observation},
    Observation.Witness role kind note → ∀ (f : σ → Outcome α × σ) (fallback : α),
      trait.Has (Act.call f note >>= engine.contain role kind fallback)

namespace Contains

/-- Asking the filter has the trait of a contained call. -/
theorem admits (h : engine.Contains trait) (record : Record) : trait.Has (engine.admits record) := by
  rw [admits_eq]
  cases engine.callbacks.filter with
  | none => exact trait.pure true
  | some filter => exact h.call ⟨fun _ ↦ rfl, fun _ ↦ rfl⟩ (filter record) true

/-- Calling the handler has the trait of a contained call. -/
theorem deliver (h : engine.Contains trait) (record : Record) :
    trait.Has (engine.deliver record) := by
  rw [deliver_eq]
  cases engine.callbacks.handler with
  | none => exact trait.pure ()
  | some handler => exact h.call ⟨fun _ ↦ rfl, fun _ ↦ rfl⟩ (handler record) ()

/-- Telling the observer has the trait of a contained call. -/
theorem announce (h : engine.Contains trait) (old new : Lifecycle) :
    trait.Has (engine.announce old new) := by
  rw [announce_eq]
  cases engine.callbacks.observer with
  | none => exact trait.pure ()
  | some observer =>
      exact h.call ⟨fun _ ↦ rfl, fun _ ↦ rfl⟩
        (fun host ↦ (Outcome.ofPanic? (observer old new host).1, (observer old new host).2)) ()

end Contains

end Engine

/-! ## Trace events -/

/-- The label under which a sink passes lines on, if it does. -/
def Sink.label? : Sink σ → Option String
  | .host _ => none
  | .forward label => some label

/-- The trace events that an engine owes to an observation: one for a mishap, one for a line that is
passed on under a label, and one for a line over which the sink panicked. -/
def Observation.aftermath (engine : String) (label? : Option String) :
    Observation → List Trace.Event
  | .logged level message outcome =>
    (label?.map (.forwarded · level message)).toList ++
      (outcome.failure?.map fun _ ↦ .sinkPanicked engine level).toList
  | observation => (observation.mishap?.map (Mishap.event engine)).toList

/-- A call that failed is followed by the trace event about it, and one that did not by nothing. -/
theorem Observation.aftermath_of_not_report {observation : Observation}
    (h : observation.isReport = false) (engine : String) (label? : Option String) :
    observation.aftermath engine label? =
      (observation.mishap?.map (Mishap.event engine)).toList := by
  cases observation <;> first | rfl | cases h

/-- The trace events of an action are those that its observations call for. -/
def Act.Trait.explained (σ : Type) (engine : String) (label? : Option String) : Act.Trait σ where
  Has action := ∀ host, (action.run host).journal.events =
    (action.run host).journal.flatMap (Observation.aftermath engine label?)
  pure _ := fun _ ↦ rfl
  bind haction hnext := by
    intro host
    rw [Act.journal_bind, Journal.events_append, List.flatMap_append, haction, hnext]

namespace Engine

variable {engine : Engine σ}

/-- The label under which the lines of an engine are passed on, if they are. -/
def label? (engine : Engine σ) : Option String := engine.callbacks.sink.bind Sink.label?

/-- Logging a line reports no more than what becomes of the line at the sink. -/
theorem explained_log (engine : Engine σ) (level : Level) (message : String) :
    (Act.Trait.explained σ engine.name engine.label?).Has (engine.log level message) := by
  intro host
  unfold log label?
  cases engine.logging with
  | false => rfl
  | true =>
      rcases engine.callbacks.sink with _ | ⟨write⟩ | label
      · rfl
      · show ((Act.write (.host write) engine.name level message).run host).journal.events =
          ((Act.write (.host write) engine.name level message).run host).journal.flatMap _
        unfold Act.write
        rw [Act.journal_bind, Act.run_call]
        rcases write level message host with ⟨_ | _ | message, host⟩ <;> rfl
      · rfl

/-- A contained call that failed is reported and has the value to fall back on, and else it has its
own. -/
theorem contain_eq (engine : Engine σ) (role : Role) (kind : Option Kind) (fallback : α)
    (outcome : Outcome α) :
    engine.contain role kind fallback outcome =
      outcome.failure?.elim (pure (outcome.getD fallback)) fun failure ↦ do
        engine.report role kind failure
        return fallback := by
  rcases outcome with value | error | message | _ <;> rfl

/-- A contained call has its mishap reported, if it ended in one. -/
theorem events_contain (engine : Engine σ) (role : Role) (kind : Option Kind) (fallback : α)
    (outcome : Outcome α) (host : σ) :
    let journal := ((engine.contain role kind fallback outcome).run host).journal
    journal.events =
      (outcome.failure?.map fun failure ↦ Mishap.event engine.name ⟨role, kind, failure⟩).toList ++
        journal.flatMap (Observation.aftermath engine.name engine.label?) := by
  intro journal
  have hjournal : journal = ((engine.contain role kind fallback outcome).run host).journal := rfl
  rw [contain_eq] at hjournal
  cases hfailure : outcome.failure? with
  | none =>
      rw [hjournal, hfailure]
      rfl
  | some failure =>
      have hlog := engine.explained_log .error (failureLine role kind failure) host
      rw [hfailure, Option.elim_some, report, bind_assoc, Act.journal_bind, Act.journal_bind,
        Act.run_pure, List.append_nil] at hjournal
      rw [hjournal, Journal.events_append, List.flatMap_append]
      exact congrArg (Mishap.event engine.name ⟨role, kind, failure⟩ :: ·) hlog

/-- The trace events of a contained call are what follows from the call. -/
theorem contains_explained (engine : Engine σ) :
    engine.Contains (.explained σ engine.name engine.label?) := by
  refine ⟨fun {α role kind note} hnote f fallback host ↦ ?_⟩
  have hreport := hnote.isReport (f host).1
  rw [Act.journal_bind, Journal.events_append, List.flatMap_append, events_contain, Act.run_call,
    Journal.events_of_not_report hreport, List.flatMap_singleton,
    Observation.aftermath_of_not_report hreport, hnote.mishap?, Option.map_map]
  rfl

/-- The trace events of all that an operation is made of follow from its calls and lines. -/
theorem parts_explained (engine : Engine σ) :
    engine.Parts (.explained σ engine.name engine.label?) :=
  ⟨fun level message _ ↦ engine.explained_log level message, engine.contains_explained.admits,
    engine.contains_explained.deliver, engine.contains_explained.announce⟩

end Engine

/-! ## Lines at the level of errors -/

/-- The lines at the level of errors are those about mishaps. -/
def Act.Trait.owning (σ : Type) : Act.Trait σ where
  Has action := ∀ host, (action.run host).journal.errorLines =
    (action.run host).journal.mishaps.map Mishap.line
  pure _ := fun _ ↦ rfl
  bind haction hnext := by
    intro host
    rw [Act.journal_bind, Journal.errorLines_append, Journal.mishaps_append, List.map_append,
      haction, hnext]

/-- The line about an event for which there was no storage, if this is the answer. -/
def Reply.droppingLines : Reply → List (Level × String)
  | .refused (.allocation bytes) => [(.error, Engine.droppingLine bytes)]
  | _ => []

/-- The lines at the level of errors that a step calls for: one for each mishap, and then one if an
event was dropped for want of storage. -/
def Step.errorLines (step : Step σ) : List (Level × String) :=
  step.journal.mishaps.map Mishap.line ++ step.reply.droppingLines

namespace Engine

variable {engine : Engine σ}

/-- A line of another level is no error line. -/
theorem errorLines_log_of_ne (engine : Engine σ) {level : Level} (hlevel : level ≠ .error)
    (message : String) (host : σ) :
    ((engine.log level message).run host).journal.errorLines = [] := by
  rw [Journal.errorLines, lines_log, offeredLines]
  split
  · exact List.filter_cons_of_neg (by simpa using hlevel)
  · rfl

/-- A contained call logs one error line if it failed, and none otherwise. -/
theorem errorLines_contain (h : engine.Heard) (role : Role) (kind : Option Kind) (fallback : α)
    (outcome : Outcome α) (host : σ) :
    ((engine.contain role kind fallback outcome).run host).journal.errorLines =
      (outcome.failure?.map fun failure ↦ Mishap.line ⟨role, kind, failure⟩).toList := by
  rw [Journal.errorLines, lines_contain]
  rcases outcome with value | error | message | _
  · rfl
  all_goals
    simp only [Outcome.guarded]
    rw [offeredLines_of_heard h]
    rfl

/-- A line of another level owns up to no failure. -/
theorem owning_log (engine : Engine σ) {level : Level} (hlevel : level ≠ .error)
    (message : String) : (Act.Trait.owning σ).Has (engine.log level message) := by
  intro host
  rw [(engine.quiet_log level message host).mishaps_eq, errorLines_log_of_ne engine hlevel]
  rfl

/-- The error lines of a contained call are those of its failure. -/
theorem contains_owning (h : engine.Heard) : engine.Contains (.owning σ) := by
  refine ⟨fun {α role kind note} hnote f fallback host ↦ ?_⟩
  have hmishaps : Journal.mishaps [note (f host).1] =
      ((f host).1.failure?.map (⟨role, kind, ·⟩)).toList := by
    rw [Journal.mishaps, List.filterMap_cons, hnote.mishap?]
    cases (f host).1.failure? <;> rfl
  rw [Act.journal_bind, Journal.errorLines_append, Journal.mishaps_append, errorLines_contain h,
    (engine.quiet_contain _ _ _ _ _).mishaps_eq, Act.run_call,
    Journal.errorLines_of_not_report (hnote.isReport _), hmishaps]
  cases (f host).1.failure? <;> rfl

/-- The failures among the answers of a filter, of which there is one at most. -/
def refusals (answer : Option (Outcome Bool)) : List Failure :=
  answer.toList.filterMap Outcome.failure?

/-- A question to the filter fails as its answer does. -/
theorem mishaps_offered (record : Record) (answer : Option (Outcome Bool)) :
    Journal.mishaps (answer.map (.offered record)).toList =
      (refusals answer).map (⟨.filter, some record.kind, ·⟩) := by
  rcases answer with _ | value | error | message | _ <;> rfl

/-- The error lines about the answer of a filter are those of its failures. -/
theorem errorLines_doubts (h : engine.Heard) (kind : Kind) (answer : Option (Outcome Bool)) :
    (engine.doubts kind answer).filter (·.1 == .error) =
      (refusals answer).map fun failure ↦ Mishap.line ⟨.filter, some kind, failure⟩ := by
  rcases answer with _ | value | error | message | _
  · rfl
  · rfl
  all_goals
    simp only [doubts, Outcome.guarded]
    rw [offeredLines_of_heard h]
    rfl

/-- What becomes of an event is logged as an error only if storage was wanting. -/
theorem droppingLines_of_fate (fate : Fate) (kind : Kind) (waiting : Nat) :
    [fate.line kind waiting].filter (·.1 == .error) =
      (Reply.ofPush fate.result).droppingLines := by
  cases fate <;> rfl

/-- A failure of the filter comes before the dropping of the event. -/
theorem errorLines_push (h : engine.Heard) (hholds : engine.queue.Holds engine.queue.toList)
    (allocator : Allocator) (kind : Kind) (source : String) (payload : List UInt8) (host : σ) :
    let done := (engine.push allocator kind source payload).run host
    done.journal.errorLines =
      done.journal.mishaps.map Mishap.line ++ (Reply.ofPush done.value.1).droppingLines := by
  intro done
  have hdecided := decided_push hholds allocator kind source payload host
  simp only at hdecided
  rw [hdecided.result, Journal.errorLines, hdecided.lines, ← Journal.mishaps_calls, hdecided.calls,
    List.filter_append, offeredLines_of_heard h, droppingLines_of_fate]
  split
  · rw [errorLines_doubts h, mishaps_offered, List.map_map]
    rfl
  · rfl

/-- The lines at the level of errors in a step are those that it calls for. -/
theorem errorLines_step (h : engine.Heard) (hholds : engine.queue.Holds engine.queue.toList)
    (op : Op) (host : σ) :
    (engine.step op host).journal.errorLines = (engine.step op host).errorLines := by
  have hnotes : engine.Notes (.owning σ) :=
    ⟨fun level message hlevel _ ↦ engine.owning_log hlevel message⟩
  have hmoving (message : String) (_ : isParting message = false) :
      (Act.Trait.owning σ).Has (engine.log .info message) :=
    engine.owning_log (by decide) message
  have hcontains := contains_owning h
  -- Only a push can be refused, so the other operations call for lines about mishaps alone.
  cases op with
  | push allocator kind source payload =>
      rw [step_of_apply_eq (engine.apply_push allocator kind source payload)]
      exact errorLines_push h hholds allocator kind source payload host
  | process =>
      rw [step_of_apply_eq engine.apply_process]
      exact (hnotes.process hcontains.deliver host).trans (List.append_nil _).symm
  | processAll =>
      rw [step_of_apply_eq engine.apply_processAll]
      exact (hnotes.processAll hcontains.deliver host).trans (List.append_nil _).symm
  | clear =>
      rw [step_of_apply_eq engine.apply_clear]
      exact (hnotes.clear host).trans (List.append_nil _).symm
  | start =>
      rw [step_of_apply_eq engine.apply_start]
      exact (has_moveTo hmoving hcontains.announce .running host).trans (List.append_nil _).symm
  | stop =>
      rw [step_of_apply_eq engine.apply_stop]
      exact (has_moveTo hmoving hcontains.announce .stopped host).trans (List.append_nil _).symm

/-! ## Whole lives -/

/-- The error lines of a run are those of its steps, in order. -/
theorem errorLines_run (h : engine.Heard) (hholds : engine.queue.Holds engine.queue.toList)
    (ops : List Op) (host : σ) :
    ((engine.run ops).run host).journal.errorLines =
      (engine.steps ops host).flatMap Step.errorLines := by
  induction ops generalizing engine host with
  | nil => rfl
  | cons op ops ih =>
      have hrest := ih (heard_apply h op host) (Accounts.step hholds op host).holds
        (engine.step op host).host
      rw [steps_cons, List.flatMap_cons, ← errorLines_step h hholds op host]
      exact (Journal.errorLines_append _ _).trans (congrArg _ hrest)

/-- Nothing goes wrong when an engine is taken down. -/
theorem errorLines_retire (engine : Engine σ) (host : σ) :
    (engine.retire.run host).journal.errorLines = [] := by
  rw [Journal.errorLines, lines_retire, farewell, offeredLines, offeredLines]
  split <;> split <;> rfl

/-- The steps that an engine goes through in its life, of which there are none if its configuration
is refused. -/
def lifeSteps (config : Config σ) (ops : List Op) (host : σ) : List (Step σ) :=
  let made := (create config).run host
  match made.value with
  | .error _ => []
  | .ok engine => engine.steps ops made.host

/-- The trace event about the making of an engine, if it is made. -/
def announcement (config : Config σ) : List Trace.Event :=
  match config.validate with
  | .error _ => []
  | .ok () => [.engineCreated config.name (ofConfig config).capacity]

/-- Nothing goes wrong when an engine is made. -/
theorem errorLines_create (config : Config σ) (host : σ) :
    ((create config).run host).journal.errorLines = [] := by
  unfold create
  split
  · rfl
  · rw [Act.journal_bind, Act.journal_bind, Journal.errorLines_append, Journal.errorLines_append,
      errorLines_log_of_ne _ (by decide)]
    rfl

/-- The error lines of a whole life are those of its steps, in order. -/
theorem errorLines_lifetime {config : Config σ} (h : (ofConfig config).Heard) (ops : List Op)
    (host : σ) :
    ((lifetime config ops).run host).journal.errorLines =
      (lifeSteps config ops host).flatMap Step.errorLines := by
  cases hvalidate : config.validate with
  | error error =>
      rw [lifetime_of_refused hvalidate, lifeSteps, create, hvalidate]
      rfl
  | ok _ =>
      have hfresh : (ofConfig config).queue.Holds [] := Ring.Holds.empty config.maxQueueSize
      have hmade : ((create config).run host).value = .ok (ofConfig config) := by
        rw [create, hvalidate]
        rfl
      rw [journal_lifetime hmade, Journal.errorLines_append, Journal.errorLines_append,
        errorLines_create, errorLines_retire, errorLines_run h (hfresh.toList_eq.symm ▸ hfresh),
        lifeSteps, hmade]
      exact List.append_nil _

/-- The trace events of a whole life are what follows from its calls and lines, after the one about
the making of the engine. -/
theorem events_lifetime (config : Config σ) (ops : List Op) (host : σ) :
    let journal := ((lifetime config ops).run host).journal
    journal.events = announcement config ++
      journal.flatMap (Observation.aftermath config.name (ofConfig config).label?) := by
  intro journal
  -- A configuration that is refused makes no engine, and then nothing happens at all.
  cases hvalidate : config.validate with
  | error error =>
      have hjournal : journal = [] := by
        show ((lifetime config ops).run host).journal = []
        rw [lifetime_of_refused hvalidate]
        rfl
      rw [hjournal, announcement, hvalidate]
      rfl
  | ok _ =>
      have hrest := (ofConfig config).parts_explained.liveOut
        (ofConfig config).explained_log ops host
      have hjournal : journal = .traced (.engineCreated config.name (ofConfig config).capacity) ::
          (((ofConfig config).liveOut ops).run host).journal := by
        show ((lifetime config ops).run host).journal = _
        rw [lifetime_of_valid hvalidate]
        rfl
      rw [hjournal, announcement, hvalidate]
      exact congrArg (_ :: ·) hrest

end Engine

/-! ## The reports of a life -/

namespace Trace.Event

/-- Whether an event is about the failed call of a callback. -/
def isCallbackFailed : Trace.Event → Bool
  | .callbackFailed .. => true
  | _ => false

/-- Whether an event is about a panic of the sink. -/
def isSinkPanicked : Trace.Event → Bool
  | .sinkPanicked .. => true
  | _ => false

end Trace.Event

namespace Journal

variable (journal : Journal) (engine : String) (label? : Option String)

/-- What is read from the events that the observations of a journal call for is read from the events
that each of them calls for. -/
theorem filter_aftermath {wanted : Trace.Event → Bool} {read : Observation → Option Trace.Event}
    (h : ∀ observation, (observation.aftermath engine label?).filter wanted =
      (read observation).toList) :
    (journal.flatMap (Observation.aftermath engine label?)).filter wanted =
      journal.filterMap read := by
  rw [List.filterMap_eq_flatMap_toList, List.filter_flatMap]
  exact congrArg (List.flatMap · journal) (funext h)

/-- Among what follows from a journal, the events about failed calls are one for each of them, in
order. -/
theorem filter_isCallbackFailed :
    (journal.flatMap (Observation.aftermath engine label?)).filter Trace.Event.isCallbackFailed =
      journal.mishaps.map (Mishap.event engine) := by
  rw [mishaps, List.map_filterMap]
  refine journal.filter_aftermath engine label? fun observation ↦ ?_
  obtain ⟨record, outcome⟩ | ⟨record, outcome⟩ | ⟨old, new, outcome⟩ | ⟨level, message, outcome⟩ |
    event := observation
  case traced => rfl
  case logged => cases label? <;> rcases outcome with value | error | message | _ <;> rfl
  all_goals rcases outcome with value | error | message | _ <;> rfl

/-- Among what follows from a journal, the events about a panicking sink are one for each line it
panicked over, in order. -/
theorem filter_isSinkPanicked :
    (journal.flatMap (Observation.aftermath engine label?)).filter Trace.Event.isSinkPanicked =
      journal.sinkPanics.map (.sinkPanicked engine) := by
  rw [sinkPanics, List.map_filterMap]
  refine journal.filter_aftermath engine label? fun observation ↦ ?_
  obtain ⟨record, outcome⟩ | ⟨record, outcome⟩ | ⟨old, new, outcome⟩ | ⟨level, message, outcome⟩ |
    event := observation
  case traced => rfl
  case logged => cases label? <;> rcases outcome with value | error | message | _ <;> rfl
  all_goals rcases outcome with value | error | message | _ <;> rfl

end Journal

namespace Engine

/-- What is picked from the trace events of a life is picked from those that the observations call
for, unless it is about the making of the engine. -/
theorem filter_events_lifetime (config : Config σ) (ops : List Op) (host : σ)
    {wanted : Trace.Event → Bool}
    (hmade : wanted (.engineCreated config.name (ofConfig config).capacity) = false) :
    let journal := ((lifetime config ops).run host).journal
    journal.events.filter wanted =
      (journal.flatMap (Observation.aftermath config.name (ofConfig config).label?)).filter
        wanted := by
  intro journal
  have hannouncement : (announcement config).filter wanted = [] := by
    unfold announcement
    split
    · rfl
    · rw [List.filter_cons, hmade]
      rfl
  rw [events_lifetime, List.filter_append, hannouncement]
  rfl

/-- In a whole life there is one event for each failed call, in order. -/
theorem failed_lifetime (config : Config σ) (ops : List Op) (host : σ) :
    let journal := ((lifetime config ops).run host).journal
    journal.events.filter Trace.Event.isCallbackFailed =
      journal.mishaps.map (Mishap.event config.name) :=
  (filter_events_lifetime config ops host rfl).trans (Journal.filter_isCallbackFailed ..)

/-- In a whole life there is one event for each line that the sink panicked over, in order. -/
theorem panicked_lifetime (config : Config σ) (ops : List Op) (host : σ) :
    let journal := ((lifetime config ops).run host).journal
    journal.events.filter Trace.Event.isSinkPanicked =
      journal.sinkPanics.map (.sinkPanicked config.name) :=
  (filter_events_lifetime config ops host rfl).trans (Journal.filter_isSinkPanicked ..)

/-- The log of an engine that captures it grows by the lines of its whole life. -/
theorem captures_lifetime {cell : Cell σ LogCapture} {config : Config σ}
    (h : config.callbacks.Captures cell) (ops : List Op) :
    Act.Captures cell (lifetime config ops) := by
  have hbears : (ofConfig config).Bears (.captures cell) := bears_captures h
  exact hbears.lifetime (captures_log h) ops

/-- Contained failures are reported, each once, and nothing else is reported as one. For every life
of an engine, from its making until it is taken down, the trace events are those that its
observations call for, in order: one for each failed call of the filter, the handler or the observer,
whether by an error or by a panic, with the part of the callback and the kind of the record; one for
each line over which the sink panicked; and one for each line that the sink passes on.
Whether an engine logs, and what its sink does with the lines beside the host of the other
callbacks, makes no difference to the calls, their results and the events about failures.
If it logs to a sink that captures the lines, those at the level of errors are one for each failed
call, with the text of the error or of the panic, and one for each push that was refused for want of
storage, step by step and in the order in which these came. -/
theorem failures_reported (config : Config σ) (bare : Config ρ) (logging : Bool)
    (sink : Option (Sink τ)) (ops : List Op) (host : σ) (state : ρ) (kept : τ)
    (capture : LogCapture) :
    let captured := bare.withSink true (some (LogCapture.sink .whole))
    let life := (lifetime config ops).run host
    let other := (lifetime (bare.withSink logging sink) ops).run (state, kept)
    let heard := (lifetime captured ops).run (state, capture)
    (life.journal.events = announcement config ++
        life.journal.flatMap (Observation.aftermath config.name (ofConfig config).label?) ∧
      life.journal.events.filter Trace.Event.isCallbackFailed =
        life.journal.mishaps.map (Mishap.event config.name) ∧
      life.journal.events.filter Trace.Event.isSinkPanicked =
        life.journal.sinkPanics.map (.sinkPanicked config.name)) ∧
      (SameLife other.value heard.value ∧ other.host.1 = heard.host.1 ∧
        other.journal.calls = heard.journal.calls ∧
        other.journal.events.filter Trace.Event.isCallbackFailed =
          heard.journal.events.filter Trace.Event.isCallbackFailed) ∧
      (heard.host.2.lines = capture.lines ++ heard.journal.lines ∧
        heard.journal.errorLines =
          (lifeSteps captured ops (state, capture)).flatMap Step.errorLines) ∧
      ∀ mishap : Mishap, ∃ middle, mishap.line =
        (.error,
          "Panic or error in " ++ mishap.role.name ++ " handler" ++ middle ++ mishap.text) := by
  intro captured life other heard
  have halike : Act.Alike (.uptoLogging False) SameLife (lifetime (bare.withSink logging sink) ops)
      (lifetime captured ops) :=
    alike_lifetime (alike_create_withSink bare False.elim) ops
  obtain ⟨hvalue, ⟨hcalls, -⟩, hhost⟩ := halike (state, kept) (state, capture) rfl
  refine ⟨⟨events_lifetime config ops host, failed_lifetime config ops host,
    panicked_lifetime config ops host⟩, ⟨hvalue, hhost, hcalls, ?_⟩, ⟨?_, ?_⟩,
    Mishap.exists_line_eq⟩
  · -- What failed is read from the calls, which are the same.
    rw [failed_lifetime, failed_lifetime, ← Journal.mishaps_calls, hcalls, Journal.mishaps_calls]
    rfl
  · have hcaptures : captured.callbacks.Captures capturedLog := bare.callbacks.captures_capturing
    exact captures_lifetime hcaptures ops (state, capture)
  · exact errorLines_lifetime ⟨rfl, rfl⟩ ops (state, capture)

end Engine

end EventStaging
