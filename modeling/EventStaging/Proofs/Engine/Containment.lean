import EventStaging.Proofs.Engine.Alike
import EventStaging.Proofs.Engine.Capture

/-!
# Failures are contained

A run in which callbacks fail is compared with the one in which the same callbacks succeed instead:
the handler returns, the filter lets the record in, and the observer does not panic. Main statement
(`Engine.containment`): the two runs answer every operation in the same way, go through the same
states, and show the callbacks the same records and changes of state. Only their logs differ, and
only in the lines about the failures.
-/

namespace EventStaging

open Doubles (LogCapture)

variable {ρ : Type}

/-! ## Callbacks that succeed -/

/-- A handler that does the same to the host and always returns. -/
def Handler.forgiving (handler : Handler ρ) : Handler ρ := fun record state ↦
  (.returned (), (handler record state).2)

/-- A filter that does the same to the host and lets a record in where the other fails. -/
def Filter.forgiving (filter : Filter ρ) : Filter ρ := fun record state ↦
  (.returned ((filter record state).1.getD true), (filter record state).2)

/-- An observer that does the same to the host and never panics. -/
def Observer.forgiving (observer : Observer ρ) : Observer ρ := fun old new state ↦
  (none, (observer old new state).2)

/-- Callbacks that do the same to the host and succeed where these fail. -/
def Callbacks.forgiving (callbacks : Callbacks ρ) : Callbacks ρ where
  handler := callbacks.handler.map Handler.forgiving
  filter := callbacks.filter.map Filter.forgiving
  sink := callbacks.sink
  observer := callbacks.observer.map Observer.forgiving

/-- The same configuration with callbacks that succeed. -/
def Config.forgiving (config : Config ρ) : Config ρ :=
  { config with callbacks := config.callbacks.forgiving }

/-! ## What containment leaves alike -/

/-- Two runs are alike up to failures: the callbacks are shown the same, the hosts are in the same
state, and the log of the second is that of the first without the lines about failures. -/
def Likeness.uptoFailures : Likeness (ρ × LogCapture) (ρ × LogCapture) where
  hosts host host' := host.1 = host'.1 ∧ Engine.plainLines host.2.lines = host'.2.lines
  journals journal journal' := journal.deliveries = journal'.deliveries ∧
    journal.offers = journal'.offers ∧ journal.transitions = journal'.transitions
  journals_nil := ⟨rfl, rfl, rfl⟩
  journals_append := by
    rintro first second first' second' ⟨hdeliveries, hoffers, hmoves⟩
      ⟨hdeliveries', hoffers', hmoves'⟩
    simp only [Journal.deliveries_append, Journal.offers_append, Journal.transitions_append]
    exact ⟨congr (congrArg _ hdeliveries) hdeliveries', congr (congrArg _ hoffers) hoffers',
      congr (congrArg _ hmoves) hmoves'⟩

namespace Engine

variable {engine engine' : Engine (ρ × LogCapture)}

/-- A line of an engine whose log is captured is added to the log, if the engine logs. -/
theorem run_log_of_capturing (hsink : engine.callbacks.sink = some (LogCapture.sink capturedLog))
    (level : Level) (message : String) (host : ρ × LogCapture) :
    (engine.log level message).run host =
      if engine.logging then
        ⟨(), [.logged level message (.returned ())], (host.1, host.2.add level message)⟩
      else ⟨(), [], host⟩ := by
  unfold log
  rw [hsink]
  cases engine.logging <;> rfl

/-- Both runs add a line that is not about a failure. -/
theorem alike_log (hlogging : engine.logging = engine'.logging)
    (hsink : engine.callbacks.sink = some (LogCapture.sink capturedLog))
    (hsink' : engine'.callbacks.sink = some (LogCapture.sink capturedLog))
    {level : Level} {message : String} (hline : isFailureLine (level, message) = false) :
    Act.Alike .uptoFailures Eq (engine.log level message) (engine'.log level message) := by
  intro host host' hhost
  rw [run_log_of_capturing hsink, run_log_of_capturing hsink', hlogging]
  cases engine'.logging with
  | false => exact ⟨rfl, ⟨rfl, rfl, rfl⟩, hhost⟩
  | true =>
      refine ⟨rfl, ⟨rfl, rfl, rfl⟩, hhost.1, ?_⟩
      show plainLines (host.2.add level message).lines = (host'.2.add level message).lines
      rw [LogCapture.lines_add, LogCapture.lines_add, plainLines_append, hhost.2,
        plainLines_of_plain hline]

/-- Reporting a failure makes no difference to what is compared. -/
theorem alike_report (hsink : engine.callbacks.sink = some (LogCapture.sink capturedLog))
    (role : Role) (kind : Option Kind) (failure : Failure) :
    Act.Alike .uptoFailures Eq (engine.report role kind failure)
      (pure () : Act (ρ × LogCapture) Unit) := by
  intro host host' hhost
  have hfailure := isFailureLine_failureLine role kind failure
  rw [report, Act.run_bind, Act.run_trace, run_log_of_capturing hsink]
  cases engine.logging with
  | false => exact ⟨rfl, ⟨rfl, rfl, rfl⟩, hhost⟩
  | true =>
      -- Only the first log grows, by a line that is not compared.
      refine ⟨rfl, ⟨rfl, rfl, rfl⟩, hhost.1, ?_⟩
      show plainLines (host.2.add .error _).lines = host'.2.lines
      rw [LogCapture.lines_add, plainLines_append, hhost.2, plainLines_of_failure hfailure,
        List.append_nil]

/-- A contained call goes on as one that returned in the first place. -/
theorem alike_contain (hsink : engine.callbacks.sink = some (LogCapture.sink capturedLog))
    (role : Role) (kind : Option Kind) (fallback : α) (outcome : Outcome α) :
    Act.Alike .uptoFailures Eq (engine.contain role kind fallback outcome)
      (engine'.contain role kind fallback (.returned (outcome.getD fallback))) := by
  have hreported : ∀ failure, Act.Alike .uptoFailures Eq
      (do engine.report role kind failure; return fallback)
      (do pure (); return fallback : Act (ρ × LogCapture) α) := by
    intro failure
    exact (alike_report hsink role kind failure).bind_eq fun _ ↦ .pure rfl
  cases outcome with
  | returned value => exact .pure rfl
  | failed error => exact hreported _
  | panicked payload => exact hreported _

/-! ## The engines of the two configurations -/

/-- The second call succeeds where the first does, and gives `fallback` where the first fails. -/
def Succeeds (fallback : α) (outcome outcome' : Outcome α) : Prop :=
  outcome' = .returned (outcome.getD fallback)

/-- A handler that fails and one that is forgiven differ in their failures only. -/
theorem alike_deliver_call (handler : Handler ρ) (record : Record) :
    Act.Alike .uptoFailures (Succeeds ())
      (Act.deliver (fun record ↦ besideLog (handler record)) record)
      (Act.deliver (fun record ↦ besideLog (Handler.forgiving handler record)) record) := by
  rintro ⟨state, log⟩ ⟨_, log'⟩ ⟨rfl, hlog⟩
  exact ⟨rfl, ⟨rfl, rfl, rfl⟩, rfl, hlog⟩

/-- A filter that fails and one that is forgiven, which lets in what it cannot decide on, differ in
their failures only. -/
theorem alike_offer_call (filter : Filter ρ) (record : Record) :
    Act.Alike .uptoFailures (Succeeds true)
      (Act.offer (fun record ↦ besideLog (filter record)) record)
      (Act.offer (fun record ↦ besideLog (Filter.forgiving filter record)) record) := by
  rintro ⟨state, log⟩ ⟨_, log'⟩ ⟨rfl, hlog⟩
  exact ⟨rfl, ⟨rfl, rfl, rfl⟩, rfl, hlog⟩

/-- An observer that fails and one that is forgiven differ in their failures only. -/
theorem alike_notify_call (observer : Observer ρ) (old new : Lifecycle) :
    Act.Alike .uptoFailures (Succeeds ())
      (Act.notify (fun old new ↦ besideLog (observer old new)) old new)
      (Act.notify (fun old new ↦ besideLog (Observer.forgiving observer old new)) old new) := by
  rintro ⟨state, log⟩ ⟨_, log'⟩ ⟨rfl, hlog⟩
  exact ⟨rfl, ⟨rfl, rfl, rfl⟩, rfl, hlog⟩

variable {config : Config ρ}

/-- A delivery is the same but for the failure of the handler. -/
theorem alike_deliver (record : Record) :
    Act.Alike .uptoFailures Eq ((ofConfig config.capturing).deliver record)
      ((ofConfig config.forgiving.capturing).deliver record) := by
  rw [deliver_eq, deliver_eq]
  -- Both handlers come from the one of the configuration, so they are present or missing together.
  show Act.Alike _ _ ((config.callbacks.handler.map _).elim _ _)
    (((config.callbacks.handler.map _).map _).elim _ _)
  cases config.callbacks.handler with
  | none => exact .pure rfl
  | some handler =>
      refine (alike_deliver_call handler record).bind ?_
      rintro outcome _ rfl
      exact alike_contain rfl _ _ _ _

/-- Deciding on a record is the same but for the failure of the filter. -/
theorem alike_admits (record : Record) :
    Act.Alike .uptoFailures Eq ((ofConfig config.capturing).admits record)
      ((ofConfig config.forgiving.capturing).admits record) := by
  rw [admits_eq, admits_eq]
  show Act.Alike _ _ ((config.callbacks.filter.map _).elim _ _)
    (((config.callbacks.filter.map _).map _).elim _ _)
  cases config.callbacks.filter with
  | none => exact .pure rfl
  | some filter =>
      refine (alike_offer_call filter record).bind ?_
      rintro outcome _ rfl
      exact alike_contain rfl _ _ _ _

/-- An announcement is the same but for the failure of the observer. -/
theorem alike_announce (old new : Lifecycle) :
    Act.Alike .uptoFailures Eq ((ofConfig config.capturing).announce old new)
      ((ofConfig config.forgiving.capturing).announce old new) := by
  rw [announce_eq, announce_eq]
  show Act.Alike _ _ ((config.callbacks.observer.map _).elim _ _)
    (((config.callbacks.observer.map _).map _).elim _ _)
  cases config.callbacks.observer with
  | none => exact .pure rfl
  | some observer =>
      refine (alike_notify_call observer old new).bind ?_
      rintro outcome _ rfl
      exact alike_contain rfl _ _ _ _

/-- The engine of a configuration is alike to that of the one whose callbacks succeed. -/
theorem alike_forgiving (config : Config ρ) :
    Engine.Alike .uptoFailures (ofConfig config.capturing)
      (ofConfig config.forgiving.capturing) where
  state_eq := rfl
  queue_eq := rfl
  processed_eq := rfl
  log _ _ := alike_log rfl rfl rfl
  admits := alike_admits
  deliver := alike_deliver
  announce := alike_announce

/-- What the two configurations make: alike engines, or the same error. -/
def MadeAlike : Except ConfigError (Engine (ρ × LogCapture)) →
    Except ConfigError (Engine (ρ × LogCapture)) → Prop
  | .ok engine, .ok engine' => Engine.Alike .uptoFailures engine engine'
  | .error error, .error error' => error = error'
  | _, _ => False

/-- The same engine is made. -/
theorem alike_create (config : Config ρ) :
    Act.Alike .uptoFailures MadeAlike (create config.capturing)
      (create config.forgiving.capturing) := by
  have hvalidate : config.capturing.validate = config.validate := rfl
  have hvalidate' : config.forgiving.capturing.validate = config.validate := rfl
  unfold create
  rw [hvalidate, hvalidate']
  split
  · exact .pure rfl
  · have htrace : Act.Alike (.uptoFailures : Likeness (ρ × LogCapture) _) Eq
        (Act.trace (.engineCreated config.name (ofConfig config).capacity))
        (Act.trace (.engineCreated config.name (ofConfig config).capacity)) := by
      intro host host' hhost
      exact ⟨rfl, ⟨rfl, rfl, rfl⟩, hhost⟩
    refine htrace.bind_eq fun _ ↦ ((alike_forgiving config).log _ _ rfl).bind_eq fun _ ↦ ?_
    exact .pure (alike_forgiving config)

/-! ## Whole runs -/

/-- Two steps that agree in all but the log lines about failures. The lines are those of the logs
that have been captured so far. -/
structure SameButFailures (step step' : Step (ρ × LogCapture)) : Prop where
  op_eq : step.op = step'.op
  reply_eq : step.reply = step'.reply
  state_eq : step.after.state = step'.after.state
  queue_eq : step.after.queue = step'.after.queue
  processed_eq : step.after.processed = step'.after.processed
  deliveries_eq : step.journal.deliveries = step'.journal.deliveries
  offers_eq : step.journal.offers = step'.journal.offers
  transitions_eq : step.journal.transitions = step'.journal.transitions
  lines_eq : plainLines step.host.2.lines = step'.host.2.lines

/-- Steps that are alike up to failures agree in all but the lines about them. -/
theorem sameButFailures_of_alike {step step' : Step (ρ × LogCapture)}
    (h : Step.Alike .uptoFailures step step') : SameButFailures step step' where
  op_eq := h.op_eq
  reply_eq := h.reply_eq
  state_eq := h.after.state_eq
  queue_eq := h.after.queue_eq
  processed_eq := h.after.processed_eq
  deliveries_eq := h.journal.1
  offers_eq := h.journal.2.1
  transitions_eq := h.journal.2.2
  lines_eq := h.host.2

/-- Failures of callbacks change nothing but the diagnostics: an engine whose handler, filter and
observer fail in whatever way goes through the same steps as one whose callbacks succeed instead,
and its log without the lines about failures is the log of the other. -/
theorem containment (config : Config ρ) (ops : List Op) (state : ρ) :
    let made := (create config.capturing).run (state, {})
    let made' := (create config.forgiving.capturing).run (state, {})
    plainLines made.host.2.lines = made'.host.2.lines ∧
      match made.value, made'.value with
      | .ok engine, .ok engine' =>
        List.Forall₂ SameButFailures (engine.steps ops made.host) (engine'.steps ops made'.host)
      | .error error, .error error' => error = error'
      | _, _ => False := by
  intro made made'
  have hmade : Done.Alike .uptoFailures MadeAlike made made' :=
    alike_create config (state, {}) (state, {}) ⟨rfl, rfl⟩
  refine ⟨hmade.host.2, ?_⟩
  have hvalue := hmade.value
  cases hone : made.value <;> cases hother : made'.value <;> rw [hone, hother] at hvalue
  case ok.ok => exact (hvalue.steps hmade.host ops).imp fun _ _ ↦ sameButFailures_of_alike
  all_goals exact hvalue

end Engine

end EventStaging
