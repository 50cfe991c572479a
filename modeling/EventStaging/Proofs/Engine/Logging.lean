import EventStaging.Proofs.Engine.Alike
import EventStaging.Proofs.Engine.Capture

/-!
# Logging interferes with nothing

Two engines are made from configurations that differ in nothing but whether they log and where their
lines go. What a sink keeps lies beside what the other callbacks work on, and the two sinks need not
keep the same kind of thing. Main statement (`Engine.logging_interferes_with_nothing`): from their
making until they are taken down the two answer the same, go through the same states, and call their
handler, filter and observer with the same results. Lines that both of them offer are the same, and
an engine that does not log offers none.
-/

namespace EventStaging

open Doubles (LogCapture)

variable {ρ τ τ' α β : Type}

/-! ## Sinks that share nothing -/

/-- A call that leaves alone what is kept beside the host. -/
def alongside (f : ρ → α × ρ) (host : ρ × τ) : α × (ρ × τ) :=
  ((f host.1).1, (f host.1).2, host.2)

/-- A sink that works only on what is kept beside the host. -/
def Sink.alongside : Sink τ → Sink (ρ × τ)
  | .host write => .host fun level message host ↦
    ((write level message host.2).1, host.1, (write level message host.2).2)
  | .forward label => .forward label

/-- The same handler, filter and observer, with a sink that shares nothing with them. -/
def Callbacks.withSink (callbacks : Callbacks ρ) (sink : Option (Sink τ)) : Callbacks (ρ × τ) where
  handler := callbacks.handler.map fun handler record ↦ alongside (handler record)
  filter := callbacks.filter.map fun filter record ↦ alongside (filter record)
  sink := sink.map Sink.alongside
  observer := callbacks.observer.map fun observer old new ↦ alongside (observer old new)

/-- The same configuration with another sink, or none, which logs or does not log. -/
def Config.withSink (config : Config ρ) (logging : Bool) (sink : Option (Sink τ)) :
    Config (ρ × τ) where
  name := config.name
  maxQueueSize := config.maxQueueSize
  enableLogging := logging
  callbacks := config.callbacks.withSink sink

/-- Two runs are alike up to logging: the callbacks other than the sinks are called alike and leave
the same host, and if `both` log, they offer the same lines. -/
def Likeness.uptoLogging (both : Prop) : Likeness (ρ × τ) (ρ × τ') where
  hosts host host' := host.1 = host'.1
  journals journal journal' :=
    journal.calls = journal'.calls ∧ (both → journal.lines = journal'.lines)
  journals_nil := ⟨rfl, fun _ ↦ rfl⟩
  journals_append := by
    rintro first second first' second' ⟨hcalls, hlines⟩ ⟨hcalls', hlines'⟩
    constructor
    · rw [Journal.calls_append, Journal.calls_append, hcalls, hcalls']
    · intro h
      rw [Journal.lines_append, Journal.lines_append, hlines h, hlines' h]

/-- Nothing is logged, and what is kept beside the host stays as it is. -/
def Act.Trait.silent (ρ τ : Type) : Act.Trait (ρ × τ) where
  Has action := ∀ host,
    (action.run host).journal.lines = [] ∧ (action.run host).host.2 = host.2
  pure _ := fun _ ↦ ⟨rfl, rfl⟩
  bind := by
    intro _ _ action next haction hnext host
    obtain ⟨hlines, hkept⟩ := haction host
    obtain ⟨hlines', hkept'⟩ := hnext host (action.run host).host
    refine ⟨?_, hkept'.trans hkept⟩
    rw [Act.journal_bind, Journal.lines_append, hlines, hlines']
    rfl

namespace Engine

/-! ## What engines of the two configurations do -/

/-- The lines of an engine reach a sink. -/
def Heard {σ : Type} (engine : Engine σ) : Prop :=
  engine.logging = true ∧ engine.callbacks.sink.isSome

/-- Two engines have the same callbacks but for their sinks, and if `both`, then the lines of both
reach a sink. -/
structure Paired (callbacks : Callbacks ρ) (both : Prop) (engine : Engine (ρ × τ))
    (engine' : Engine (ρ × τ')) : Prop where
  callbacks_eq : ∃ sink, engine.callbacks = callbacks.withSink sink
  callbacks_eq' : ∃ sink, engine'.callbacks = callbacks.withSink sink
  heard : both → engine.Heard ∧ engine'.Heard

/-- An engine that is heard stays so over every operation. -/
theorem heard_apply {σ : Type} {engine : Engine σ} (h : engine.Heard) (op : Op) (host : σ) :
    ((engine.apply op).run host).value.2.Heard := by
  obtain ⟨state, queue, processed, -, hvalue⟩ := engine.exists_eq_apply op host
  rw [hvalue]
  exact h

/-- An engine that is heard offers every line. -/
theorem offeredLines_of_heard {σ : Type} {engine : Engine σ} (h : engine.Heard)
    (line : Level × String) : engine.offeredLines line = [line] := by
  rw [offeredLines, h.1, h.2]
  rfl

/-- A sink does nothing to the host of the other callbacks. -/
theorem fst_log {engine : Engine (ρ × τ)} {callbacks : Callbacks ρ} {sink : Option (Sink τ)}
    (h : engine.callbacks = callbacks.withSink sink) (level : Level) (message : String)
    (host : ρ × τ) : ((engine.log level message).run host).host.1 = host.1 := by
  unfold log
  rw [h]
  cases engine.logging with
  | false => rfl
  | true =>
      rcases sink with _ | ⟨write⟩ | label
      · rfl
      · show ((Act.write (Sink.alongside (.host write)) engine.name level message).run host).host.1
          = host.1
        unfold Act.write Sink.alongside
        rw [Act.host_bind]
        split <;> rfl
      · rfl

namespace Paired

variable {callbacks : Callbacks ρ} {both : Prop} {engine : Engine (ρ × τ)}
  {engine' : Engine (ρ × τ')}

/-- A line makes no difference to two engines but for the line itself. -/
theorem log (h : Paired callbacks both engine engine') (level : Level) (message : String) :
    Act.Alike (.uptoLogging both) Eq (engine.log level message) (engine'.log level message) := by
  obtain ⟨sink, hsink⟩ := h.callbacks_eq
  obtain ⟨sink', hsink'⟩ := h.callbacks_eq'
  intro host host' hhost
  refine ⟨rfl, ⟨?_, ?_⟩, ?_⟩
  · rw [(engine.quiet_log level message host).calls_eq,
      (engine'.quiet_log level message host').calls_eq]
  · intro hboth
    rw [lines_log, lines_log, offeredLines_of_heard (h.heard hboth).1,
      offeredLines_of_heard (h.heard hboth).2]
  · exact (fst_log hsink level message host).trans
      (hhost.trans (fst_log hsink' level message host').symm)

/-- Trace events make no difference. -/
theorem trace (event event' : Trace.Event) :
    Act.Alike (.uptoLogging both : Likeness (ρ × τ) (ρ × τ')) Eq (Act.trace event)
      (Act.trace event') := by
  intro host host' hhost
  exact ⟨rfl, ⟨rfl, fun _ ↦ rfl⟩, hhost⟩

/-- Containing the same end of a call makes no difference but for lines. -/
theorem contain (h : Paired callbacks both engine engine') (role : Role) (kind : Option Kind)
    (fallback : α) (outcome : Outcome α) :
    Act.Alike (.uptoLogging both) Eq (engine.contain role kind fallback outcome)
      (engine'.contain role kind fallback outcome) := by
  unfold Engine.contain
  split
  · exact .pure rfl
  · exact ((trace _ _).bind_eq fun _ ↦ h.log _ _).bind_eq fun _ ↦ .pure rfl

/-- A call on the same host gives the same result and is noted alike. -/
theorem call (f : ρ → α × ρ) (note : α → Observation) :
    Act.Alike (.uptoLogging both : Likeness (ρ × τ) (ρ × τ')) Eq
      (Act.call (alongside f) note) (Act.call (alongside f) note) := by
  rintro ⟨state, kept⟩ ⟨_, kept'⟩ rfl
  exact ⟨rfl, ⟨rfl, fun _ ↦ rfl⟩, rfl⟩

/-- Asking the same filter is answered in the same way. -/
theorem admits (h : Paired callbacks both engine engine') (record : Record) :
    Act.Alike (.uptoLogging both) Eq (engine.admits record) (engine'.admits record) := by
  obtain ⟨sink, hsink⟩ := h.callbacks_eq
  obtain ⟨sink', hsink'⟩ := h.callbacks_eq'
  rw [admits_eq, admits_eq, hsink, hsink']
  show Act.Alike _ _ ((callbacks.filter.map _).elim _ _) ((callbacks.filter.map _).elim _ _)
  cases callbacks.filter with
  | none => exact .pure rfl
  | some filter => exact (call (filter record) _).bind_eq fun _ ↦ h.contain _ _ _ _

/-- The same handler is given the same. -/
theorem deliver (h : Paired callbacks both engine engine') (record : Record) :
    Act.Alike (.uptoLogging both) Eq (engine.deliver record) (engine'.deliver record) := by
  obtain ⟨sink, hsink⟩ := h.callbacks_eq
  obtain ⟨sink', hsink'⟩ := h.callbacks_eq'
  rw [deliver_eq, deliver_eq, hsink, hsink']
  show Act.Alike _ _ ((callbacks.handler.map _).elim _ _) ((callbacks.handler.map _).elim _ _)
  cases callbacks.handler with
  | none => exact .pure rfl
  | some handler => exact (call (handler record) _).bind_eq fun _ ↦ h.contain _ _ _ _

/-- The same observer is told the same. -/
theorem announce (h : Paired callbacks both engine engine') (old new : Lifecycle) :
    Act.Alike (.uptoLogging both) Eq (engine.announce old new) (engine'.announce old new) := by
  obtain ⟨sink, hsink⟩ := h.callbacks_eq
  obtain ⟨sink', hsink'⟩ := h.callbacks_eq'
  rw [announce_eq, announce_eq, hsink, hsink']
  show Act.Alike _ _ ((callbacks.observer.map _).elim _ _) ((callbacks.observer.map _).elim _ _)
  cases callbacks.observer with
  | none => exact .pure rfl
  | some observer =>
      refine Act.Alike.bind_eq ?_ fun _ ↦ h.contain _ _ _ _
      exact (call (observer old new) _).bind_eq fun _ ↦ .pure rfl

/-- Paired engines that begin alike are alike in all that they do. -/
theorem alike (h : Paired callbacks both engine engine') (hstate : engine.state = engine'.state)
    (hqueue : engine.queue = engine'.queue) (hprocessed : engine.processed = engine'.processed) :
    Engine.Alike (.uptoLogging both) engine engine' where
  state_eq := hstate
  queue_eq := hqueue
  processed_eq := hprocessed
  log level message _ := h.log level message
  admits := h.admits
  deliver := h.deliver
  announce := h.announce

/-- The engines of two configurations that differ in logging only. -/
theorem ofConfig (config : Config ρ) {logging logging' : Bool} {sink : Option (Sink τ)}
    {sink' : Option (Sink τ')}
    (h : both → (logging = true ∧ sink.isSome) ∧ logging' = true ∧ sink'.isSome) :
    Paired config.callbacks both (.ofConfig (config.withSink logging sink))
      (.ofConfig (config.withSink logging' sink')) where
  callbacks_eq := ⟨sink, rfl⟩
  callbacks_eq' := ⟨sink', rfl⟩
  heard := by
    intro hboth
    obtain ⟨⟨hlogging, hsink⟩, hlogging', hsink'⟩ := h hboth
    refine ⟨⟨hlogging, ?_⟩, hlogging', ?_⟩
    · exact (Option.isSome_map ..).trans hsink
    · exact (Option.isSome_map ..).trans hsink'

end Paired

/-! ## Whole lives -/

/-- The life of an engine: it is made, is given operations, and is taken down. The answers are given
together with the engine that the operations leave. -/
def lifetime {σ : Type} (config : Config σ) (ops : List Op) :
    Act σ (Except ConfigError (List Reply × Engine σ)) := do
  match ← create config with
  | .error error => return .error error
  | .ok engine => do
    let (replies, engine) ← engine.run ops
    engine.retire
    return .ok (replies, engine)

/-- What is made of a valid configuration is announced. -/
theorem create_of_ok {σ : Type} {config : Config σ} {engine : Engine σ} {host : σ}
    (h : ((create config).run host).value = .ok engine) :
    engine = ofConfig config ∧ create config = (do
      Act.trace (.engineCreated config.name (ofConfig config).capacity)
      (ofConfig config).log .info s!"Event processor '{config.name}' created"
      return .ok (ofConfig config)) := by
  cases hvalidate : config.validate with
  | error error =>
      rw [create, hvalidate] at h
      cases h
  | ok _ =>
      rw [create, hvalidate] at h
      exact ⟨(Except.ok.inj h).symm, by rw [create, hvalidate]; rfl⟩

/-- What is observed of the life of an engine is what is observed while it is made, while it is used
and while it is taken down. -/
theorem journal_lifetime {σ : Type} {config : Config σ} {engine : Engine σ} {host : σ}
    (h : ((create config).run host).value = .ok engine) (ops : List Op) :
    let made := (create config).run host
    let done := (engine.run ops).run made.host
    ((lifetime config ops).run host).journal =
      made.journal ++ (done.journal ++ (done.value.2.retire.run done.host).journal) := by
  intro made done
  unfold lifetime
  rw [Act.journal_bind, h]
  simp only [Act.journal_bind, Act.run_pure, List.append_nil]
  rfl

/-- The life of a new engine once its making has been traced. -/
def liveOut {σ : Type} (engine : Engine σ) (ops : List Op) :
    Act σ (Except ConfigError (List Reply × Engine σ)) := do
  engine.log .info s!"Event processor '{engine.name}' created"
  let (replies, last) ← engine.run ops
  last.retire
  return .ok (replies, last)

/-- From a valid configuration an engine is made, which lives its life out. -/
theorem lifetime_of_valid {σ : Type} {config : Config σ} (h : config.validate = .ok ())
    (ops : List Op) :
    lifetime config ops = (do
      Act.trace (.engineCreated config.name (ofConfig config).capacity)
      (ofConfig config).liveOut ops) := by
  rw [lifetime, create, h]
  simp only [bind_assoc, pure_bind]
  rfl

/-- From a configuration that is not valid no engine is made. -/
theorem lifetime_of_refused {σ : Type} {config : Config σ} {error : ConfigError}
    (h : config.validate = .error error) (ops : List Op) :
    lifetime config ops = pure (.error error) := by
  rw [lifetime, create, h]
  rfl

/-- An engine lives out its life with a trait if its parts and all its lines have it. -/
theorem Parts.liveOut {σ : Type} {trait : Act.Trait σ} {engine : Engine σ} (h : engine.Parts trait)
    (hlog : ∀ level message, trait.Has (engine.log level message)) (ops : List Op) :
    trait.Has (engine.liveOut ops) := by
  refine trait.seq (hlog _ _) fun _ ↦ trait.bind (h.run ops) fun host ↦ ?_
  -- What the run leaves is the same engine but for its state, its queue and its count.
  obtain ⟨state, queue, processed, -, hlast⟩ := engine.exists_eq_run ops host
  have hclear := (h.of_moved state queue processed).notes.clear
  show trait.Has (((engine.run ops).run host).value.2.retire >>= _)
  rw [hlast]
  refine trait.seq ?_ fun _ ↦ trait.pure _
  exact trait.seq (hlog _ _) fun _ ↦ trait.seq hclear fun _ ↦ trait.pure _

/-- The whole life of an engine has a trait if the engine bears it and all its lines have it. -/
theorem Bears.lifetime {σ : Type} {trait : Act.Trait σ} {config : Config σ}
    (h : (ofConfig config).Bears trait)
    (hlog : ∀ level message, trait.Has ((ofConfig config).log level message)) (ops : List Op) :
    trait.Has (lifetime config ops) := by
  cases hvalidate : config.validate with
  | error error =>
      rw [lifetime_of_refused hvalidate]
      exact trait.pure _
  | ok _ =>
      rw [lifetime_of_valid hvalidate]
      exact trait.seq (h.trace _) fun _ ↦ h.parts.liveOut hlog ops

section

variable {σ σ' : Type} {like : Likeness σ σ'} {engine : Engine σ} {engine' : Engine σ'}

/-- Two engines are alike and have the same name. -/
structure Twins (like : Likeness σ σ') (engine : Engine σ) (engine' : Engine σ') : Prop where
  alike : Engine.Alike like engine engine'
  name_eq : engine.name = engine'.name

/-- What two configurations make: twins, or the same error. -/
def TwinsMade (like : Likeness σ σ') :
    Except ConfigError (Engine σ) → Except ConfigError (Engine σ') → Prop
  | .ok engine, .ok engine' => Twins like engine engine'
  | .error error, .error error' => error = error'
  | _, _ => False

/-- The same answers, from engines in the same state, with the same queue and the same count; or the
same error. -/
def SameLife : Except ConfigError (List Reply × Engine σ) →
    Except ConfigError (List Reply × Engine σ') → Prop
  | .ok (replies, engine), .ok (replies', engine') =>
    replies = replies' ∧ engine.state = engine'.state ∧ engine.queue = engine'.queue ∧
      engine.processed = engine'.processed
  | .error error, .error error' => error = error'
  | _, _ => False

/-- Twins answer a run alike and are twins afterwards. -/
theorem Twins.run (h : Twins like engine engine') (ops : List Op) :
    Act.Alike like (fun x y ↦ x.1 = y.1 ∧ Twins like x.2 y.2) (engine.run ops)
      (engine'.run ops) := by
  induction ops generalizing engine engine' with
  | nil => exact .pure ⟨rfl, h⟩
  | cons op ops ih =>
      intro host host' hhost
      have hdone := h.alike.apply op host host' hhost
      obtain ⟨hreply, hafter⟩ := hdone.value
      have hname := (engine.name_apply op host).trans
        (h.name_eq.trans (engine'.name_apply op host').symm)
      have hrest := ih ⟨hafter, hname⟩ _ _ hdone.host
      refine ⟨⟨?_, hrest.value.2⟩, like.journals_append hdone.journal hrest.journal, hrest.host⟩
      exact congr (congrArg List.cons hreply) hrest.value.1

/-- Twins are taken down alike. -/
theorem Twins.retire (h : Twins like engine engine') :
    Act.Alike like Eq engine.retire engine'.retire := by
  unfold Engine.retire
  rw [h.name_eq]
  exact (h.alike.log _ _ rfl).bind_eq fun _ ↦ h.alike.clear.bind fun _ _ _ ↦ .pure rfl

/-- Lives that begin alike are alike. -/
theorem alike_lifetime {config : Config σ} {config' : Config σ'}
    (h : Act.Alike like (TwinsMade like) (create config) (create config')) (ops : List Op) :
    Act.Alike like SameLife (lifetime config ops) (lifetime config' ops) := by
  refine h.bind ?_
  rintro (error | engine) (error' | engine') hmade
  case error.error => exact .pure hmade
  case ok.ok =>
    refine (Twins.run hmade ops).bind ?_
    rintro ⟨replies, last⟩ ⟨_, last'⟩ ⟨rfl, hlast⟩
    refine hlast.retire.bind fun _ _ _ ↦ .pure ⟨rfl, ?_, ?_, ?_⟩
    · exact hlast.alike.state_eq
    · exact hlast.alike.queue_eq
    · exact hlast.alike.processed_eq
  all_goals exact hmade.elim

end

/-- Configurations that differ in logging only make alike engines of the same name. -/
theorem alike_create_withSink (config : Config ρ) {both : Prop} {logging logging' : Bool}
    {sink : Option (Sink τ)} {sink' : Option (Sink τ')}
    (h : both → (logging = true ∧ sink.isSome) ∧ logging' = true ∧ sink'.isSome) :
    Act.Alike (.uptoLogging both) (TwinsMade (.uptoLogging both))
      (create (config.withSink logging sink)) (create (config.withSink logging' sink')) := by
  have hpaired := Paired.ofConfig config h
  have hvalidate : (config.withSink logging sink).validate = config.validate := rfl
  have hvalidate' : (config.withSink logging' sink').validate = config.validate := rfl
  unfold create
  rw [hvalidate, hvalidate']
  split
  · exact .pure rfl
  · refine (Paired.trace _ _).bind_eq fun _ ↦ (hpaired.log _ _).bind_eq fun _ ↦ .pure ?_
    exact ⟨hpaired.alike rfl rfl rfl, rfl⟩

/-! ## Engines that do not log -/

/-- An engine that is not heard logs nothing. -/
theorem silent_log {σ : Type} {engine : Engine σ} (h : ¬ engine.Heard) (level : Level)
    (message : String) : engine.log level message = pure () := by
  unfold log
  split
  · rename_i sink hlogging hsink
    exact absurd ⟨hlogging, by rw [hsink]; rfl⟩ h
  · rfl

/-- An engine whose lines reach no sink is silent, whatever it does. -/
theorem bears_silent {callbacks : Callbacks ρ} {sink : Option (Sink τ)} {engine : Engine (ρ × τ)}
    (hcallbacks : engine.callbacks = callbacks.withSink sink) (h : ¬ engine.Heard) :
    engine.Bears (.silent ρ τ) where
  log level message _ := by
    rw [silent_log h]
    exact (Act.Trait.silent ρ τ).pure ()
  trace _ := fun _ ↦ ⟨rfl, rfl⟩
  offer filter hfilter record := by
    rw [hcallbacks] at hfilter
    obtain ⟨inner, -, rfl⟩ := Option.map_eq_some_iff.mp hfilter
    exact fun _ ↦ ⟨rfl, rfl⟩
  deliver handler hhandler record := by
    rw [hcallbacks] at hhandler
    obtain ⟨inner, -, rfl⟩ := Option.map_eq_some_iff.mp hhandler
    exact fun _ ↦ ⟨rfl, rfl⟩
  notify observer hobserver old new := by
    rw [hcallbacks] at hobserver
    obtain ⟨inner, -, rfl⟩ := Option.map_eq_some_iff.mp hobserver
    exact fun _ ↦ ⟨rfl, rfl⟩

/-- The whole life of an engine whose lines reach no sink is silent. -/
theorem silent_lifetime (config : Config ρ) {logging : Bool} {sink : Option (Sink τ)}
    (h : ¬ (logging = true ∧ sink.isSome)) (ops : List Op) :
    (Act.Trait.silent ρ τ).Has (lifetime (config.withSink logging sink) ops) := by
  have hunheard : ¬ (ofConfig (config.withSink logging sink)).Heard := by
    rintro ⟨hlogging, hsink⟩
    exact h ⟨hlogging, (Option.isSome_map ..).symm.trans hsink⟩
  refine (bears_silent rfl hunheard).lifetime (fun level message ↦ ?_) ops
  rw [silent_log hunheard]
  exact Act.Trait.pure _ ()

/-! ## The comparison -/

/-- Two steps that agree in all but what sinks make of their lines. If `both` log, they offer the
same lines. -/
structure SameButLogging (both : Prop) (step : Step (ρ × τ)) (step' : Step (ρ × τ')) : Prop where
  op_eq : step.op = step'.op
  reply_eq : step.reply = step'.reply
  state_eq : step.after.state = step'.after.state
  queue_eq : step.after.queue = step'.after.queue
  processed_eq : step.after.processed = step'.after.processed
  calls_eq : step.journal.calls = step'.journal.calls
  lines_eq : both → step.journal.lines = step'.journal.lines
  host_eq : step.host.1 = step'.host.1

/-- Steps that are alike up to logging agree in all but that. -/
theorem sameButLogging_of_alike {both : Prop} {step : Step (ρ × τ)} {step' : Step (ρ × τ')}
    (h : Step.Alike (.uptoLogging both) step step') : SameButLogging both step step' where
  op_eq := h.op_eq
  reply_eq := h.reply_eq
  state_eq := h.after.state_eq
  queue_eq := h.after.queue_eq
  processed_eq := h.after.processed_eq
  calls_eq := h.journal.1
  lines_eq := h.journal.2
  host_eq := h.host

/-- Logging interferes with nothing. Two configurations differ in nothing but whether they log and
in their sinks; each sink may be missing, capture its lines, forward them or panic as it likes, and
keeps whatever it keeps beside the state that the other callbacks work on. Then both are refused in
the same way, or they make engines that go through the same steps: every operation gives the same
answer and leaves the same state, the same queue and the same count, and the handler, the filter and
the observer are called alike, with the same results, and leave the same host. The same holds of the
whole lives of the engines, from their making until they are taken down. If both engines log and
have a sink, the lines that they offer are the same throughout, whatever the sinks do with them. An
engine that does not log, or has no sink, never calls one. -/
theorem logging_interferes_with_nothing (config : Config ρ) (logging logging' : Bool)
    (sink : Option (Sink τ)) (sink' : Option (Sink τ')) (ops : List Op) (state : ρ) (kept : τ)
    (kept' : τ') :
    let one := config.withSink logging sink
    let other := config.withSink logging' sink'
    let both := (logging = true ∧ sink.isSome) ∧ logging' = true ∧ sink'.isSome
    let made := (create one).run (state, kept)
    let made' := (create other).run (state, kept')
    let life := (lifetime one ops).run (state, kept)
    let life' := (lifetime other ops).run (state, kept')
    (match made.value, made'.value with
      | .ok engine, .ok engine' =>
        List.Forall₂ (SameButLogging both) (engine.steps ops made.host)
          (engine'.steps ops made'.host)
      | .error error, .error error' => error = error'
      | _, _ => False) ∧
      (SameLife life.value life'.value ∧ life.journal.calls = life'.journal.calls ∧
        life.host.1 = life'.host.1) ∧
      (both → life.journal.lines = life'.journal.lines) ∧
      (¬ (logging = true ∧ sink.isSome) → life.journal.lines = [] ∧ life.host.2 = kept) := by
  intro one other both made made' life life'
  have hcreate : Act.Alike (.uptoLogging both) (TwinsMade (.uptoLogging both)) (create one)
      (create other) := alike_create_withSink config id
  have hmade := hcreate (state, kept) (state, kept') rfl
  have hlife := alike_lifetime hcreate ops (state, kept) (state, kept') rfl
  refine ⟨?_, ⟨hlife.value, hlife.journal.1, hlife.host⟩, hlife.journal.2, ?_⟩
  · have hvalue : TwinsMade _ made.value made'.value := hmade.value
    cases hone : made.value <;> cases hother : made'.value <;> rw [hone, hother] at hvalue
    case ok.ok =>
      exact (hvalue.alike.steps hmade.host ops).imp fun _ _ ↦ sameButLogging_of_alike
    all_goals exact hvalue
  · intro hunheard
    exact silent_lifetime config hunheard ops (state, kept)

end Engine

end EventStaging
