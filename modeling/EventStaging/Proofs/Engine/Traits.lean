import EventStaging.Proofs.Engine.Effects

/-!
# Traits of operations

Many traits of actions go over from the parts of an action to the whole (`Act.Trait`). If what an
engine notes of its work has such a trait (`Engine.Notes`), then clearing has it, and so have pushes
and dispatch if admission and delivery have it. Every operation of the engine has it if all these
parts have it (`Engine.Parts.apply`), and for that it is enough that the engine bears the trait, which
means that its calls into the host and its reports have it (`Engine.Bears`). The line that an engine
logs when it is taken down is no part of any operation, and it need not have the trait.
-/

namespace EventStaging

/-- A trait of actions that a sequence of actions has if its parts have it. What comes next needs
the trait only for the values that the action can have. -/
structure Act.Trait (σ : Type) where
  Has : ∀ {α : Type}, Act σ α → Prop
  pure : ∀ {α : Type} (value : α), Has (Pure.pure value)
  bind : ∀ {α β : Type} {action : Act σ α} {next : α → Act σ β}, Has action →
    (∀ host, Has (next (action.run host).value)) → Has (action >>= next)

namespace Act.Trait

variable {σ α β : Type} (trait : Act.Trait σ)

/-- A sequence has the trait if its second part has it whatever the first one results in. -/
theorem seq {action : Act σ α} {next : α → Act σ β} (haction : trait.Has action)
    (hnext : ∀ value, trait.Has (next value)) : trait.Has (action >>= next) :=
  trait.bind haction fun _ ↦ hnext _

/-- Changing the value of an action takes no trait away. -/
theorem map {action : Act σ α} (h : trait.Has action) (f : α → β) : trait.Has (f <$> action) := by
  rw [← bind_pure_comp]
  exact trait.seq h fun _ ↦ trait.pure _

/-- Only observations of an allowed kind are made. -/
def only (σ : Type) (allowed : Observation → Bool) : Act.Trait σ where
  Has action := action.Only allowed
  pure := Act.Only.pure
  bind haction hnext := fun host ↦ (haction host).append (hnext host _)

/-- What is read from the host changes by what the journal holds: `fold` says how. -/
def tells (get : σ → β) (fold : β → Journal → β) (fold_nil : ∀ b, fold b [] = b)
    (fold_append : ∀ b first second, fold b (first ++ second) = fold (fold b first) second) :
    Act.Trait σ where
  Has action := ∀ host, get (action.run host).host = fold (get host) (action.run host).journal
  pure _ := fun _ ↦ (fold_nil _).symm
  bind haction hnext := by
    intro host
    rw [Act.host_bind, Act.journal_bind, hnext, haction, fold_append]

end Act.Trait

namespace Engine

variable {σ α : Type} {trait : Act.Trait σ} {engine : Engine σ}

/-- Whether a log line opens like the one of an engine that is taken down. -/
def isParting (message : String) : Bool := Text.beginsWith message "Destroying event processor"

/-- Whether a log line opens like the one about a change of state. -/
def isMoving (message : String) : Bool := Text.beginsWith message "State change: "

/-- A text in words is the text. -/
@[simp] theorem toString_text (text : String) : toString text = text := rfl

/-- A log line about neither the end of an engine nor a change of its state. -/
def IsOrdinary (message : String) : Prop := isParting message = false ∧ isMoving message = false

/-- The line about a failed call is an ordinary one. -/
theorem isOrdinary_failureLine (role : Role) (kind : Option Kind) (failure : Failure) :
    IsOrdinary (failureLine role kind failure) := by
  unfold failureLine
  cases kind <;> simp [IsOrdinary, isParting, isMoving, Text.beginsWith, Text.after?]

/-- The log line about an event for which there was no storage. -/
def droppingLine (bytes : Nat) : String :=
  s!"Dropping event: {(EngineError.allocation bytes).message}"

/-- The line about an event that is dropped for want of storage is an ordinary one. -/
theorem isOrdinary_droppingLine (bytes : Nat) : IsOrdinary (droppingLine bytes) := by
  simp [droppingLine, IsOrdinary, isParting, isMoving, Text.beginsWith, Text.after?]

/-! ## Notes -/

/-- What an engine notes of its work has a trait, but perhaps not its lines about errors, about its
end and about changes of its state. -/
structure Notes (trait : Act.Trait σ) (engine : Engine σ) : Prop where
  log : ∀ level message, level ≠ .error → IsOrdinary message →
    trait.Has (engine.log level message)

namespace Notes

/-- The state, the queue and the count of an engine make no difference. -/
theorem of_moved (h : Notes trait engine) (state : Lifecycle) (queue : Ring Record)
    (processed : Nat) : Notes trait { engine with state, queue, processed } :=
  ⟨h.log⟩

/-! ## Taking events in -/

/-- Queueing has the trait, if the line about wanting storage has it. -/
theorem enqueue (h : Notes trait engine)
    (hdropping : ∀ bytes, trait.Has (engine.log .error (droppingLine bytes)))
    (allocator : Allocator) (record : Record) : trait.Has (engine.enqueue allocator record) := by
  have hmoved := h.of_moved engine.state (engine.queue.push allocator.slots record).2
    engine.processed
  unfold Engine.enqueue
  simp only
  split
  · refine trait.seq (hmoved.log _ _ nofun ?_) fun _ ↦ trait.pure _
    simp [IsOrdinary, isParting, isMoving, Text.beginsWith, Text.after?]
  · refine trait.seq (hmoved.log _ _ nofun ?_) fun _ ↦ trait.pure _
    simp [IsOrdinary, isParting, isMoving, Text.beginsWith, Text.after?]
  · exact trait.seq (hdropping _) fun _ ↦ trait.pure _

/-- A push has the trait, if the question to the filter has it. -/
theorem push (h : Notes trait engine)
    (hdropping : ∀ bytes, trait.Has (engine.log .error (droppingLine bytes)))
    (hadmits : ∀ record, trait.Has (engine.admits record)) (allocator : Allocator) (kind : Kind)
    (source : String) (payload : List UInt8) :
    trait.Has (engine.push allocator kind source payload) := by
  by_cases hfull : engine.queue.isFull
  · rw [push_of_full hfull]
    refine trait.seq (h.log _ _ nofun ?_) fun _ ↦ trait.pure _
    simp [IsOrdinary, isParting, isMoving, Text.beginsWith, Text.after?]
  cases hcopy : Record.copy allocator kind source payload with
  | error bytes =>
      rw [push_of_uncopied hfull hcopy]
      exact trait.seq (hdropping bytes) fun _ ↦ trait.pure _
  | ok record =>
      rw [push_of_copied hfull hcopy]
      refine trait.seq (hadmits record) fun admitted ↦ ?_
      split
      · exact h.enqueue hdropping allocator record
      · refine trait.seq (h.log _ _ nofun ?_) fun _ ↦ trait.pure _
        simp [IsOrdinary, isParting, isMoving, Text.beginsWith, Text.after?]

/-! ## Dispatch -/

/-- Dispatching has the trait, if the call of the handler has it. -/
theorem dispatch (h : Notes trait engine) (hdelivers : ∀ record, trait.Has (engine.deliver record))
    (record : Record) : trait.Has (engine.dispatch record) := by
  unfold Engine.dispatch
  refine trait.seq (h.log _ _ nofun ?_) fun _ ↦ trait.seq (hdelivers record) fun _ ↦ trait.pure _
  simp [IsOrdinary, isParting, isMoving, Text.beginsWith, Text.after?]

/-- Draining has the trait, if the call of the handler has it. -/
theorem drain (limit : Nat) (h : Notes trait engine)
    (hdelivers : ∀ record, trait.Has (engine.deliver record)) :
    trait.Has (engine.drain limit) := by
  induction limit generalizing engine with
  | zero => exact trait.pure _
  | succ limit ih =>
      rcases hpop : engine.queue.pop with ⟨_ | record, queue⟩
      case none =>
          rw [drain_of_empty hpop]
          exact trait.pure _
      case some =>
          rw [drain_of_pop hpop]
          refine trait.bind ((h.of_moved _ queue _).dispatch hdelivers record) fun host ↦ ?_
          -- A dispatch changes no callback, so the rest has the trait as well.
          exact trait.map (ih (h.of_moved _ queue (engine.processed + 1)) hdelivers) _

/-- The warning of an engine that is not running has the trait. -/
theorem warnNotRunning (h : Notes trait engine) : trait.Has engine.warnNotRunning := by
  refine h.log _ _ nofun ?_
  simp [IsOrdinary, isParting, isMoving, Text.beginsWith, Text.after?]

/-- A single dispatch has the trait, whether or not the engine is running. -/
theorem process (h : Notes trait engine)
    (hdelivers : ∀ record, trait.Has (engine.deliver record)) : trait.Has engine.process := by
  by_cases hrunning : engine.state.isRunning
  · rw [process_of_running hrunning]
    exact trait.seq (h.drain 1 hdelivers) fun _ ↦ trait.pure _
  · rw [process_of_not_running hrunning]
    exact trait.seq h.warnNotRunning fun _ ↦ trait.pure _

/-- Dispatching everything has the trait, whether or not the engine is running. -/
theorem processAll (h : Notes trait engine)
    (hdelivers : ∀ record, trait.Has (engine.deliver record)) : trait.Has engine.processAll := by
  by_cases hrunning : engine.state.isRunning
  · rw [processAll_of_running hrunning]
    refine trait.bind (h.drain engine.queueSize hdelivers) fun host ↦ ?_
    rw [(engine.drain_run engine.queueSize host).1]
    simp only
    split
    · refine trait.seq ((h.of_moved _ _ _).log _ _ nofun ?_) fun _ ↦ trait.pure _
      simp [IsOrdinary, isParting, isMoving, Text.beginsWith, Text.after?]
    · exact trait.pure _
  · rw [processAll_of_not_running hrunning]
    exact trait.seq h.warnNotRunning fun _ ↦ trait.pure _

/-! ## Clearing -/

/-- Clearing has the trait. -/
theorem clear (h : Notes trait engine) : trait.Has engine.clear := by
  unfold Engine.clear
  simp only
  split
  · refine trait.seq ((h.of_moved _ _ _).log _ _ nofun ?_) fun _ ↦ trait.pure _
    simp [IsOrdinary, isParting, isMoving, Text.beginsWith, Text.after?]
  · exact trait.pure _

end Notes

/-! ## Every operation -/

/-- The log lines of an engine have a trait, and so has each contained call of a callback. -/
structure Parts (trait : Act.Trait σ) (engine : Engine σ) : Prop where
  log : ∀ level message, isParting message = false → trait.Has (engine.log level message)
  admits : ∀ record, trait.Has (engine.admits record)
  deliver : ∀ record, trait.Has (engine.deliver record)
  announce : ∀ old new, trait.Has (engine.announce old new)

/-- A change of state has a trait if the line about it and what is told of it have it. -/
theorem has_moveTo
    (hlog : ∀ message, isParting message = false → trait.Has (engine.log .info message))
    (hannounces : ∀ old new, trait.Has (engine.announce old new)) (new : Lifecycle) :
    trait.Has (engine.moveTo new) := by
  unfold Engine.moveTo
  split
  · exact trait.pure _
  · refine trait.seq (hlog _ ?_) fun _ ↦ trait.seq (hannounces _ _) fun _ ↦ trait.pure _
    simp [isParting, Text.beginsWith, Text.after?]

namespace Parts

/-- Ordinary lines are among the log lines that have the trait. -/
theorem notes (h : Parts trait engine) : Notes trait engine :=
  ⟨fun level message _ hmessage ↦ h.log level message hmessage.1⟩

/-- The state, the queue and the count of an engine make no difference. -/
theorem of_moved (h : Parts trait engine) (state : Lifecycle) (queue : Ring Record)
    (processed : Nat) : Parts trait { engine with state, queue, processed } :=
  ⟨h.log, h.admits, h.deliver, h.announce⟩

/-- Every operation has the trait. -/
theorem apply (h : Parts trait engine) (op : Op) : trait.Has (engine.apply op) := by
  cases op with
  | push allocator kind source payload =>
      rw [apply_push]
      have hdropping (bytes : Nat) : trait.Has (engine.log .error (droppingLine bytes)) :=
        h.log _ _ (isOrdinary_droppingLine bytes).1
      exact trait.map (h.notes.push hdropping h.admits allocator kind source payload) _
  | process =>
      rw [apply_process]
      exact trait.map (h.notes.process h.deliver) _
  | processAll =>
      rw [apply_processAll]
      exact trait.map (h.notes.processAll h.deliver) _
  | clear =>
      rw [apply_clear]
      exact trait.map h.notes.clear _
  | start =>
      rw [apply_start]
      exact trait.map (has_moveTo (h.log _) h.announce .running) _
  | stop =>
      rw [apply_stop]
      exact trait.map (has_moveTo (h.log _) h.announce .stopped) _

/-- What an operation leaves has the same parts. -/
theorem after (h : Parts trait engine) (op : Op) (host : σ) :
    Parts trait ((engine.apply op).run host).value.2 := by
  obtain ⟨state, queue, processed, -, hvalue⟩ := engine.exists_eq_apply op host
  rw [hvalue]
  exact h.of_moved state queue processed

/-- A run has the trait. -/
theorem run (h : Parts trait engine) (ops : List Op) : trait.Has (engine.run ops) := by
  induction ops generalizing engine with
  | nil => exact trait.pure _
  | cons op ops ih => exact trait.bind (h.apply op) fun host ↦ trait.map (ih (h.after op host)) _

end Parts

/-! ## Reports -/

/-- The reports of an engine have a trait, but perhaps not those about its end and about changes of
its state. -/
structure Reports (trait : Act.Trait σ) (engine : Engine σ) : Prop where
  log : ∀ level message, IsOrdinary message → trait.Has (engine.log level message)
  trace : ∀ event, trait.Has (Act.trace event)

/-- The handler of an engine is called in a way that has a trait. -/
def Delivers (trait : Act.Trait σ) (engine : Engine σ) : Prop :=
  ∀ handler, engine.callbacks.handler = some handler →
    ∀ record, trait.Has (Act.deliver handler record)

/-- The filter of an engine is called in a way that has a trait. -/
def Offers (trait : Act.Trait σ) (engine : Engine σ) : Prop :=
  ∀ filter, engine.callbacks.filter = some filter →
    ∀ record, trait.Has (Act.offer filter record)

namespace Reports

/-- What an engine notes are reports. -/
theorem notes (h : Reports trait engine) : Notes trait engine :=
  ⟨fun level message _ hmessage ↦ h.log level message hmessage⟩

/-- The state, the queue and the count of an engine make no difference. -/
theorem of_moved (h : Reports trait engine) (state : Lifecycle) (queue : Ring Record)
    (processed : Nat) : Reports trait { engine with state, queue, processed } :=
  ⟨h.log, h.trace⟩

/-- Reporting a failure has the trait. -/
theorem report (h : Reports trait engine) (role : Role) (kind : Option Kind) (failure : Failure) :
    trait.Has (engine.report role kind failure) := by
  unfold Engine.report
  exact trait.seq (h.trace _) fun _ ↦ h.log _ _ (isOrdinary_failureLine role kind failure)

/-- Containing the end of a call has the trait. -/
theorem contain (h : Reports trait engine) (role : Role) (kind : Option Kind) (fallback : α)
    (outcome : Outcome α) : trait.Has (engine.contain role kind fallback outcome) := by
  unfold Engine.contain
  split
  · exact trait.pure _
  · exact trait.seq (h.report _ _ _) fun _ ↦ trait.pure _

/-- If the calls of the filter have the trait, then deciding on a record has it. -/
theorem admits (h : Reports trait engine) (hoffers : Offers trait engine) (record : Record) :
    trait.Has (engine.admits record) := by
  rw [admits_eq]
  cases hfilter : engine.callbacks.filter with
  | none => exact trait.pure true
  | some filter => exact trait.seq (hoffers filter hfilter record) fun _ ↦ h.contain _ _ _ _

/-- If the calls of the handler have the trait, then a delivery has it. -/
theorem deliver (h : Reports trait engine) (hdelivers : Delivers trait engine) (record : Record) :
    trait.Has (engine.deliver record) := by
  rw [deliver_eq]
  cases hhandler : engine.callbacks.handler with
  | none => exact trait.pure ()
  | some handler =>
      exact trait.seq (hdelivers handler hhandler record) fun _ ↦ h.contain _ _ _ _

/-- A push has the trait, if the calls of the filter have it. -/
theorem push (h : Reports trait engine) (hoffers : Offers trait engine) (allocator : Allocator)
    (kind : Kind) (source : String) (payload : List UInt8) :
    trait.Has (engine.push allocator kind source payload) :=
  h.notes.push (fun bytes ↦ h.log _ _ (isOrdinary_droppingLine bytes)) (h.admits hoffers)
    allocator kind source payload

/-- A single dispatch has the trait, if the calls of the handler have it. -/
theorem process (h : Reports trait engine) (hdelivers : Delivers trait engine) :
    trait.Has engine.process :=
  h.notes.process (h.deliver hdelivers)

/-- Dispatching everything has the trait, if the calls of the handler have it. -/
theorem processAll (h : Reports trait engine) (hdelivers : Delivers trait engine) :
    trait.Has engine.processAll :=
  h.notes.processAll (h.deliver hdelivers)

theorem clear (h : Reports trait engine) : trait.Has engine.clear := h.notes.clear

end Reports

/-! ## Engines that bear a trait -/

/-- Calls of the callbacks of an engine and its reports have a trait. -/
structure Bears (trait : Act.Trait σ) (engine : Engine σ) : Prop where
  log : ∀ level message, isParting message = false → trait.Has (engine.log level message)
  trace : ∀ event, trait.Has (Act.trace event)
  offer : ∀ filter, engine.callbacks.filter = some filter →
    ∀ record, trait.Has (Act.offer filter record)
  deliver : ∀ handler, engine.callbacks.handler = some handler →
    ∀ record, trait.Has (Act.deliver handler record)
  notify : ∀ observer, engine.callbacks.observer = some observer →
    ∀ old new, trait.Has (Act.call (observer old new) fun panic ↦
      .notified old new (Outcome.ofPanic? panic))

namespace Bears

/-- Its reports are part of what bears the trait. -/
theorem reports (h : Bears trait engine) : Reports trait engine :=
  ⟨fun level message hmessage ↦ h.log level message hmessage.1, h.trace⟩

/-- Telling the observer has the trait. -/
theorem announce (h : Bears trait engine) (old new : Lifecycle) :
    trait.Has (engine.announce old new) := by
  rw [announce_eq]
  cases hobserver : engine.callbacks.observer with
  | none => exact trait.pure ()
  | some observer =>
      refine trait.seq (trait.seq (h.notify observer hobserver old new) fun _ ↦ trait.pure _) ?_
      exact fun _ ↦ h.reports.contain _ _ _ _

/-- If calls and reports have the trait, then so have the contained calls that are made of them. -/
theorem parts (h : Bears trait engine) : Parts trait engine :=
  ⟨h.log, h.reports.admits h.offer, h.reports.deliver h.deliver, h.announce⟩

/-- Every operation has the trait. -/
theorem apply (h : Bears trait engine) (op : Op) : trait.Has (engine.apply op) := h.parts.apply op

/-- An engine that bears a trait does so in every run. -/
theorem run (h : Bears trait engine) (ops : List Op) : trait.Has (engine.run ops) :=
  h.parts.run ops

end Bears

/-! ## Parting lines -/

/-- Whether an observation is anything but a parting line. -/
def isOngoing : Observation → Bool
  | .logged _ message _ => !isParting message
  | .offered .. | .delivered .. | .notified .. | .traced _ => true

/-- No operation logs a parting line. -/
theorem ongoing_apply (engine : Engine σ) (op : Op) : (engine.apply op).Only isOngoing := by
  have hbears : engine.Bears (.only σ isOngoing) := {
    log := fun level message hmessage ↦
      engine.only_log (fun _ ↦ by simp [isOngoing, hmessage]) fun _ ↦ rfl
    trace := fun event ↦ Act.Only.observe rfl
    offer := fun filter _ record ↦ Act.Only.call fun _ ↦ rfl
    deliver := fun handler _ record ↦ Act.Only.call fun _ ↦ rfl
    notify := fun observer _ old new ↦ Act.Only.call fun _ ↦ rfl }
  exact hbears.apply op

end Engine

end EventStaging
