import EventStaging.Proofs.Act.Alike
import EventStaging.Proofs.Engine.Effects
import EventStaging.Proofs.Engine.Steps
import Mathlib.Data.List.Forall2

/-!
# Engines that are alike

Two engines are alike when they are in the same state, hold the same queue and have dispatched as
many records, and when each of them does alike things where it calls into its host: when it asks its
filter, gives a record to its handler, tells its observer, or offers a log line. Alike engines stay
alike, whatever is done to both: `Engine.Alike.apply` says so of one operation and
`Engine.Alike.steps` of a whole run. Log lines about contained failures are left out, since two runs
may differ in them.
-/

namespace EventStaging

namespace Engine

/-- Whether a log line is about a contained failure. -/
def isFailureLine (line : Level × String) : Bool :=
  line.1 == .error && Text.beginsWith line.2 "Panic or error in"

/-- Log lines without those about contained failures. -/
def plainLines (lines : List (Level × String)) : List (Level × String) :=
  lines.filter (!isFailureLine ·)

/-- The plain lines of two logs in turn are those of the one and then of the other. -/
@[simp] theorem plainLines_append (first second : List (Level × String)) :
    plainLines (first ++ second) = plainLines first ++ plainLines second :=
  List.filter_append ..

/-- A line that is about no failure is plain. -/
theorem plainLines_of_plain {line : Level × String} (hline : isFailureLine line = false) :
    plainLines [line] = [line] := by
  simp [plainLines, hline]

/-- A line about a failure is not plain. -/
theorem plainLines_of_failure {line : Level × String} (hline : isFailureLine line) :
    plainLines [line] = [] := by
  simp [plainLines, hline]

theorem isFailureLine_of_append (rest : String) :
    isFailureLine (.error, "Panic or error in" ++ rest) := by
  simp [isFailureLine, Text.beginsWith, Option.isSome_iff_exists, Text.after?_eq_some_iff]

/-- The line about a failed call is a line about a failure. -/
theorem isFailureLine_failureLine (role : Role) (kind : Option Kind) (failure : Failure) :
    isFailureLine (.error, failureLine role kind failure) := by
  have hrole : ∀ rest, "Panic or error in " ++ role.name ++ rest =
      "Panic or error in" ++ (" " ++ role.name ++ rest) := fun rest ↦ by
    rw [String.append_assoc, String.append_assoc]
    exact congrArg (· ++ _) (show "Panic or error in " = "Panic or error in" ++ " " from rfl)
  cases kind with
  | none =>
      show isFailureLine (.error, "Panic or error in " ++ role.name ++ " handler: " ++
        failure.message)
      rw [String.append_assoc, hrole]
      exact isFailureLine_of_append _
  | some kind =>
      show isFailureLine (.error, "Panic or error in " ++ role.name ++ " handler (type=" ++
        kind.name ++ "): " ++ failure.message)
      rw [String.append_assoc, String.append_assoc, String.append_assoc, hrole]
      exact isFailureLine_of_append _

/-- A contained call logs nothing but failures. -/
theorem plainLines_contain {σ α : Type} (engine : Engine σ) (role : Role) (kind : Option Kind)
    (fallback : α) (outcome : Outcome α) (host : σ) :
    plainLines ((engine.contain role kind fallback outcome).run host).journal.lines = [] := by
  rw [lines_contain]
  split
  · rfl
  · unfold offeredLines
    split
    · exact plainLines_of_failure (isFailureLine_failureLine _ _ _)
    · rfl

/-- The line about an event that is dropped is not about a failed call. -/
theorem isFailureLine_dropping (message : String) :
    isFailureLine (.error, s!"Dropping event: {message}") = false := by
  show isFailureLine (.error, "Dropping event: " ++ message) = false
  simp [isFailureLine, Text.beginsWith, Text.after?]

end Engine

variable {σ τ α : Type}

/-- Two engines agree in what they are and in what they do with their hosts. -/
structure Engine.Alike (like : Likeness σ τ) (engine : Engine σ) (engine' : Engine τ) : Prop where
  state_eq : engine.state = engine'.state
  queue_eq : engine.queue = engine'.queue
  processed_eq : engine.processed = engine'.processed
  log : ∀ level message, Engine.isFailureLine (level, message) = false →
    Act.Alike like Eq (engine.log level message) (engine'.log level message)
  admits : ∀ record, Act.Alike like Eq (engine.admits record) (engine'.admits record)
  deliver : ∀ record, Act.Alike like Eq (engine.deliver record) (engine'.deliver record)
  announce : ∀ old new, Act.Alike like Eq (engine.announce old new) (engine'.announce old new)

namespace Engine.Alike

variable {like : Likeness σ τ} {engine : Engine σ} {engine' : Engine τ}

/-- The same answer from engines that stay alike. -/
def Answer (like : Likeness σ τ) (answer : α × Engine σ) (answer' : α × Engine τ) : Prop :=
  answer.1 = answer'.1 ∧ Engine.Alike like answer.2 answer'.2

/-- Alike engines stay so when they are put into the same state. -/
theorem setState (h : Engine.Alike like engine engine') (state : Lifecycle) :
    Engine.Alike like { engine with state } { engine' with state } :=
  ⟨rfl, h.queue_eq, h.processed_eq, h.log, h.admits, h.deliver, h.announce⟩

/-- Alike engines stay so when they are given the same queue. -/
theorem setQueue (h : Engine.Alike like engine engine') (queue : Ring Record) :
    Engine.Alike like { engine with queue } { engine' with queue } :=
  ⟨h.state_eq, rfl, h.processed_eq, h.log, h.admits, h.deliver, h.announce⟩

/-- Alike engines stay so when they are given the same count. -/
theorem setProcessed (h : Engine.Alike like engine engine') (processed : Nat) :
    Engine.Alike like { engine with processed } { engine' with processed } :=
  ⟨h.state_eq, h.queue_eq, rfl, h.log, h.admits, h.deliver, h.announce⟩

/-- Alike engines have as many records queued. -/
theorem queueSize_eq (h : Engine.Alike like engine engine') :
    engine.queueSize = engine'.queueSize :=
  congrArg Ring.length h.queue_eq

/-- Alike engines answer the same and stay alike after a line that both of them log. -/
theorem log_pure {level : Level} {message : String} {next : Engine σ} {next' : Engine τ}
    (h : Engine.Alike like engine engine') (hline : isFailureLine (level, message) = false)
    (x : α) (hnext : Engine.Alike like next next') :
    Act.Alike like (Answer like)
      (do engine.log level message; return (x, next))
      (do engine'.log level message; return (x, next')) :=
  (h.log level message hline).bind_eq fun _ ↦ .pure ⟨rfl, hnext⟩

/-! ## Taking events in -/

/-- Alike engines refuse storage alike. -/
theorem refuseStorage (h : Engine.Alike like engine engine') (bytes : Nat) :
    Act.Alike like (Answer like) (engine.refuseStorage bytes) (engine'.refuseStorage bytes) :=
  h.log_pure (isFailureLine_dropping _) _ h

/-- Alike engines queue records alike. -/
theorem enqueue (h : Engine.Alike like engine engine') (allocator : Allocator) (record : Record) :
    Act.Alike like (Answer like) (engine.enqueue allocator record)
      (engine'.enqueue allocator record) := by
  have hset := h.setQueue (engine'.queue.push allocator.slots record).2
  -- The queues are equal, so both engines meet with the same result of the push.
  unfold Engine.enqueue
  simp only [h.queue_eq]
  split
  · exact hset.log_pure rfl _ hset
  · exact hset.log_pure rfl _ hset
  · exact hset.refuseStorage _

/-- Alike engines turn events away alike. -/
theorem turnAway (h : Engine.Alike like engine engine') :
    Act.Alike like (Answer like) engine.turnAway engine'.turnAway :=
  h.log_pure rfl _ h

/-- Alike engines take events in or refuse them alike. -/
theorem push (h : Engine.Alike like engine engine') (allocator : Allocator) (kind : Kind)
    (source : String) (payload : List UInt8) :
    Act.Alike like (Answer like) (engine.push allocator kind source payload)
      (engine'.push allocator kind source payload) := by
  by_cases hfull : engine.queue.isFull
  · rw [push_of_full hfull, push_of_full (h.queue_eq ▸ hfull), h.queueSize_eq]
    exact h.log_pure rfl _ h
  have hfull' : ¬ engine'.queue.isFull := h.queue_eq ▸ hfull
  cases hcopy : Record.copy allocator kind source payload with
  | error bytes =>
      rw [push_of_uncopied hfull hcopy, push_of_uncopied hfull' hcopy]
      exact h.refuseStorage bytes
  | ok record =>
      rw [push_of_copied hfull hcopy, push_of_copied hfull' hcopy]
      refine (h.admits record).bind_eq fun admitted ↦ ?_
      cases admitted with
      | true => exact h.enqueue allocator record
      | false => exact h.turnAway

/-! ## Dispatch -/

/-- Alike engines dispatch alike, and are alike afterwards. -/
theorem dispatch (h : Engine.Alike like engine engine') (record : Record) :
    Act.Alike like (Engine.Alike like) (engine.dispatch record) (engine'.dispatch record) := by
  refine (h.log _ _ rfl).bind_eq fun _ ↦ (h.deliver record).bind_eq fun _ ↦ .pure ?_
  rw [h.processed_eq]
  exact h.setProcessed _

/-- Alike engines are drained alike. -/
theorem drain (h : Engine.Alike like engine engine') (limit : Nat) :
    Act.Alike like (Answer like) (engine.drain limit) (engine'.drain limit) := by
  induction limit generalizing engine engine' with
  | zero => exact .pure ⟨rfl, h⟩
  | succ limit ih =>
      rcases hpop : engine.queue.pop with ⟨_ | record, queue⟩
      case none =>
          rw [drain_of_empty hpop, drain_of_empty (h.queue_eq ▸ hpop)]
          exact .pure ⟨rfl, h.setQueue queue⟩
      case some =>
          -- Equal queues pop the same record, and the engines stay alike after its dispatch.
          rw [drain_of_pop hpop, drain_of_pop (h.queue_eq ▸ hpop)]
          refine ((h.setQueue queue).dispatch record).bind fun next next' hnext ↦ ?_
          exact (ih hnext).map fun x y hxy ↦ ⟨congrArg (· + 1) hxy.1, hxy.2⟩

/-- Alike engines carry out a single dispatch alike. -/
theorem process (h : Engine.Alike like engine engine') :
    Act.Alike like (Answer like) engine.process engine'.process := by
  by_cases hrunning : engine.state.isRunning
  · rw [process_of_running hrunning, process_of_running (h.state_eq ▸ hrunning)]
    exact (h.drain 1).bind fun x y hxy ↦ .pure ⟨congrArg (· != 0) hxy.1, hxy.2⟩
  · rw [process_of_not_running hrunning, process_of_not_running (h.state_eq ▸ hrunning)]
    exact h.log_pure rfl _ h

/-- Alike engines dispatch everything alike. -/
theorem processAll (h : Engine.Alike like engine engine') :
    Act.Alike like (Answer like) engine.processAll engine'.processAll := by
  by_cases hrunning : engine.state.isRunning
  · rw [processAll_of_running hrunning, processAll_of_running (h.state_eq ▸ hrunning),
      h.queueSize_eq]
    refine (h.drain engine'.queueSize).bind ?_
    rintro ⟨count, next⟩ ⟨_, next'⟩ ⟨rfl, hnext⟩
    by_cases hcount : count > 0
    · rw [if_pos hcount, if_pos hcount]
      exact hnext.log_pure rfl _ hnext
    · rw [if_neg hcount, if_neg hcount]
      exact .pure ⟨rfl, hnext⟩
  · rw [processAll_of_not_running hrunning, processAll_of_not_running (h.state_eq ▸ hrunning)]
    exact h.log_pure rfl _ h

/-! ## Clearing and changes of state -/

/-- Alike engines are cleared alike. -/
theorem clear (h : Engine.Alike like engine engine') :
    Act.Alike like (Answer like) engine.clear engine'.clear := by
  have hset := h.setQueue engine'.queue.clear.2
  unfold Engine.clear
  simp only [h.queue_eq]
  split
  · exact hset.log_pure rfl _ hset
  · exact .pure ⟨rfl, hset⟩

/-- Alike engines move to a state alike. -/
theorem moveTo (h : Engine.Alike like engine engine') (new : Lifecycle) :
    Act.Alike like (Engine.Alike like) (engine.moveTo new) (engine'.moveTo new) := by
  unfold Engine.moveTo
  rw [h.state_eq]
  split
  · exact .pure h
  · refine (h.log _ _ rfl).bind_eq fun _ ↦ ?_
    exact ((h.setState new).announce _ _).bind_eq fun _ ↦ .pure (h.setState new)

/-! ## Every operation and every run -/

/-- Alike engines answer every operation in the same way and stay alike. -/
theorem apply (h : Engine.Alike like engine engine') (op : Op) :
    Act.Alike like (Answer like) (engine.apply op) (engine'.apply op) := by
  cases op with
  | push allocator kind source payload =>
      rw [apply_push, apply_push]
      exact (h.push allocator kind source payload).map fun x y hxy ↦
        ⟨congrArg Reply.ofPush hxy.1, hxy.2⟩
  | process =>
      rw [apply_process, apply_process]
      exact h.process.map fun x y hxy ↦ ⟨congrArg Reply.flag hxy.1, hxy.2⟩
  | processAll =>
      rw [apply_processAll, apply_processAll]
      exact h.processAll.map fun x y hxy ↦ ⟨congrArg Reply.count hxy.1, hxy.2⟩
  | clear =>
      rw [apply_clear, apply_clear]
      exact h.clear.map fun x y hxy ↦ ⟨congrArg Reply.count hxy.1, hxy.2⟩
  | start =>
      rw [apply_start, apply_start]
      exact (h.moveTo .running).map fun _ _ hxy ↦ ⟨rfl, hxy⟩
  | stop =>
      rw [apply_stop, apply_stop]
      exact (h.moveTo .stopped).map fun _ _ hxy ↦ ⟨rfl, hxy⟩

end Engine.Alike

/-- Two steps carry out the same operation on alike engines in alike ways. -/
structure Step.Alike (like : Likeness σ τ) (step : Step σ) (step' : Step τ) : Prop where
  op_eq : step.op = step'.op
  before : Engine.Alike like step.before step'.before
  reply_eq : step.reply = step'.reply
  journal : like.journals step.journal step'.journal
  after : Engine.Alike like step.after step'.after
  host : like.hosts step.host step'.host

/-- What is shown in alike steps is alike as a whole. -/
theorem Step.Alike.journals {like : Likeness σ τ} {steps : List (Step σ)} {steps' : List (Step τ)}
    (h : List.Forall₂ (Step.Alike like) steps steps') :
    like.journals (steps.flatMap Step.journal) (steps'.flatMap Step.journal) := by
  induction h with
  | nil => exact like.journals_nil
  | cons hstep _ ih => exact like.journals_append hstep.journal ih

namespace Engine.Alike

variable {like : Likeness σ τ} {engine : Engine σ} {engine' : Engine τ} {host : σ} {host' : τ}

/-- One operation on alike engines and hosts is answered and observed alike. -/
theorem step (h : Engine.Alike like engine engine') (hhost : like.hosts host host') (op : Op) :
    Step.Alike like (engine.step op host) (engine'.step op host') := by
  have hdone := h.apply op host host' hhost
  exact ⟨rfl, h, hdone.value.1, hdone.journal, hdone.value.2, hdone.host⟩

/-- Alike engines on alike hosts go through alike steps. -/
theorem steps (h : Engine.Alike like engine engine') (hhost : like.hosts host host')
    (ops : List Op) :
    List.Forall₂ (Step.Alike like) (engine.steps ops host) (engine'.steps ops host') := by
  induction ops generalizing engine engine' host host' with
  | nil => exact .nil
  | cons op ops ih =>
      have hstep := h.step hhost op
      exact .cons hstep (ih hstep.after hstep.host)

end Engine.Alike

end EventStaging
