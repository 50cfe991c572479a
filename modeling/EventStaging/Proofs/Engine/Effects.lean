import EventStaging.Engine.Run
import EventStaging.Proofs.Act.Journal
import EventStaging.Proofs.Ring.Contents

/-!
# What the operations of an engine do

For each operation, what it answers, the engine that it leaves, and which kinds of observations it
makes on the way. `Engine.push_cases` lists the three ways in which a push can end,
`Engine.only_apply` says which callbacks have a part in an operation, and `Engine.exists_eq_apply`
what no operation changes. `Engine.lines_retire` says what an engine logs when it is taken down.
-/

namespace EventStaging

/-- The value of a call, or `fallback` if it ended in a failure. -/
def Outcome.getD {α : Type} (outcome : Outcome α) (fallback : α) : α :=
  match outcome with
  | .returned value => value
  | .failed _ | .panicked _ => fallback

/-- The state that an operation asks for, if it is about the state of an engine. -/
def Op.target? : Op → Option Lifecycle
  | .start => some .running
  | .stop => some .stopped
  | .push .. | .process | .processAll | .clear => none

/-- A push is answered by a refusal exactly if it failed with that error. -/
theorem Reply.ofPush_eq_refused_iff {result : Except EngineError Unit} {error : EngineError} :
    Reply.ofPush result = .refused error ↔ result = .error error := by
  cases result <;> simp [Reply.ofPush]

/-- A push is answered as accepted exactly if it did not fail. -/
theorem Reply.ofPush_eq_accepted_iff {result : Except EngineError Unit} :
    Reply.ofPush result = .accepted ↔ result = .ok () := by
  cases result <;> simp [Reply.ofPush]

/-- A sink is given its line, and may have trace events reported. -/
theorem Act.only_write {σ : Type} {allowed : Observation → Bool} (sink : Sink σ) (engine : String)
    {level : Level} {message : String} (hline : ∀ outcome, allowed (.logged level message outcome))
    (htrace : ∀ event, allowed (.traced event)) :
    (Act.write sink engine level message).Only allowed := by
  cases sink with
  | host line =>
      refine Only.bind (Only.call fun _ ↦ hline _) fun panic ↦ ?_
      split
      · exact Only.observe (htrace _)
      · exact Only.pure ()
  | forward label =>
      exact Only.bind (Only.observe (hline _)) fun _ ↦ Only.observe (htrace _)

/-- A sink is offered its line once. -/
theorem Act.lines_write {σ : Type} (sink : Sink σ) (engine : String) (level : Level)
    (message : String) (host : σ) :
    ((Act.write sink engine level message).run host).journal.lines = [(level, message)] := by
  cases sink with
  | host line =>
      unfold write
      rw [journal_bind, Journal.lines_append]
      split <;> rfl
  | forward label => rfl

namespace Engine

open Act (Only Quiet)

variable {σ α : Type} {engine : Engine σ} {allocator : Allocator} {kind : Kind} {source : String}
  {payload : List UInt8} {record : Record}

/-! ## Reports and contained calls -/

/-- Logging shows the line, if it is offered at all, and the trace event of a sink that panics. -/
theorem only_log {allowed : Observation → Bool} (engine : Engine σ) {level : Level}
    {message : String} (hline : ∀ outcome, allowed (.logged level message outcome))
    (htrace : ∀ event, allowed (.traced event)) : Only allowed (engine.log level message) := by
  unfold log
  split
  · exact Act.only_write _ _ hline htrace
  · exact Only.pure ()

/-- Logging calls none of the other callbacks. -/
theorem quiet_log (engine : Engine σ) (level : Level) (message : String) :
    (engine.log level message).Quiet :=
  engine.only_log (fun _ ↦ rfl) fun _ ↦ rfl

/-- The lines that an engine offers to its sink when it logs one. -/
def offeredLines (engine : Engine σ) (line : Level × String) : List (Level × String) :=
  if engine.logging && engine.callbacks.sink.isSome then [line] else []

/-- Which lines are offered does not depend on the host, nor on how the sink ends. -/
theorem lines_log (engine : Engine σ) (level : Level) (message : String) (host : σ) :
    ((engine.log level message).run host).journal.lines = engine.offeredLines (level, message) := by
  unfold log offeredLines
  cases engine.logging with
  | false => rfl
  | true =>
      cases engine.callbacks.sink with
      | none => rfl
      | some sink => exact Act.lines_write sink engine.name level message host

/-- Reporting a failure calls no callback but the sink. -/
theorem quiet_report (engine : Engine σ) (role : Role) (kind : Option Kind) (failure : Failure) :
    (engine.report role kind failure).Quiet :=
  Only.bind (Only.observe rfl) fun _ ↦ engine.quiet_log _ _

/-- Containing the end of a call makes reports at most. -/
theorem quiet_contain (engine : Engine σ) (role : Role) (kind : Option Kind) (fallback : α)
    (outcome : Outcome α) : (engine.contain role kind fallback outcome).Quiet := by
  unfold contain
  split
  · exact Only.pure _
  · exact Only.bind (engine.quiet_report _ _ _) fun _ ↦ Only.pure _

/-- A contained call has its own value, or the value to fall back on. -/
@[simp] theorem value_contain (engine : Engine σ) (role : Role) (kind : Option Kind) (fallback : α)
    (outcome : Outcome α) (host : σ) :
    ((engine.contain role kind fallback outcome).run host).value = outcome.getD fallback := by
  cases outcome <;> rfl

/-- A delivery is a contained call of the handler, if there is one. -/
theorem deliver_eq (engine : Engine σ) (record : Record) :
    engine.deliver record = engine.callbacks.handler.elim (pure ()) fun handler ↦
      Act.deliver handler record >>= engine.contain .event (some record.kind) () := by
  unfold deliver
  cases engine.callbacks.handler <;> rfl

/-- A contained call has its failure logged, if it ended in one. -/
theorem lines_contain (engine : Engine σ) (role : Role) (kind : Option Kind) (fallback : α)
    (outcome : Outcome α) (host : σ) :
    ((engine.contain role kind fallback outcome).run host).journal.lines =
      match outcome.guarded with
      | .ok _ => []
      | .error failure => engine.offeredLines (.error, failureLine role kind failure) := by
  unfold contain
  cases outcome.guarded with
  | ok value => rfl
  | error failure =>
      show (((engine.report role kind failure).run host).journal ++ []).lines = _
      rw [List.append_nil, report, Act.journal_bind, Journal.lines_append, lines_log]
      rfl

/-- A delivery calls the handler and makes reports, and nothing else. -/
theorem only_deliver (engine : Engine σ) (record : Record) :
    Only Observation.isDispatch (engine.deliver record) := by
  rw [deliver_eq]
  cases engine.callbacks.handler with
  | none => exact Only.pure ()
  | some handler =>
      exact Only.bind (Only.call fun _ ↦ rfl) fun outcome ↦
        (engine.quiet_contain _ _ _ outcome).isDispatch

/-- The handler is given the record once, if there is a handler. -/
theorem deliveries_deliver (engine : Engine σ) (record : Record) (host : σ) :
    ((engine.deliver record).run host).journal.deliveries =
      if engine.callbacks.handler.isSome then [record] else [] := by
  rw [deliver_eq]
  cases engine.callbacks.handler with
  | none => rfl
  | some handler =>
      rw [Option.elim_some, Act.journal_bind, Journal.deliveries_append,
        (engine.quiet_contain _ _ _ _ _).deliveries_eq]
      rfl

/-- An announcement is a contained call of the observer, if there is one. -/
theorem announce_eq (engine : Engine σ) (old new : Lifecycle) :
    engine.announce old new = engine.callbacks.observer.elim (pure ()) fun observer ↦
      Act.notify observer old new >>= engine.contain .stateChange none () := by
  unfold announce
  cases engine.callbacks.observer <;> rfl

/-- An announcement calls the observer and makes reports, and nothing else. -/
theorem only_announce (engine : Engine σ) (old new : Lifecycle) :
    Only Observation.isMove (engine.announce old new) := by
  rw [announce_eq]
  cases engine.callbacks.observer with
  | none => exact Only.pure ()
  | some observer =>
      refine Only.bind (Only.bind (Only.call fun _ ↦ rfl) fun _ ↦ Only.pure _) fun outcome ↦ ?_
      exact (engine.quiet_contain _ _ _ outcome).isMove

/-! ## Taking events in -/

/-- A record is let in unless the contained call of the filter says no. Without a filter nothing is
asked. -/
theorem admits_eq (engine : Engine σ) (record : Record) :
    engine.admits record = engine.callbacks.filter.elim (pure true) fun filter ↦
      Act.offer filter record >>= engine.contain .filter (some record.kind) true := by
  unfold admits
  cases engine.callbacks.filter <;> rfl

/-- Deciding on a record calls the filter and makes reports, and nothing else. -/
theorem only_admits (engine : Engine σ) (record : Record) :
    Only Observation.isIntake (engine.admits record) := by
  rw [admits_eq]
  cases engine.callbacks.filter with
  | none => exact Only.pure true
  | some filter =>
      exact Only.bind (Only.call fun _ ↦ rfl) fun outcome ↦
        (engine.quiet_contain _ _ _ outcome).isIntake

/-- Only a filter that says so keeps a record out. -/
theorem value_admits_eq_false_iff (engine : Engine σ) (record : Record) (host : σ) :
    ((engine.admits record).run host).value = false ↔
      .returned false ∈ ((engine.admits record).run host).journal.verdicts := by
  rw [admits_eq]
  cases engine.callbacks.filter with
  | none => simp [Journal.verdicts]
  | some filter =>
      rw [Option.elim_some, Act.value_bind, Act.journal_bind, Journal.verdicts_append,
        value_contain, (engine.quiet_contain _ _ _ _ _).verdicts_eq, List.append_nil]
      show ((filter record host).1.getD true = false) ↔ _ ∈ [(filter record host).1]
      rw [List.mem_singleton]
      cases (filter record host).1 <;> simp [Outcome.getD, eq_comm]

/-- Turns an event away that the filter does not let in. -/
def turnAway (engine : Engine σ) : Act σ (Except EngineError Unit × Engine σ) := do
  engine.log .debug "Event filtered out"
  return (.ok (), engine)

/-- A refusal for want of storage is only reported. -/
theorem quiet_refuseStorage (engine : Engine σ) (bytes : Nat) :
    (engine.refuseStorage bytes).Quiet :=
  Only.bind (engine.quiet_log _ _) fun _ ↦ Only.pure _

/-- Queueing calls no callback but the sink. -/
theorem quiet_enqueue (engine : Engine σ) (allocator : Allocator) (record : Record) :
    (engine.enqueue allocator record).Quiet := by
  unfold enqueue
  simp only
  split
  · exact Only.bind (quiet_log _ _ _) fun _ ↦ Only.pure _
  · exact Only.bind (quiet_log _ _ _) fun _ ↦ Only.pure _
  · exact quiet_refuseStorage _ _

/-- A record that the queue takes is in it afterwards. -/
theorem value_enqueue_of_ok (hok : (engine.queue.push allocator.slots record).1 = .ok ())
    (host : σ) :
    ((engine.enqueue allocator record).run host).value =
      (.ok (), { engine with queue := (engine.queue.push allocator.slots record).2 }) := by
  unfold enqueue
  simp only
  rw [hok]
  rfl

/-- A record that the queue turns away leaves the engine as it was. -/
theorem value_enqueue_of_error {refusal : Ring.Refusal Record}
    (herror : (engine.queue.push allocator.slots record).1 = .error refusal) (host : σ) :
    ∃ error, ((engine.enqueue allocator record).run host).value = (.error error, engine) := by
  have hqueue := Ring.push_of_refused herror
  unfold enqueue
  simp only
  rw [herror, hqueue]
  cases refusal with
  | full item => exact ⟨_, rfl⟩
  | noStorage item bytes => exact ⟨_, rfl⟩

/-- A full queue refuses every event, before the payload is copied or the filter asked. -/
theorem push_of_full (hfull : engine.queue.isFull) :
    engine.push allocator kind source payload = (do
      engine.log .warn s!"Queue full ({engine.queueSize} items)"
      return (.error (.queueFull engine.queueSize), engine)) :=
  if_pos hfull

/-- An event whose payload cannot be copied is refused before the filter is asked. -/
theorem push_of_uncopied {bytes : Nat} (hfull : ¬ engine.queue.isFull)
    (hcopy : Record.copy allocator kind source payload = .error bytes) :
    engine.push allocator kind source payload = engine.refuseStorage bytes := by
  rw [push, if_neg hfull, hcopy]

/-- Once there is a record, the filter decides between queueing it and turning it away. -/
theorem push_of_copied (hfull : ¬ engine.queue.isFull)
    (hcopy : Record.copy allocator kind source payload = .ok record) :
    engine.push allocator kind source payload = (do
      if ← engine.admits record then engine.enqueue allocator record else engine.turnAway) := by
  rw [push, if_neg hfull, hcopy]
  show (engine.admits record >>= _) = engine.admits record >>= _
  congr 1
  funext admitted
  cases admitted <;> rfl

/-- A push may ask the filter. It calls neither the handler nor the observer. -/
theorem only_push (engine : Engine σ) (allocator : Allocator) (kind : Kind) (source : String)
    (payload : List UInt8) :
    Only Observation.isIntake (engine.push allocator kind source payload) := by
  by_cases hfull : engine.queue.isFull
  · rw [push_of_full hfull]
    exact Only.bind (engine.quiet_log _ _).isIntake fun _ ↦ Only.pure _
  cases hcopy : Record.copy allocator kind source payload with
  | error bytes =>
      rw [push_of_uncopied hfull hcopy]
      exact (engine.quiet_refuseStorage bytes).isIntake
  | ok record =>
      rw [push_of_copied hfull hcopy]
      refine Only.bind (engine.only_admits record) fun admitted ↦ ?_
      split
      · exact (engine.quiet_enqueue allocator record).isIntake
      · exact Only.bind (engine.quiet_log _ _).isIntake fun _ ↦ Only.pure _

/-- A push is refused, or accepted without being queued because the filter says so, or accepted and
queued. Only in the last case is the engine another one afterwards. -/
theorem push_cases (engine : Engine σ) (allocator : Allocator) (kind : Kind) (source : String)
    (payload : List UInt8) (host : σ) :
    let done := (engine.push allocator kind source payload).run host
    let (result, queue) := engine.queue.push allocator.slots ⟨kind, source, payload⟩
    (∃ error, done.value = (.error error, engine)) ∨
      (done.value = (.ok (), engine) ∧ .returned false ∈ done.journal.verdicts) ∨
      (result = .ok () ∧ done.value = (.ok (), { engine with queue }) ∧
        .returned false ∉ done.journal.verdicts) := by
  intro done
  by_cases hfull : engine.queue.isFull
  · exact .inl ⟨.queueFull engine.queueSize, by simp only [done, push_of_full hfull]; rfl⟩
  cases hcopy : Record.copy allocator kind source payload with
  | error bytes =>
      exact .inl ⟨.allocation bytes, by simp only [done, push_of_uncopied hfull hcopy]; rfl⟩
  | ok record =>
      obtain rfl := Record.eq_of_copy hcopy
      have hverdict := engine.value_admits_eq_false_iff ⟨kind, source, payload⟩ host
      -- All verdicts are in the journal of `admits`, since what follows only reports.
      simp only [done, push_of_copied hfull hcopy, Act.value_bind, Act.journal_bind,
        Journal.verdicts_append]
      cases hadmits : ((engine.admits ⟨kind, source, payload⟩).run host).value with
      | false =>
          refine .inr (.inl ⟨rfl, List.mem_append_left _ ?_⟩)
          exact hverdict.mp hadmits
      | true =>
          have hnot : .returned false ∉
              ((engine.admits ⟨kind, source, payload⟩).run host).journal.verdicts :=
            fun hmem ↦ Bool.noConfusion (hadmits.symm.trans (hverdict.mpr hmem))
          simp only [if_true, ((engine.quiet_enqueue allocator _) _).verdicts_eq, List.append_nil]
          cases hresult : (engine.queue.push allocator.slots ⟨kind, source, payload⟩).1 with
          | error refusal => exact .inl (value_enqueue_of_error hresult _)
          | ok _ => exact .inr (.inr ⟨rfl, value_enqueue_of_ok hresult _, hnot⟩)

/-! ## Dispatch -/

/-- Dispatching a record calls the handler and makes reports, and nothing else. -/
theorem only_dispatch (engine : Engine σ) (record : Record) :
    Only Observation.isDispatch (engine.dispatch record) :=
  Only.bind (engine.quiet_log _ _).isDispatch fun _ ↦
    Only.bind (engine.only_deliver record) fun _ ↦ Only.pure _

/-- A dispatched record is given to the handler once, if there is a handler. -/
theorem deliveries_dispatch (engine : Engine σ) (record : Record) (host : σ) :
    ((engine.dispatch record).run host).journal.deliveries =
      if engine.callbacks.handler.isSome then [record] else [] := by
  unfold dispatch
  rw [Act.journal_bind, Journal.deliveries_append, (engine.quiet_log _ _ _).deliveries_eq,
    Act.journal_bind, Journal.deliveries_append, deliveries_deliver]
  simp [Journal.deliveries]

/-- There is nothing to dispatch in an empty queue. -/
theorem dispatchNext_of_empty {queue : Ring Record} (hpop : engine.queue.pop = (none, queue)) :
    engine.dispatchNext = pure (false, { engine with queue }) := by
  unfold dispatchNext
  rw [hpop]

/-- The record that leaves the queue is the one that is dispatched. -/
theorem dispatchNext_of_pop {queue : Ring Record}
    (hpop : engine.queue.pop = (some record, queue)) :
    engine.dispatchNext = (do return (true, ← { engine with queue }.dispatch record)) := by
  unfold dispatchNext
  rw [hpop]

/-- Draining an empty queue ends at once. -/
theorem drain_of_empty {queue : Ring Record} (hpop : engine.queue.pop = (none, queue))
    (limit : Nat) : engine.drain (limit + 1) = pure (0, { engine with queue }) := by
  rw [drain, dispatchNext_of_empty hpop]
  rfl

/-- Draining dispatches the record that leaves the queue and goes on with the engine after that. -/
theorem drain_of_pop {queue : Ring Record} (hpop : engine.queue.pop = (some record, queue))
    (limit : Nat) :
    engine.drain (limit + 1) = (do
      let next ← { engine with queue }.dispatch record
      Prod.map (· + 1) id <$> next.drain limit) := by
  rw [drain, dispatchNext_of_pop hpop, bind_assoc]
  rfl

/-- Draining takes records out of the queue in turn, counts them, and gives them to the handler. -/
theorem drain_run (limit : Nat) (engine : Engine σ) (host : σ) :
    let done := (engine.drain limit).run host
    let taken := engine.queue.popUpTo limit
    done.value = (taken.1.length, { engine with
        queue := taken.2, processed := engine.processed + taken.1.length }) ∧
      done.journal.deliveries = if engine.callbacks.handler.isSome then taken.1 else [] := by
  induction limit generalizing engine host with
  | zero => exact ⟨rfl, by simp [drain, Ring.popUpTo, Journal.deliveries]⟩
  | succ limit ih =>
      rcases hpop : engine.queue.pop with ⟨_ | record, queue⟩
      case none =>
          simp only [drain_of_empty hpop, Ring.popUpTo, hpop]
          exact ⟨rfl, by simp [Journal.deliveries]⟩
      case some =>
          obtain ⟨hvalue, hdeliveries⟩ :=
            ih { engine with queue, processed := engine.processed + 1 }
              (({ engine with queue }.dispatch record).run host).host
          have hfirst := deliveries_dispatch { engine with queue } record host
          simp only [drain_of_pop hpop, Ring.popUpTo, hpop]
          -- The first record is delivered and counted before the rest is drained.
          constructor
          · show Prod.map (· + 1) id _ = _
            refine (congrArg (Prod.map (· + 1) id) hvalue).trans ?_
            simp [Nat.add_assoc, Nat.add_comm]
          · rw [Act.journal_bind, Journal.deliveries_append, hfirst]
            refine (congrArg (_ ++ ·) hdeliveries).trans ?_
            cases engine.callbacks.handler <;> rfl

/-- Draining calls the handler and makes reports, and nothing else. -/
theorem only_drain (limit : Nat) (engine : Engine σ) :
    Only Observation.isDispatch (engine.drain limit) := by
  induction limit generalizing engine with
  | zero => exact Only.pure _
  | succ limit ih =>
      rcases hpop : engine.queue.pop with ⟨_ | record, queue⟩
      case none =>
          rw [drain_of_empty hpop]
          exact Only.pure _
      case some =>
          rw [drain_of_pop hpop]
          exact Only.bind (only_dispatch _ record) fun next host ↦ ih next host

/-- An engine that is not running dispatches nothing. -/
theorem process_of_not_running (hrunning : ¬ engine.state.isRunning) :
    engine.process = (do
      engine.warnNotRunning
      return (false, engine)) :=
  if_neg hrunning

/-- An engine that is not running warns instead of dispatching. -/
theorem processAll_of_not_running (hrunning : ¬ engine.state.isRunning) :
    engine.processAll = (do
      engine.warnNotRunning
      return (0, engine)) :=
  if_neg hrunning

/-- Processing one record is draining with a limit of one. -/
theorem process_of_running (hrunning : engine.state.isRunning) :
    engine.process = (do
      let (count, next) ← engine.drain 1
      return (count != 0, next)) := by
  rw [process, if_pos hrunning]
  rcases hpop : engine.queue.pop with ⟨_ | record, queue⟩
  case none =>
      rw [dispatchNext_of_empty hpop, drain_of_empty hpop]
      rfl
  case some =>
      rw [dispatchNext_of_pop hpop, drain_of_pop hpop, bind_assoc]
      rfl

/-- A running engine drains its queue and logs how many records that were, if there were any. -/
theorem processAll_of_running (hrunning : engine.state.isRunning) :
    engine.processAll = (do
      let drained ← engine.drain engine.queueSize
      if drained.1 > 0 then drained.2.log .info s!"Processed {drained.1} events"
      return drained) :=
  if_pos hrunning

/-- The warning of an engine that is not running is a report. -/
theorem quiet_warnNotRunning (engine : Engine σ) : engine.warnNotRunning.Quiet :=
  engine.quiet_log _ _

/-- A running engine dispatches the oldest record, if there is one. -/
theorem process_run (hrunning : engine.state.isRunning) (host : σ) :
    let done := engine.process.run host
    let taken := engine.queue.popUpTo 1
    done.value = (taken.1.length != 0, { engine with
        queue := taken.2, processed := engine.processed + taken.1.length }) ∧
      done.journal.deliveries = if engine.callbacks.handler.isSome then taken.1 else [] := by
  obtain ⟨hvalue, hdeliveries⟩ := engine.drain_run 1 host
  simp only [process_of_running hrunning, Act.value_bind, Act.journal_bind, hvalue,
    Journal.deliveries_append, hdeliveries]
  exact ⟨rfl, List.append_nil _⟩

/-- A running engine dispatches as many records as are queued. -/
theorem processAll_run (hrunning : engine.state.isRunning) (host : σ) :
    let done := engine.processAll.run host
    let taken := engine.queue.popUpTo engine.queueSize
    done.value = (taken.1.length, { engine with
        queue := taken.2, processed := engine.processed + taken.1.length }) ∧
      done.journal.deliveries = if engine.callbacks.handler.isSome then taken.1 else [] := by
  obtain ⟨hvalue, hdeliveries⟩ := engine.drain_run engine.queueSize host
  simp only [processAll_of_running hrunning, Act.value_bind, Act.journal_bind, hvalue,
    Journal.deliveries_append, hdeliveries]
  split
  · rw [Act.value_bind, Act.journal_bind, Journal.deliveries_append,
      (quiet_log _ _ _ _).deliveries_eq]
    exact ⟨rfl, List.append_nil _⟩
  · exact ⟨rfl, List.append_nil _⟩

/-- Outside the running state a single dispatch changes nothing and calls no handler. -/
theorem process_run_of_not_running (hrunning : ¬ engine.state.isRunning) (host : σ) :
    (engine.process.run host).value = (false, engine) ∧
      (engine.process.run host).journal.deliveries = [] := by
  rw [process_of_not_running hrunning]
  exact ⟨rfl, ((engine.quiet_warnNotRunning.bind fun _ ↦ Only.pure _) host).deliveries_eq⟩

/-- Outside the running state dispatching everything changes nothing and calls no handler. -/
theorem processAll_run_of_not_running (hrunning : ¬ engine.state.isRunning) (host : σ) :
    (engine.processAll.run host).value = (0, engine) ∧
      (engine.processAll.run host).journal.deliveries = [] := by
  rw [processAll_of_not_running hrunning]
  exact ⟨rfl, ((engine.quiet_warnNotRunning.bind fun _ ↦ Only.pure _) host).deliveries_eq⟩

/-! ## Clearing and changes of state -/

/-- Clearing answers how many records were dropped, and changes nothing but the queue. -/
theorem value_clear (engine : Engine σ) (host : σ) :
    (engine.clear.run host).value =
      (engine.queue.clear.1, { engine with queue := engine.queue.clear.2 }) := by
  unfold clear
  simp only
  split <;> rfl

/-- Clearing calls no callback but the sink. -/
theorem quiet_clear (engine : Engine σ) : engine.clear.Quiet := by
  unfold clear
  simp only
  split
  · exact Only.bind (quiet_log _ _ _) fun _ ↦ Only.pure _
  · exact Only.pure _

/-- A change of state changes nothing but the state. -/
theorem value_moveTo (engine : Engine σ) (new : Lifecycle) (host : σ) :
    ((engine.moveTo new).run host).value = { engine with state := new } := by
  unfold moveTo
  split
  · rename_i hstate
    subst hstate
    rfl
  · rfl

/-- A change of state calls the observer and makes reports, and nothing else. -/
theorem only_moveTo (engine : Engine σ) (new : Lifecycle) :
    Only Observation.isMove (engine.moveTo new) := by
  unfold moveTo
  split
  · exact Only.pure _
  · exact Only.bind (engine.quiet_log _ _).isMove fun _ ↦
      Only.bind (only_announce _ _ _) fun _ ↦ Only.pure _

/-! ## Every operation -/

/-- As an operation, a push is answered by what became of it. The other operations likewise are
carried out by the functions of their names. -/
theorem apply_push (engine : Engine σ) (allocator : Allocator) (kind : Kind) (source : String)
    (payload : List UInt8) :
    engine.apply (.push allocator kind source payload) =
      Prod.map Reply.ofPush id <$> engine.push allocator kind source payload := by
  rw [← bind_pure_comp]
  rfl

theorem apply_process (engine : Engine σ) :
    engine.apply .process = Prod.map Reply.flag id <$> engine.process := by
  rw [← bind_pure_comp]
  rfl

theorem apply_processAll (engine : Engine σ) :
    engine.apply .processAll = Prod.map Reply.count id <$> engine.processAll := by
  rw [← bind_pure_comp]
  rfl

theorem apply_clear (engine : Engine σ) :
    engine.apply .clear = Prod.map Reply.count id <$> engine.clear := by
  rw [← bind_pure_comp]
  rfl

/-- Starting is moving to the running state. -/
theorem apply_start (engine : Engine σ) :
    engine.apply .start = (Reply.done, ·) <$> engine.moveTo .running := by
  rw [← bind_pure_comp]
  rfl

/-- Stopping is moving to the stopped state. -/
theorem apply_stop (engine : Engine σ) :
    engine.apply .stop = (Reply.done, ·) <$> engine.moveTo .stopped := by
  rw [← bind_pure_comp]
  rfl

/-- What may be observed during an operation beside reports: a push asks the filter, dispatch calls
the handler, and the observer is told of changes of state. -/
def allows : Op → Observation → Bool
  | .push .. => Observation.isIntake
  | .process | .processAll => Observation.isDispatch
  | .clear => Observation.isReport
  | .start | .stop => Observation.isMove

/-- A single dispatch has a part for the handler only. -/
theorem only_process (engine : Engine σ) : Only Observation.isDispatch engine.process := by
  by_cases hrunning : engine.state.isRunning
  · rw [process_of_running hrunning]
    exact Only.bind (engine.only_drain 1) fun _ ↦ Only.pure _
  · rw [process_of_not_running hrunning]
    exact Only.bind engine.quiet_warnNotRunning.isDispatch fun _ ↦ Only.pure _

/-- Dispatching everything has a part for the handler only. -/
theorem only_processAll (engine : Engine σ) : Only Observation.isDispatch engine.processAll := by
  by_cases hrunning : engine.state.isRunning
  · rw [processAll_of_running hrunning]
    refine Only.bind (engine.only_drain engine.queueSize) fun drained ↦ ?_
    split
    · exact Only.bind (quiet_log _ _ _).isDispatch fun _ ↦ Only.pure _
    · exact Only.pure _
  · rw [processAll_of_not_running hrunning]
    exact Only.bind engine.quiet_warnNotRunning.isDispatch fun _ ↦ Only.pure _

/-- No operation calls a callback that has no part in it. -/
theorem only_apply (engine : Engine σ) (op : Op) : Only (allows op) (engine.apply op) := by
  cases op with
  | push allocator kind source payload =>
      rw [apply_push]
      exact (engine.only_push allocator kind source payload).map _
  | process =>
      rw [apply_process]
      exact engine.only_process.map _
  | processAll =>
      rw [apply_processAll]
      exact engine.only_processAll.map _
  | clear =>
      rw [apply_clear]
      exact engine.quiet_clear.map _
  | start =>
      rw [apply_start]
      exact (engine.only_moveTo .running).map _
  | stop =>
      rw [apply_stop]
      exact (engine.only_moveTo .stopped).map _

/-- An operation moves an engine to the state that it asks for, and else changes its queue and its
counter only. The bound of the queue never changes. -/
theorem exists_eq_apply_target (engine : Engine σ) (op : Op) (host : σ) :
    ∃ queue processed, queue.bound = engine.queue.bound ∧
      ((engine.apply op).run host).value.2 =
        { engine with state := op.target?.getD engine.state, queue, processed } := by
  cases op with
  | push allocator kind source payload =>
      have hcases := engine.push_cases allocator kind source payload host
      simp only at hcases
      show ∃ queue processed, _ ∧
        ((engine.push allocator kind source payload).run host).value.2 = _
      rcases hcases with ⟨error, hvalue⟩ | ⟨hvalue, -⟩ | ⟨-, hvalue, -⟩ <;> rw [hvalue]
      · exact ⟨_, _, rfl, rfl⟩
      · exact ⟨_, _, rfl, rfl⟩
      · exact ⟨_, _, Ring.bound_push _ _ _, rfl⟩
  | process =>
      show ∃ queue processed, _ ∧ (engine.process.run host).value.2 = _
      -- Dispatching pops from the queue, which keeps its bound; a halted engine changes nothing.
      by_cases hrunning : engine.state.isRunning
      · rw [(process_run hrunning host).1]
        exact ⟨_, _, Ring.bound_popUpTo _ _, rfl⟩
      · rw [(process_run_of_not_running hrunning host).1]
        exact ⟨_, _, rfl, rfl⟩
  | processAll =>
      show ∃ queue processed, _ ∧ (engine.processAll.run host).value.2 = _
      by_cases hrunning : engine.state.isRunning
      · rw [(processAll_run hrunning host).1]
        exact ⟨_, _, Ring.bound_popUpTo _ _, rfl⟩
      · rw [(processAll_run_of_not_running hrunning host).1]
        exact ⟨_, _, rfl, rfl⟩
  | clear =>
      show ∃ queue processed, _ ∧ (engine.clear.run host).value.2 = _
      rw [value_clear]
      exact ⟨_, _, Ring.bound_clear _, rfl⟩
  | start =>
      show ∃ queue processed, _ ∧ ((engine.moveTo .running).run host).value = _
      rw [value_moveTo]
      exact ⟨_, _, rfl, rfl⟩
  | stop =>
      show ∃ queue processed, _ ∧ ((engine.moveTo .stopped).run host).value = _
      rw [value_moveTo]
      exact ⟨_, _, rfl, rfl⟩

/-- An operation changes the state, the queue and the counter of an engine only, and never the bound
of its queue. -/
theorem exists_eq_apply (engine : Engine σ) (op : Op) (host : σ) :
    ∃ state queue processed, queue.bound = engine.queue.bound ∧
      ((engine.apply op).run host).value.2 = { engine with state, queue, processed } := by
  obtain ⟨queue, processed, hbound, hvalue⟩ := engine.exists_eq_apply_target op host
  exact ⟨_, queue, processed, hbound, hvalue⟩

/-- No operation changes the name of an engine. -/
theorem name_apply (engine : Engine σ) (op : Op) (host : σ) :
    ((engine.apply op).run host).value.2.name = engine.name := by
  obtain ⟨state, queue, processed, -, hvalue⟩ := engine.exists_eq_apply op host
  rw [hvalue]

/-- No operation changes how many records may be queued. -/
theorem capacity_apply (engine : Engine σ) (op : Op) (host : σ) :
    ((engine.apply op).run host).value.2.capacity = engine.capacity := by
  obtain ⟨state, queue, processed, hbound, hvalue⟩ := engine.exists_eq_apply op host
  rw [hvalue]
  exact hbound

/-- No operation changes whether an engine logs. -/
theorem logging_apply (engine : Engine σ) (op : Op) (host : σ) :
    ((engine.apply op).run host).value.2.logging = engine.logging := by
  obtain ⟨state, queue, processed, -, hvalue⟩ := engine.exists_eq_apply op host
  rw [hvalue]

/-- No operation changes the callbacks of an engine. -/
theorem callbacks_apply (engine : Engine σ) (op : Op) (host : σ) :
    ((engine.apply op).run host).value.2.callbacks = engine.callbacks := by
  obtain ⟨state, queue, processed, -, hvalue⟩ := engine.exists_eq_apply op host
  rw [hvalue]

/-- A run changes the state, the queue and the counter of an engine only, and never the bound of its
queue. -/
theorem exists_eq_run (engine : Engine σ) (ops : List Op) (host : σ) :
    ∃ state queue processed, queue.bound = engine.queue.bound ∧
      ((engine.run ops).run host).value.2 = { engine with state, queue, processed } := by
  induction ops generalizing engine host with
  | nil => exact ⟨_, _, _, rfl, rfl⟩
  | cons op ops ih =>
      obtain ⟨state, queue, processed, hbound, hvalue⟩ := engine.exists_eq_apply op host
      obtain ⟨state', queue', processed', hbound', hrest⟩ :=
        ih ((engine.apply op).run host).value.2 ((engine.apply op).run host).host
      rw [hvalue] at hbound' hrest
      refine ⟨state', queue', processed', hbound'.trans hbound, ?_⟩
      show ((((engine.apply op).run host).value.2.run ops).run _).value.2 = _
      rw [hvalue]
      exact hrest

/-! ## Making and taking down -/

/-- Creating an engine calls no callback but the sink. -/
theorem quiet_create (config : Config σ) : (create config).Quiet := by
  unfold create
  split
  · exact Only.pure _
  · exact Only.bind (Only.observe rfl) fun _ ↦ Only.bind (quiet_log _ _ _) fun _ ↦ Only.pure _

/-- The lines that an engine offers when it is taken down: that it goes, and how many records go with
it, if there are any. -/
def farewell (engine : Engine σ) : List (Level × String) :=
  engine.offeredLines (.info, s!"Destroying event processor '{engine.name}'") ++
    if engine.queueSize > 0 then
      engine.offeredLines (.info, s!"Cleared {engine.queueSize} events from queue")
    else []

/-- Clearing logs how many records it drops, if there are any. -/
theorem lines_clear (engine : Engine σ) (host : σ) :
    (engine.clear.run host).journal.lines =
      if engine.queueSize > 0 then
        engine.offeredLines (.info, s!"Cleared {engine.queueSize} events from queue")
      else [] := by
  show ((if engine.queue.clear.1 > 0 then _ else _ : Act σ _).run host).journal.lines = _
  rw [show engine.queue.clear.1 = engine.queueSize from rfl]
  split
  · rw [Act.journal_bind, Journal.lines_append, lines_log]
    exact List.append_nil _
  · rfl

/-- An engine that is taken down offers its farewell, whatever the host. -/
theorem lines_retire (engine : Engine σ) (host : σ) :
    (engine.retire.run host).journal.lines = engine.farewell := by
  unfold retire
  rw [Act.journal_bind, Journal.lines_append, lines_log, Act.journal_bind, Journal.lines_append,
    lines_clear]
  exact congrArg (_ ++ ·) (List.append_nil _)

/-- Taking an engine down calls neither its handler nor its filter nor its observer. -/
theorem quiet_retire (engine : Engine σ) : engine.retire.Quiet :=
  Only.bind (engine.quiet_log _ _) fun _ ↦ Only.bind engine.quiet_clear fun _ ↦ Only.pure _

end Engine

end EventStaging
