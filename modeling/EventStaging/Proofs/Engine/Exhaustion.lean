import EventStaging.Proofs.Engine.Gate

/-!
# Dispatching until nothing is queued

To dispatch every record is a loop: as long as the engine is running, take the oldest record out and
dispatch it. `Engine.Drains` is this loop without a bound on its rounds. Main statement
(`Engine.processAll_eq_repeated`): from a running engine the loop ends in exactly one way, with
nothing queued, and it does what asking for one record after the other does until there is none;
only the line that says how many records there were is added.
-/

namespace EventStaging

variable {σ α β : Type}

/-- What was done, followed by an action on its value. -/
def Done.bind (done : Done σ α) (next : α → Act σ β) : Done σ β :=
  let last := (next done.value).run done.host
  ⟨last.value, done.journal ++ last.journal, last.host⟩

/-- Nothing is taken out of an empty ring. -/
theorem Ring.Holds.pop_of_nil {ring : Ring α} (h : ring.Holds []) : ring.pop = (none, ring) := by
  rw [Ring.pop, if_pos (show ring.length = 0 from h.length_eq)]

/-- The oldest item comes out first, and the others are still held. -/
theorem Ring.Holds.exists_pop_of_cons {ring : Ring α} {item : α} {items : List α}
    (h : ring.Holds (item :: items)) : ∃ rest, ring.pop = (some item, rest) ∧ rest.Holds items :=
  ⟨ring.pop.2, Prod.ext h.pop.1 rfl, h.pop.2⟩

namespace Engine

variable {engine : Engine σ} {items : List Record} {host : σ}

/-- What the loop does: it goes on while the engine is running and something is queued, and counts
its rounds. -/
inductive Drains : Engine σ → σ → Done σ (Nat × Engine σ) → Prop where
  | halted {engine : Engine σ} {host : σ} :
      engine.state ≠ .running → Drains engine host ⟨(0, engine), [], host⟩
  | empty {engine : Engine σ} {host : σ} {queue : Ring Record} :
      engine.state = .running → engine.queue.pop = (none, queue) →
        Drains engine host ⟨(0, { engine with queue }), [], host⟩
  | next {engine : Engine σ} {host : σ} {record : Record} {queue : Ring Record}
      {done : Done σ (Engine σ)} {rest : Done σ (Nat × Engine σ)} :
      engine.state = .running → engine.queue.pop = (some record, queue) →
        ({ engine with queue }.dispatch record).run host = done →
        Drains done.value done.host rest →
        Drains engine host ⟨rest.value.map (· + 1) id, done.journal ++ rest.journal, rest.host⟩

/-- The loop can end in one way only. -/
theorem Drains.unique {one other : Done σ (Nat × Engine σ)} (h : Drains engine host one)
    (h' : Drains engine host other) : one = other := by
  -- At each pass the state and the head of the queue leave one rule that applies.
  induction h generalizing other with
  | halted hstate =>
      cases h' with
      | halted => rfl
      | empty hrunning => exact absurd hrunning hstate
      | next hrunning => exact absurd hrunning hstate
  | empty hrunning hpop =>
      cases h' with
      | halted hstate => exact absurd hrunning hstate
      | empty _ hpop' =>
          cases hpop.symm.trans hpop'
          rfl
      | next _ hpop' => cases hpop.symm.trans hpop'
  | next hrunning hpop hdone _ ih =>
      cases h' with
      | halted hstate => exact absurd hrunning hstate
      | empty _ hpop' => cases hpop.symm.trans hpop'
      | next _ hpop' hdone' hrest' =>
          cases hpop.symm.trans hpop'
          cases hdone.symm.trans hdone'
          rw [ih hrest']

/-- The loop ends after as many rounds as there are records. -/
theorem drains_drain (hrunning : engine.state = .running) (h : engine.queue.Holds items)
    (host : σ) : Drains engine host ((engine.drain items.length).run host) := by
  induction items generalizing engine host with
  | nil => exact .empty hrunning h.pop_of_nil
  | cons record items ih =>
      obtain ⟨queue, hpop, hrest⟩ := h.exists_pop_of_cons
      rw [List.length_cons, drain_of_pop hpop]
      let next : Engine σ := { engine with queue, processed := engine.processed + 1 }
      have hnext : next.state = .running := hrunning
      exact .next hrunning hpop rfl (ih hnext hrest _)

/-- Asking for one record after the other does what the loop does. -/
theorem run_process_eq_drain (hrunning : engine.state.isRunning) (h : engine.queue.Holds items)
    (host : σ) :
    (engine.run (List.replicate (items.length + 1) .process)).run host =
      ((engine.drain items.length).run host).bind fun drained ↦
        pure (List.replicate items.length (.flag true) ++ [.flag false], drained.2) := by
  induction items generalizing engine host with
  | nil =>
      show (engine.run [.process]).run host = _
      rw [run, apply_process, process, if_pos hrunning, dispatchNext_of_empty h.pop_of_nil]
      rfl
  | cons record items ih =>
      obtain ⟨queue, hpop, hrest⟩ := h.exists_pop_of_cons
      let next : Engine σ := { engine with queue, processed := engine.processed + 1 }
      let done := ({ engine with queue }.dispatch record).run host
      have hrunning' : next.state.isRunning := hrunning
      have hnext := ih hrunning' hrest done.host
      rw [List.length_cons, drain_of_pop hpop, List.replicate_succ, run, apply_process, process,
        if_pos hrunning, dispatchNext_of_pop hpop]
      -- Both begin with the dispatch of the first record.
      let others := (next.run (List.replicate (items.length + 1) .process)).run done.host
      show (⟨(.flag true :: others.value.1, others.value.2), done.journal ++ [] ++ others.journal,
        others.host⟩ : Done σ (List Reply × Engine σ)) = _
      rw [show others = _ from hnext, List.append_nil]
      simp only [Done.bind, Act.run_pure, List.append_nil]
      rfl

/-- Logs how many records were dispatched, if there were any. -/
def summarize (drained : Nat × Engine σ) : Act σ (Nat × Engine σ) := do
  if drained.1 > 0 then drained.2.log .info s!"Processed {drained.1} events"
  return drained

/-- Summing up changes nothing. -/
theorem value_summarize (drained : Nat × Engine σ) (host : σ) :
    ((summarize drained).run host).value = drained := by
  unfold summarize
  split <;> rfl

/-- Summing up is a report. -/
theorem quiet_summarize (drained : Nat × Engine σ) : (summarize drained).Quiet := by
  unfold summarize
  split
  · exact Act.Only.bind (quiet_log _ _ _) fun _ ↦ Act.Only.pure _
  · exact Act.Only.pure _

/-- Summing up offers one line, if anything was dispatched. -/
theorem lines_summarize (drained : Nat × Engine σ) (host : σ) :
    ((summarize drained).run host).journal.lines =
      if drained.1 > 0 then drained.2.offeredLines (.info, s!"Processed {drained.1} events")
      else [] := by
  unfold summarize
  split
  · rw [Act.journal_bind, Journal.lines_append, lines_log]
    exact List.append_nil _
  · rfl

/-- Draining a queue of as many records leaves nothing queued. -/
theorem value_drain (h : engine.queue.Holds items) (host : σ) :
    ∃ queue, queue.Holds [] ∧ ((engine.drain items.length).run host).value =
      (items.length, { engine with queue, processed := engine.processed + items.length }) := by
  obtain ⟨htaken, hrest⟩ := h.popUpTo items.length
  rw [List.take_length] at htaken
  rw [List.drop_length] at hrest
  refine ⟨_, hrest, ?_⟩
  rw [(engine.drain_run items.length host).1, htaken]

/-- Dispatching everything is draining the queue and summing up. -/
theorem processAll_eq_drain (hrunning : engine.state.isRunning) (host : σ) :
    engine.processAll.run host = ((engine.drain engine.queueSize).run host).bind summarize := by
  rw [processAll_of_running hrunning]
  rfl

/-- Asking for all records does what asking for one after the other does, and then logs how many
there were. -/
theorem processAll_eq_run_process (hrunning : engine.state.isRunning)
    (h : engine.queue.Holds items) (host : σ) :
    engine.processAll.run host =
      ((engine.run (List.replicate (items.length + 1) .process)).run host).bind fun answer ↦
        summarize (items.length, answer.2) := by
  obtain ⟨queue, -, hvalue⟩ := value_drain h host
  rw [processAll_eq_drain hrunning, run_process_eq_drain hrunning h, queueSize, h.length_eq]
  simp only [Done.bind, Act.run_pure, List.append_nil, hvalue]

/-- To have every record dispatched is to have one dispatched after the other until there is none,
but for a line that says how many there were. The loop behind it ends, and in one way only. An
engine that is not running does the same in both cases: it warns. -/
theorem processAll_eq_repeated (config : Config σ) (ops : List Op) (host now : σ) :
    let engine := (ofConfig config).after ops host
    let size := engine.queueSize
    let one := engine.process.run now
    let all := engine.processAll.run now
    (engine.state = .running →
      let calls := (engine.run (List.replicate (size + 1) .process)).run now
      (∃ drained, (∀ done, engine.Drains now done ↔ done = drained) ∧
        all = drained.bind summarize) ∧
      calls.value.1 = List.replicate size (.flag true) ++ [.flag false] ∧
      all = calls.bind (fun answer ↦ summarize (size, answer.2)) ∧
      all.value = (size, calls.value.2) ∧ all.value.2.queue.toList = [] ∧
      all.journal.calls = calls.journal.calls ∧
      all.journal.deliveries =
        (if config.callbacks.handler.isSome then engine.queue.toList else []) ∧
      all.journal.lines = calls.journal.lines ++
        if size > 0 then engine.offeredLines (.info, s!"Processed {size} events") else []) ∧
    (engine.state ≠ .running →
      one.value = (false, engine) ∧ all.value = (0, engine) ∧
      all.journal = one.journal ∧ all.host = one.host ∧ one.journal.calls = [] ∧
      one.journal.lines = engine.offeredLines (.warn, "Processor not running")) := by
  intro engine size one all
  have hbooks : Accounts (ofConfig config) _ engine := accounts_ofConfig config ops host
  have hsize : size = engine.queue.toList.length := hbooks.holds.length_eq
  constructor
  · intro hstate calls
    have hrunning : engine.state.isRunning := Lifecycle.isRunning_iff.mpr hstate
    have hdrains := drains_drain hstate hbooks.holds now
    have hcalls := run_process_eq_drain hrunning hbooks.holds now
    have hall := processAll_eq_run_process hrunning hbooks.holds now
    -- Both sides come down to one draining of the whole queue, followed on one side by a line.
    obtain ⟨queue, hempty, hvalue⟩ := value_drain hbooks.holds now
    rw [← hsize] at hdrains hcalls hall hvalue
    have hlast : calls.value.2 = { engine with queue, processed := engine.processed + size } := by
      rw [show calls = _ from hcalls]
      exact congrArg Prod.snd hvalue
    have hboth : all.value = (size, calls.value.2) := by
      rw [show all = _ from hall]
      exact value_summarize _ _
    have hjournal : all.journal = calls.journal ++ _ := congrArg Done.journal hall
    refine ⟨⟨_, fun done ↦ ⟨(·.unique hdrains), (· ▸ hdrains)⟩, processAll_eq_drain hrunning now⟩,
      ?_, hall, hboth, ?_, ?_, ?_, ?_⟩
    · rw [show calls = _ from hcalls]
      rfl
    · rw [hboth, hlast]
      exact hempty.toList_eq
    · rw [hjournal, Journal.calls_append, (quiet_summarize _ _).calls_eq, List.append_nil]
    · have htaken : (engine.queue.popUpTo size).1 = engine.queue.toList := by
        rw [(hbooks.holds.popUpTo size).1, hsize, List.take_length]
      rw [← htaken, ← show engine.callbacks = config.callbacks from hbooks.callbacks_eq]
      exact (processAll_run hrunning now).2
    · rw [hjournal, Journal.lines_append, lines_summarize, hlast]
      rfl
  · intro hstate
    obtain ⟨⟨hone, hcalls, hlines⟩, hall, -⟩ := halted hstate now
    have hrunning : ¬ engine.state.isRunning := mt Lifecycle.isRunning_iff.mp hstate
    have hsame : one = all.bind fun _ ↦ pure (false, engine) := by
      simp only [one, all]
      rw [process_of_not_running hrunning, processAll_of_not_running hrunning]
      simp [Done.bind]
    refine ⟨hone, hall, ?_, ?_, hcalls, hlines⟩
    · rw [hsame]
      exact (List.append_nil _).symm
    · rw [hsame]
      rfl

end Engine

end EventStaging
