import EventStaging.Proofs.Engine.Effects
import EventStaging.Proofs.Engine.Steps

/-!
# Where every record is

A record that an engine admits waits in its queue until it is dispatched or dropped. `Accounts` are
the books of a part of a run: what was queued before and what was admitted meanwhile is what was
removed meanwhile and what is queued afterwards, in this order. One operation keeps the books
(`Accounts.step`), books of consecutive parts add up (`Accounts.append`), and so whole runs keep
them (`Accounts.run`). `Engine.admitted_eq_removed_append_queue` is what they say of a new engine.
-/

namespace EventStaging

/-- How a record left the queue: it was dispatched, or dropped with all that was queued. -/
inductive Removal where
  | dispatched (record : Record)
  | dropped (record : Record)

namespace Removal

/-- The record that left. -/
@[simp] def record : Removal → Record
  | .dispatched record | .dropped record => record

/-- The record, if it was dispatched. -/
@[simp] def dispatched? : Removal → Option Record
  | .dispatched record => some record
  | .dropped _ => none

/-- The record, if it was dropped. -/
@[simp] def dropped? : Removal → Option Record
  | .dispatched _ => none
  | .dropped record => some record

end Removal

variable {σ : Type}

/-! ## What a step adds to the books -/

/-- The records that an operation takes out of the queue of an engine, in this order: a running
engine pops them to dispatch them, and clearing empties their slots. -/
def Engine.removals (engine : Engine σ) : Op → List Removal
  | .process =>
    if engine.state.isRunning then (engine.queue.popUpTo 1).1.map .dispatched else []
  | .processAll =>
    if engine.state.isRunning then (engine.queue.popUpTo engine.queueSize).1.map .dispatched else []
  | .clear => (engine.queue.passedBy engine.queueSize).map .dropped
  | .push .. | .start | .stop => []

namespace Step

/-- The record that a step admits: that of a push which was accepted and about which no filter
answered no. -/
def admitted (step : Step σ) : List Record :=
  match step.op, step.reply with
  | .push _ kind source payload, .accepted =>
    if .returned false ∈ step.journal.verdicts then [] else [⟨kind, source, payload⟩]
  | _, _ => []

/-- The records that a step takes out of the queue. -/
def removed (step : Step σ) : List Removal := step.before.removals step.op

/-- What a step answers to a request to clear the queue. -/
def cleared (step : Step σ) : Nat :=
  match step.op, step.reply with
  | .clear, .count count => count
  | _, _ => 0

end Step

namespace Engine

/-- The records that the steps admit, in the order in which they came. -/
def admitted (steps : List (Step σ)) : List Record := steps.flatMap Step.admitted

/-- The records that the steps take out of the queue, in the order in which they left. -/
def removed (steps : List (Step σ)) : List Removal := steps.flatMap Step.removed

/-- The answers of the steps to requests to clear the queue, added up. -/
def cleared : List (Step σ) → Nat
  | [] => 0
  | step :: steps => step.cleared + cleared steps

/-- The records that the steps dispatch. -/
def dispatched (steps : List (Step σ)) : List Record :=
  (removed steps).filterMap Removal.dispatched?

/-- The records that the steps drop. -/
def dropped (steps : List (Step σ)) : List Record := (removed steps).filterMap Removal.dropped?

/-- What two runs in turn admit is what the one and then the other admits. So it is with what they
remove and with the other counts. -/
theorem admitted_append (first second : List (Step σ)) :
    admitted (first ++ second) = admitted first ++ admitted second :=
  List.flatMap_append

theorem removed_append (first second : List (Step σ)) :
    removed (first ++ second) = removed first ++ removed second :=
  List.flatMap_append

theorem dispatched_append (first second : List (Step σ)) :
    dispatched (first ++ second) = dispatched first ++ dispatched second := by
  rw [dispatched, removed_append, List.filterMap_append]
  rfl

theorem dropped_append (first second : List (Step σ)) :
    dropped (first ++ second) = dropped first ++ dropped second := by
  rw [dropped, removed_append, List.filterMap_append]
  rfl

theorem cleared_append (first second : List (Step σ)) :
    cleared (first ++ second) = cleared first + cleared second := by
  induction first with
  | nil => exact (Nat.zero_add _).symm
  | cons step steps ih =>
      show step.cleared + cleared (steps ++ second) = step.cleared + cleared steps + cleared second
      rw [ih, Nat.add_assoc]

variable {step : Step σ} {records : List Record}

/-- A single step removes what it says. -/
theorem removed_singleton (step : Step σ) : removed [step] = step.removed :=
  List.flatMap_singleton ..

/-- A step whose records all went by dispatch has dispatched them. -/
theorem dispatched_of_dispatched (h : step.removed = records.map .dispatched) :
    dispatched [step] = records := by
  simp [dispatched, removed_singleton, h, List.filterMap_map, Function.comp_def]

/-- A step whose records all went by dispatch has dropped none. -/
theorem dropped_of_dispatched (h : step.removed = records.map .dispatched) :
    dropped [step] = [] := by
  simp [dropped, removed_singleton, h, List.filterMap_map, Function.comp_def]

/-- A step whose records were all dropped has dispatched none. -/
theorem dispatched_of_dropped (h : step.removed = records.map .dropped) :
    dispatched [step] = [] := by
  simp [dispatched, removed_singleton, h, List.filterMap_map, Function.comp_def]

/-- A step whose records were all dropped has dropped them. -/
theorem dropped_of_dropped (h : step.removed = records.map .dropped) :
    dropped [step] = records := by
  simp [dropped, removed_singleton, h, List.filterMap_map, Function.comp_def]

end Engine

/-! ## The books -/

open Engine (admitted removed cleared dispatched dropped)

/-- The books of a part of a run that leads from the engine `first` over the given steps to the
engine `last`. What was in the queue and what came is what went and what is there, in order. The
handler, if there is one, is given what is dispatched. The counter counts the dispatches, and the
answers of the clears count what was dropped. -/
structure Accounts (first : Engine σ) (steps : List (Step σ)) (last : Engine σ) : Prop where
  queue_eq : first.queue.toList ++ admitted steps =
    (removed steps).map Removal.record ++ last.queue.toList
  holds : last.queue.Holds last.queue.toList
  deliveries_eq : Journal.deliveries (steps.flatMap Step.journal) =
    if first.callbacks.handler.isSome then dispatched steps else []
  processed_eq : last.processed = first.processed + (dispatched steps).length
  cleared_eq : cleared steps = (dropped steps).length
  bound_eq : last.queue.bound = first.queue.bound
  callbacks_eq : last.callbacks = first.callbacks

namespace Accounts

variable {first middle last : Engine σ}

/-- The books of no steps balance. -/
theorem nil (hholds : first.queue.Holds first.queue.toList) : Accounts first [] first where
  queue_eq := List.append_nil _
  holds := hholds
  deliveries_eq := by
    cases first.callbacks.handler <;> rfl
  processed_eq := rfl
  cleared_eq := rfl
  bound_eq := rfl
  callbacks_eq := rfl

/-- The books of one part and those of the next are the books of both. -/
theorem append {earlier later : List (Step σ)} (hearlier : Accounts first earlier middle)
    (hlater : Accounts middle later last) : Accounts first (earlier ++ later) last where
  queue_eq := by
    rw [Engine.admitted_append, Engine.removed_append, ← List.append_assoc, hearlier.queue_eq,
      List.append_assoc, hlater.queue_eq, List.map_append, List.append_assoc]
  holds := hlater.holds
  deliveries_eq := by
    rw [List.flatMap_append, Journal.deliveries_append, hearlier.deliveries_eq,
      hlater.deliveries_eq, hearlier.callbacks_eq, Engine.dispatched_append]
    split <;> rfl
  processed_eq := by
    rw [hlater.processed_eq, hearlier.processed_eq, Engine.dispatched_append, List.length_append,
      Nat.add_assoc]
  cleared_eq := by
    rw [Engine.cleared_append, hearlier.cleared_eq, hlater.cleared_eq, Engine.dropped_append,
      List.length_append]
  bound_eq := hlater.bound_eq.trans hearlier.bound_eq
  callbacks_eq := hlater.callbacks_eq.trans hearlier.callbacks_eq

/-! ## One operation -/

variable {engine : Engine σ}

/-- A step that takes no record out and admits none keeps the books if it leaves the queue. -/
theorem of_idle {step : Step σ} (hholds : engine.queue.Holds engine.queue.toList)
    (hadmitted : step.admitted = []) (hremoved : step.removed = [])
    (hcleared : step.cleared = 0) (hdeliveries : step.journal.deliveries = [])
    (hqueue : last.queue = engine.queue) (hprocessed : last.processed = engine.processed)
    (hcallbacks : last.callbacks = engine.callbacks) : Accounts engine [step] last where
  queue_eq := by simp [admitted, removed, hadmitted, hremoved, hqueue]
  holds := hqueue ▸ hholds
  deliveries_eq := by simp [dispatched, removed, hremoved, hdeliveries]
  processed_eq := by simp [dispatched, removed, hremoved, hprocessed]
  cleared_eq := by simp [cleared, dropped, removed, hremoved, hcleared]
  bound_eq := congrArg Ring.bound hqueue
  callbacks_eq := hcallbacks

/-- A step that puts a record at the end of the queue keeps the books if it admits that record. -/
theorem of_admission {step : Step σ} {queue : Ring Record} {record : Record}
    (hholds : queue.Holds (engine.queue.toList ++ [record]))
    (hbound : queue.bound = engine.queue.bound)
    (hadmitted : step.admitted = [record]) (hremoved : step.removed = [])
    (hcleared : step.cleared = 0) (hdeliveries : step.journal.deliveries = []) :
    Accounts engine [step] { engine with queue } where
  queue_eq := by simp [admitted, removed, hadmitted, hremoved, hholds.toList_eq]
  holds := by
    show queue.Holds queue.toList
    rw [hholds.toList_eq]
    exact hholds
  deliveries_eq := by simp [dispatched, removed, hremoved, hdeliveries]
  processed_eq := by simp [dispatched, removed, hremoved]
  cleared_eq := by simp [cleared, dropped, removed, hremoved, hcleared]
  bound_eq := hbound
  callbacks_eq := rfl

/-- A step that takes records out one by one and gives them to the handler keeps the books. -/
theorem of_dispatch {step : Step σ} (limit : Nat) (hholds : engine.queue.Holds engine.queue.toList)
    (hadmitted : step.admitted = [])
    (hremoved : step.removed = (engine.queue.popUpTo limit).1.map .dispatched)
    (hcleared : step.cleared = 0)
    (hdeliveries : step.journal.deliveries =
      if engine.callbacks.handler.isSome then (engine.queue.popUpTo limit).1 else []) :
    Accounts engine [step] { engine with
      queue := (engine.queue.popUpTo limit).2,
      processed := engine.processed + (engine.queue.popUpTo limit).1.length } := by
  -- What is popped is the beginning of what was queued, and the rest stays.
  obtain ⟨htaken, hrest⟩ := hholds.popUpTo limit
  constructor
  case queue_eq =>
    rw [Engine.removed_singleton, hremoved, htaken, hrest.toList_eq]
    simp [admitted, hadmitted, Function.comp_def]
  case holds =>
    show (engine.queue.popUpTo limit).2.Holds (engine.queue.popUpTo limit).2.toList
    rw [hrest.toList_eq]
    exact hrest
  case deliveries_eq =>
    rw [Engine.dispatched_of_dispatched hremoved, List.flatMap_singleton, hdeliveries]
  case processed_eq => rw [Engine.dispatched_of_dispatched hremoved]
  case cleared_eq =>
    rw [Engine.dropped_of_dispatched hremoved, cleared, hcleared]
    rfl
  case bound_eq => exact Ring.bound_popUpTo limit engine.queue
  case callbacks_eq => rfl

/-- A step that drops every record and counts them keeps the books. -/
theorem of_clear {step : Step σ} (hholds : engine.queue.Holds engine.queue.toList)
    (hadmitted : step.admitted = [])
    (hremoved : step.removed = (engine.queue.passedBy engine.queueSize).map .dropped)
    (hcleared : step.cleared = engine.queue.clear.1) (hdeliveries : step.journal.deliveries = []) :
    Accounts engine [step] { engine with queue := engine.queue.clear.2 } := by
  obtain ⟨hcount, hrest⟩ := hholds.clear
  have hsize : engine.queueSize = engine.queue.toList.length := hholds.length_eq
  -- Clearing counts the slots by the length of the queue, so it passes by every record.
  have hpassed : engine.queue.passedBy engine.queueSize = engine.queue.toList := by
    rw [hsize, hholds.passedBy (Nat.le_refl _), List.take_length]
  rw [hpassed] at hremoved
  constructor
  case queue_eq =>
    rw [Engine.removed_singleton, hremoved, hrest.toList_eq]
    simp [admitted, hadmitted, Function.comp_def]
  case holds =>
    show engine.queue.clear.2.Holds engine.queue.clear.2.toList
    rw [hrest.toList_eq]
    exact hrest
  case deliveries_eq =>
    rw [Engine.dispatched_of_dropped hremoved, List.flatMap_singleton, hdeliveries, ite_self]
  case processed_eq =>
    rw [Engine.dispatched_of_dropped hremoved]
    rfl
  case cleared_eq =>
    rw [Engine.dropped_of_dropped hremoved, cleared, hcleared, hcount]
    rfl
  case bound_eq => exact Ring.bound_clear engine.queue
  case callbacks_eq => rfl

/-- The books of a push balance, whatever becomes of the event. -/
theorem step_push (hholds : engine.queue.Holds engine.queue.toList) (allocator : Allocator)
    (kind : Kind) (source : String) (payload : List UInt8) (host : σ) :
    Accounts engine [engine.step (.push allocator kind source payload) host]
      (engine.step (.push allocator kind source payload) host).after := by
  have honly := engine.only_push allocator kind source payload host
  have hdeliveries := honly.deliveries_eq_of_isIntake
  have hcases := engine.push_cases allocator kind source payload host
  rw [Engine.step_of_apply_eq (engine.apply_push allocator kind source payload)]
  simp only at hcases
  rcases hcases with ⟨error, hvalue⟩ | ⟨hvalue, hverdict⟩ | ⟨hok, hvalue, hverdict⟩
  case inl =>
    rw [hvalue]
    exact of_idle hholds rfl rfl rfl hdeliveries rfl rfl rfl
  case inr.inl =>
    rw [hvalue]
    exact of_idle hholds (if_pos hverdict) rfl rfl hdeliveries rfl rfl rfl
  case inr.inr =>
    rw [hvalue]
    exact of_admission (hholds.push_ok hok) (Ring.bound_push _ _ _) (if_neg hverdict) rfl rfl
      hdeliveries

/-- Every operation keeps the books. -/
theorem step (hholds : engine.queue.Holds engine.queue.toList) (op : Op) (host : σ) :
    Accounts engine [engine.step op host] (engine.step op host).after := by
  -- A push admits, a dispatch and a clear remove, and the other operations leave the queue alone;
  -- each kind has its own lemma about the books.
  cases op with
  | push allocator kind source payload => exact step_push hholds allocator kind source payload host
  | process =>
      rw [Engine.step_of_apply_eq engine.apply_process]
      by_cases hrunning : engine.state.isRunning
      · obtain ⟨hvalue, hdeliveries⟩ := Engine.process_run hrunning host
        rw [hvalue]
        exact of_dispatch 1 hholds rfl (if_pos hrunning) rfl hdeliveries
      · obtain ⟨hvalue, hdeliveries⟩ := Engine.process_run_of_not_running hrunning host
        rw [hvalue]
        exact of_idle hholds rfl (if_neg hrunning) rfl hdeliveries rfl rfl rfl
  | processAll =>
      rw [Engine.step_of_apply_eq engine.apply_processAll]
      by_cases hrunning : engine.state.isRunning
      · obtain ⟨hvalue, hdeliveries⟩ := Engine.processAll_run hrunning host
        rw [hvalue]
        exact of_dispatch engine.queueSize hholds rfl (if_pos hrunning) rfl hdeliveries
      · obtain ⟨hvalue, hdeliveries⟩ := Engine.processAll_run_of_not_running hrunning host
        rw [hvalue]
        exact of_idle hholds rfl (if_neg hrunning) rfl hdeliveries rfl rfl rfl
  | clear =>
      rw [Engine.step_of_apply_eq engine.apply_clear, Engine.value_clear]
      exact of_clear hholds rfl rfl rfl (engine.quiet_clear host).deliveries_eq
  | start =>
      rw [Engine.step_of_apply_eq engine.apply_start, Engine.value_moveTo]
      exact of_idle hholds rfl rfl rfl
        (engine.only_moveTo .running host).deliveries_eq_of_isMove rfl rfl rfl
  | stop =>
      rw [Engine.step_of_apply_eq engine.apply_stop, Engine.value_moveTo]
      exact of_idle hholds rfl rfl rfl
        (engine.only_moveTo .stopped host).deliveries_eq_of_isMove rfl rfl rfl

/-! ## Whole runs -/

/-- Every run keeps the books. -/
theorem run (hholds : engine.queue.Holds engine.queue.toList) (ops : List Op) (host : σ) :
    Accounts engine (engine.steps ops host) (engine.after ops host) := by
  induction ops generalizing engine host with
  | nil => exact nil hholds
  | cons op ops ih =>
      -- The ring that the first operation leaves holds a list again, so the rest keeps its books.
      have hstep := step hholds op host
      exact hstep.append (ih hstep.holds (engine.step op host).host)

/-- Every operation of a run finds a ring that holds a list. -/
theorem holds_of_mem_steps (hholds : engine.queue.Holds engine.queue.toList) {ops : List Op}
    {host : σ} {step : Step σ} (hmem : step ∈ engine.steps ops host) :
    step.before.queue.Holds step.before.queue.toList := by
  induction ops generalizing engine host with
  | nil => cases hmem
  | cons op ops ih =>
      rcases List.mem_cons.mp hmem with rfl | hmem
      · exact hholds
      · exact ih (Accounts.step hholds op host).holds hmem

end Accounts

namespace Engine

/-- A new engine has a ring that holds its items. -/
theorem holds_ofConfig (config : Config σ) :
    (ofConfig config).queue.Holds (ofConfig config).queue.toList := by
  have hempty : (ofConfig config).queue.Holds [] := Ring.Holds.empty config.maxQueueSize
  exact hempty.toList_eq.symm ▸ hempty

/-- Every run of a new engine keeps the books. -/
theorem accounts_ofConfig (config : Config σ) (ops : List Op) (host : σ) :
    Accounts (ofConfig config) ((ofConfig config).steps ops host)
      ((ofConfig config).after ops host) :=
  Accounts.run (holds_ofConfig config) ops host

/-- What holds of one operation on a ring that holds a list holds of every step of a run. -/
theorem forall_steps_of_holds {P : Step σ → Prop} (config : Config σ) (ops : List Op) (host : σ)
    (hstep : ∀ (engine : Engine σ) (op : Op) (host : σ),
      engine.queue.Holds engine.queue.toList → P (engine.step op host)) :
    ∀ step ∈ (ofConfig config).steps ops host, P step := by
  intro step hmem
  obtain ⟨now, heq⟩ := exists_eq_step_of_mem hmem
  have hholds := Accounts.holds_of_mem_steps (holds_ofConfig config) hmem
  exact heq ▸ hstep step.before step.op now hholds

/-- What an engine admitted is what it dispatched or dropped, followed by what is queued: first in,
first out, and no record is lost or doubled. The handler, if there is one, is given each dispatched
record once and in this order; the counter of the engine and the answers to clearing say how many
records were dispatched and dropped; and a queue with a bound never holds more than that. -/
theorem admitted_eq_removed_append_queue (config : Config σ) (ops : List Op) (host : σ) :
    let engine := ofConfig config
    let done := (engine.run ops).run host
    let steps := engine.steps ops host
    let last := done.value.2
    admitted steps = (removed steps).map Removal.record ++ last.queue.toList ∧
      done.journal.deliveries =
        (if config.callbacks.handler.isSome then dispatched steps else []) ∧
      last.processed = (dispatched steps).length ∧
      cleared steps = (dropped steps).length ∧
      (config.maxQueueSize = 0 ∨ last.queueSize ≤ config.maxQueueSize) := by
  intro engine done steps last
  -- The books of a new engine begin with nothing queued and nothing counted.
  have hempty : engine.queue.Holds [] := Ring.Holds.empty config.maxQueueSize
  have hqueue : engine.queue.toList = [] := hempty.toList_eq
  have hrun : Accounts engine steps last := Accounts.run (hqueue.symm ▸ hempty) ops host
  refine ⟨?_, ?_, ?_, hrun.cleared_eq, ?_⟩
  · have hbalance := hrun.queue_eq
    rwa [hqueue, List.nil_append] at hbalance
  · rw [show done.journal = steps.flatMap Step.journal from engine.journal_run ops host]
    exact hrun.deliveries_eq
  · rw [hrun.processed_eq]
    exact Nat.zero_add _
  · by_cases hmax : config.maxQueueSize = 0
    · exact .inl hmax
    · have hbound : last.queue.bound = some config.maxQueueSize := by
        rw [hrun.bound_eq]
        exact if_neg hmax
      have hle := hrun.holds.length_le_bound hbound
      rw [← hrun.holds.length_eq] at hle
      exact .inr hle

end Engine

end EventStaging
