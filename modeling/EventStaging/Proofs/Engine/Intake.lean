import EventStaging.Proofs.Engine.Apart
import EventStaging.Proofs.Engine.Custody
import EventStaging.Proofs.Ring.Growth

/-!
# What becomes of a push

An event that is pushed may find the queue full, its payload may be too large to copy, the filter
may turn it away, there may be no storage for more slots, and else it is queued. `Fate.of` says
which of these it is, from the queue, the allocator and the answer of the filter: the first that
applies decides. Main statement (`Engine.push_decided`): every push to a reachable engine ends as
its fate says, and the filter is asked once by the pushes that come that far, and by nothing else.
-/

namespace EventStaging

/-- What becomes of an event that is pushed. It is turned away because the queue is `full` with as
many records as it may hold, because the payload, of that many bytes, is `uncopied`, because the
record is `filtered`, or because it is `unstored` for want of more slots, of that many bytes; or
else it is `queued` at the end. -/
inductive Fate where
  | full (items : Nat)
  | uncopied (bytes : Nat)
  | filtered
  | unstored (bytes : Nat)
  | queued
  deriving DecidableEq, Repr

namespace Fate

/-- The bytes of twice as many slots, within the capacity. -/
def storage (capacity : Option Nat) (slots : Nat) : Nat :=
  match capacity with
  | none => 40 * (2 * slots)
  | some max => 40 * min (2 * slots) max

/-- The first case that applies decides. The queue holds `waiting` records in that many slots, and
`answer` is what the filter says to the record, if there is a filter. -/
def of (capacity : Option Nat) (waiting slots : Nat) (allocator : Allocator)
    (payload : List UInt8) (answer : Option (Outcome Bool)) : Fate :=
  if capacity = some waiting then .full waiting
  else if payload ≠ [] ∧ ¬ allocator.payload payload.length then .uncopied payload.length
  else if answer = some (.returned false) then .filtered
  else if waiting = slots ∧ ¬ (storage capacity slots ≤ storageMax ∧
    allocator.slots (storage capacity slots)) then .unstored (storage capacity slots)
  else .queued

/-- The result of the push. -/
def result : Fate → Except EngineError Unit
  | .full items => .error (.queueFull items)
  | .uncopied bytes | .unstored bytes => .error (.allocation bytes)
  | .filtered | .queued => .ok ()

/-- Whether the push comes as far as the filter. -/
def asks : Fate → Bool
  | .full _ | .uncopied _ => false
  | .filtered | .unstored _ | .queued => true

/-- The filter is asked exactly if the queue has room and the payload can be copied. -/
theorem asks_of (capacity : Option Nat) (waiting slots : Nat) (allocator : Allocator)
    (payload : List UInt8) (answer : Option (Outcome Bool)) :
    (of capacity waiting slots allocator payload answer).asks ↔
      capacity ≠ some waiting ∧ (payload = [] ∨ allocator.payload payload.length) := by
  unfold of
  by_cases hfull : capacity = some waiting
  · simp [hfull, asks]
  by_cases hcopy : payload ≠ [] ∧ ¬ allocator.payload payload.length
  · rw [if_neg hfull, if_pos hcopy]
    simp only [asks]
    tauto
  · rw [if_neg hfull, if_neg hcopy]
    refine iff_of_true ?_ ⟨hfull, by tauto⟩
    split
    · rfl
    · split <;> rfl

/-- An answer that is not asked for makes no difference. -/
theorem of_congr {capacity : Option Nat} {waiting slots : Nat} {allocator : Allocator}
    {payload : List UInt8} {answer answer' : Option (Outcome Bool)}
    (h : (of capacity waiting slots allocator payload answer).asks → answer = answer') :
    of capacity waiting slots allocator payload answer =
      of capacity waiting slots allocator payload answer' := by
  rw [asks_of] at h
  unfold of
  by_cases hfull : capacity = some waiting
  · rw [if_pos hfull, if_pos hfull]
  by_cases hcopy : payload ≠ [] ∧ ¬ allocator.payload payload.length
  · rw [if_neg hfull, if_neg hfull, if_pos hcopy, if_pos hcopy]
  · rw [h ⟨hfull, by tauto⟩]

/-- The log line about it, if `waiting` records were queued before. -/
def line (kind : Kind) (waiting : Nat) : Fate → Level × String
  | .full items => (.warn, s!"Queue full ({items} items)")
  | .uncopied bytes | .unstored bytes =>
    (.error, s!"Dropping event: {(EngineError.allocation bytes).message}")
  | .filtered => (.debug, "Event filtered out")
  | .queued => (.debug, s!"Event queued (type={kind.name}, queue_size={waiting + 1})")

end Fate

/-- A copy fails only for want of storage for a payload that is not empty. -/
theorem Record.copy_eq (allocator : Allocator) (kind : Kind) (source : String)
    (payload : List UInt8) :
    copy allocator kind source payload =
      if payload ≠ [] ∧ ¬ allocator.payload payload.length then .error payload.length
      else .ok ⟨kind, source, payload⟩ := by
  unfold copy
  cases payload with
  | nil => rfl
  | cons byte payload =>
      cases allocator.payload (byte :: payload).length <;> rfl

/-- A larger ring takes the storage that is reckoned with. -/
theorem Ring.enlarged_eq_storage {α : Type} (ring : Ring α) :
    40 * ring.enlarged = Fate.storage ring.bound ring.slots.size := by
  unfold enlarged Fate.storage
  cases ring.bound <;> rfl

/-- A ring turns an item away if it is full, and else only if it has no free slot and there is no
storage for more. -/
theorem Ring.Holds.result_push {α : Type} {ring : Ring α} {items : List α} (h : ring.Holds items)
    (grants : Nat → Bool) (item : α) :
    (ring.push grants item).1 =
      if ring.bound = some items.length then .error (.full item)
      else if items.length = ring.slots.size ∧
        ¬ (Fate.storage ring.bound ring.slots.size ≤ storageMax ∧
          grants (Fate.storage ring.bound ring.slots.size)) then
        .error (.noStorage item (Fate.storage ring.bound ring.slots.size))
      else .ok () := by
  have hle := h.length_le
  rw [h.push_eq, h.growthBytes_eq_enlarged, ← ring.enlarged_eq_storage]
  by_cases hfull : ring.bound = some items.length
  · rw [if_pos hfull, if_pos hfull]
  rw [if_neg hfull, if_neg hfull]
  by_cases hroom : items.length < ring.slots.size
  · rw [if_pos hroom, if_neg fun hcrowded ↦ by omega]
  have hcrowded : items.length = ring.slots.size := by omega
  rw [if_neg hroom]
  by_cases hcan : ring.canGrow grants
  · rw [if_pos hcan, if_neg fun hrefused ↦ hrefused.2 (h.canGrow_iff.mp hcan)]
  · rw [if_neg hcan, if_pos ⟨hcrowded, mt h.canGrow_iff.mpr hcan⟩]

variable {σ : Type}

namespace Engine

open Act (Only)

variable {engine : Engine σ} {allocator : Allocator} {kind : Kind} {source : String}
  {payload : List UInt8} {record : Record} {host : σ}

/-! ## The answer of the filter -/

/-- What the filter says to a record, if there is a filter. -/
def answer? (engine : Engine σ) (record : Record) (host : σ) : Option (Outcome Bool) :=
  engine.callbacks.filter.map fun filter ↦ (filter record host).1

/-- The host as the filter leaves it when it is asked about a record. -/
def afterFilter (engine : Engine σ) (record : Record) (host : σ) : σ :=
  (engine.callbacks.filter.map fun filter ↦ (filter record host).2).getD host

/-- The lines that the engine offers about an answer of the filter: one if the filter failed. -/
def doubts (engine : Engine σ) (kind : Kind) : Option (Outcome Bool) → List (Level × String)
  | none => []
  | some outcome =>
    match outcome.guarded with
    | .ok _ => []
    | .error failure => engine.offeredLines (.error, failureLine .filter (some kind) failure)

/-- A record is let in unless the filter says no. -/
theorem value_admits (engine : Engine σ) (record : Record) (host : σ) :
    ((engine.admits record).run host).value =
      decide (engine.answer? record host ≠ some (.returned false)) := by
  rw [admits_eq, answer?]
  cases engine.callbacks.filter with
  | none => rfl
  | some filter =>
      rw [Option.elim_some, Act.value_bind, value_contain]
      show (filter record host).1.getD true = _
      cases hanswer : (filter record host).1 <;> simp [hanswer, Outcome.getD]

/-- The filter is asked once, if there is one. -/
theorem calls_admits (engine : Engine σ) (record : Record) (host : σ) :
    ((engine.admits record).run host).journal.calls =
      ((engine.answer? record host).map (.offered record)).toList := by
  rw [admits_eq, answer?]
  cases engine.callbacks.filter with
  | none => rfl
  | some filter =>
      rw [Option.elim_some, Act.journal_bind, Journal.calls_append,
        (engine.quiet_contain _ _ _ _ _).calls_eq]
      rfl

/-- What is logged meanwhile is a failure of the filter at most. -/
theorem lines_admits (engine : Engine σ) (record : Record) (host : σ) :
    ((engine.admits record).run host).journal.lines =
      engine.doubts record.kind (engine.answer? record host) := by
  rw [admits_eq, answer?]
  cases engine.callbacks.filter with
  | none => rfl
  | some filter =>
      rw [Option.elim_some, Act.journal_bind, Journal.lines_append, lines_contain,
        show ((Act.offer filter record).run host).value = (filter record host).1 from rfl]
      show _ = engine.doubts record.kind (some (filter record host).1)
      cases (filter record host).1 <;> rfl

/-- Only the filter changes what the sink spares. -/
theorem view_admits {υ : Type} {view : σ → υ} (hsink : engine.callbacks.SinkSpares view)
    (record : Record) (host : σ) :
    view ((engine.admits record).run host).host = view (engine.afterFilter record host) := by
  rw [admits_eq, afterFilter]
  cases engine.callbacks.filter with
  | none => rfl
  | some filter => exact (reports_spares hsink).contain _ _ _ _ _

/-! ## How a push ends -/

/-- What becomes of an event that is pushed to an engine. -/
def fate (engine : Engine σ) (allocator : Allocator) (record : Record) (host : σ) : Fate :=
  .of engine.capacity engine.queue.toList.length engine.queue.slots.size allocator record.payload
    (engine.answer? record host)

/-- A push of a record ended in a fate, which fixes the answer, the engine afterwards, the calls and
the log lines. Only the filter changes what the sink does not change. -/
structure Decided (engine : Engine σ) (allocator : Allocator) (record : Record) (host : σ)
    (fate : Fate) (done : Done σ (Except EngineError Unit × Engine σ)) : Prop where
  result : done.value.1 = fate.result
  after : done.value.2 = if fate = .queued then
    { engine with queue := (engine.queue.push allocator.slots record).2 } else engine
  stored : fate = .queued → (engine.queue.push allocator.slots record).1 = .ok ()
  calls : done.journal.calls =
    if fate.asks then ((engine.answer? record host).map (.offered record)).toList else []
  lines : done.journal.lines =
    (if fate.asks then engine.doubts record.kind (engine.answer? record host) else []) ++
      engine.offeredLines (fate.line record.kind engine.queue.toList.length)
  view : ∀ {υ : Type} {view : σ → υ}, engine.callbacks.SinkSpares view →
    view done.host = view (if fate.asks then engine.afterFilter record host else host)

/-- Logs a line and gives a value. -/
def conclude {α : Type} (engine : Engine σ) (line : Level × String) (value : α) : Act σ α := do
  engine.log line.1 line.2
  return value

/-- Concluding is a report. -/
theorem quiet_conclude {α : Type} (engine : Engine σ) (line : Level × String) (value : α) :
    (engine.conclude line value).Quiet :=
  Only.bind (engine.quiet_log _ _) fun _ ↦ Only.pure _

/-- Concluding offers its line. -/
theorem lines_conclude {α : Type} (engine : Engine σ) (line : Level × String) (value : α)
    (host : σ) :
    ((engine.conclude line value).run host).journal.lines = engine.offeredLines line := by
  rw [conclude, Act.journal_bind, Journal.lines_append, lines_log]
  exact List.append_nil _

section

variable {fate : Fate} {next : Engine σ}

/-- A push that does not come as far as the filter is refused. -/
theorem decided_of_conclude (hasks : fate.asks = false) (host : σ) :
    engine.Decided allocator record host fate
      ((engine.conclude (fate.line record.kind engine.queue.toList.length)
        (fate.result, engine)).run host) where
  result := rfl
  after := by
    rw [if_neg (by rintro rfl; cases hasks)]
    rfl
  stored := by
    rintro rfl
    cases hasks
  calls := by
    rw [(engine.quiet_conclude _ _ host).calls_eq, hasks]
    rfl
  lines := by
    rw [lines_conclude, hasks]
    rfl
  view hsink := by
    rw [hasks]
    exact spares_log hsink _ _ host

/-- A push that comes as far as the filter ends as its verdict says. -/
theorem decided_of_admits {finish : Bool → Act σ (Except EngineError Unit × Engine σ)}
    (hasks : fate.asks)
    (hfinish : finish ((engine.admits record).run host).value =
      engine.conclude (fate.line record.kind engine.queue.toList.length) (fate.result, next))
    (hnext : next = if fate = .queued then
      { engine with queue := (engine.queue.push allocator.slots record).2 } else engine)
    (hstored : fate = .queued → (engine.queue.push allocator.slots record).1 = .ok ()) :
    engine.Decided allocator record host fate
      ((engine.admits record >>= finish).run host) where
  result := by
    rw [Act.value_bind, hfinish]
    rfl
  after := by
    rw [Act.value_bind, hfinish]
    exact hnext
  stored := hstored
  calls := by
    rw [Act.journal_bind, Journal.calls_append, hfinish, calls_admits,
      (engine.quiet_conclude _ _ _).calls_eq, List.append_nil, if_pos hasks]
  lines := by
    rw [Act.journal_bind, Journal.lines_append, hfinish, lines_admits, lines_conclude, hasks]
    rfl
  view hsink := by
    rw [Act.host_bind, hfinish, if_pos hasks, ← view_admits hsink]
    exact spares_log hsink _ _ _

end

/-- A record that finds room is queued, and so it is logged. -/
theorem enqueue_of_ok (hok : (engine.queue.push allocator.slots record).1 = .ok ()) :
    engine.enqueue allocator record =
      engine.conclude (Fate.queued.line record.kind engine.queueSize)
        (Fate.queued.result,
          { engine with queue := (engine.queue.push allocator.slots record).2 }) := by
  have hlength := Ring.length_of_push hok
  unfold enqueue
  simp only
  rw [hok, queueSize, hlength]
  rfl

/-- A record for which there is no storage is refused, and so it is logged. -/
theorem enqueue_of_noStorage {bytes : Nat}
    (herror : (engine.queue.push allocator.slots record).1 = .error (.noStorage record bytes)) :
    engine.enqueue allocator record =
      engine.conclude ((Fate.unstored bytes).line record.kind engine.queueSize)
        ((Fate.unstored bytes).result, engine) := by
  have hqueue := Ring.push_of_refused herror
  unfold enqueue
  simp only
  rw [herror, hqueue]
  rfl

/-- A push that comes as far as the filter is decided by its answer, and then by the ring. -/
theorem decided_of_copied (hholds : engine.queue.Holds engine.queue.toList)
    (hfull : engine.capacity ≠ some engine.queue.toList.length)
    (hcopy : ¬ (record.payload ≠ [] ∧ ¬ allocator.payload record.payload.length)) (host : σ) :
    engine.Decided allocator record host (engine.fate allocator record host)
      ((do if ← engine.admits record then engine.enqueue allocator record else engine.turnAway :
        Act σ _).run host) := by
  have hvalue := engine.value_admits record host
  have hresult := (hholds.result_push allocator.slots record).trans (if_neg hfull)
  rw [fate, Fate.of, if_neg hfull, if_neg hcopy]
  -- The filter is asked first; only a record that it lets through meets the ring.
  by_cases hanswer : engine.answer? record host = some (.returned false)
  case pos =>
    rw [if_pos hanswer]
    refine decided_of_admits rfl ?_ rfl nofun
    rw [hvalue, hanswer]
    rfl
  have hadmits : ((engine.admits record).run host).value = true := by
    rw [hvalue]
    exact decide_eq_true hanswer
  rw [if_neg hanswer]
  by_cases hstorage : engine.queue.toList.length = engine.queue.slots.size ∧
    ¬ (Fate.storage engine.capacity engine.queue.slots.size ≤ storageMax ∧
      allocator.slots (Fate.storage engine.capacity engine.queue.slots.size))
  case pos =>
    rw [if_pos hstorage]
    refine decided_of_admits rfl ?_ rfl nofun
    rw [hadmits, if_pos rfl, ← hholds.length_eq]
    exact enqueue_of_noStorage (hresult.trans (if_pos hstorage))
  have hok := hresult.trans (if_neg hstorage)
  rw [if_neg hstorage]
  refine decided_of_admits rfl ?_ rfl fun _ ↦ hok
  rw [hadmits, if_pos rfl, ← hholds.length_eq]
  exact enqueue_of_ok hok

/-- Every push ends in its fate. -/
theorem decided_push (hholds : engine.queue.Holds engine.queue.toList) (allocator : Allocator)
    (kind : Kind) (source : String) (payload : List UInt8) (host : σ) :
    let record : Record := ⟨kind, source, payload⟩
    engine.Decided allocator record host (engine.fate allocator record host)
      ((engine.push allocator kind source payload).run host) := by
  intro record
  have hsize : engine.queueSize = engine.queue.toList.length := hholds.length_eq
  have hcopied := Record.copy_eq allocator kind source payload
  -- The order of the refusals: a full queue, then a payload that is not copied, then the filter.
  by_cases hfull : engine.capacity = some engine.queue.toList.length
  case pos =>
    have hfate : engine.fate allocator record host = .full engine.queue.toList.length :=
      if_pos hfull
    rw [hfate, push_of_full (hholds.isFull_iff.mpr hfull), hsize]
    exact decided_of_conclude rfl host
  have hroom : ¬ engine.queue.isFull := mt hholds.isFull_iff.mp hfull
  by_cases hcopy : payload ≠ [] ∧ ¬ allocator.payload payload.length
  case pos =>
    have hfate : engine.fate allocator record host = .uncopied payload.length := by
      rw [fate, Fate.of, if_neg hfull]
      exact if_pos hcopy
    rw [if_pos hcopy] at hcopied
    rw [hfate, push_of_uncopied hroom hcopied]
    exact decided_of_conclude rfl host
  rw [if_neg hcopy] at hcopied
  rw [push_of_copied hroom hcopied]
  exact decided_of_copied hholds hfull hcopy host

/-! ## Where the filter is asked -/

/-- What a push does, but for its ending where the ring says that it is full. -/
def pushOr (engine : Engine σ) (ending : Record → Act σ (Except EngineError Unit × Engine σ))
    (allocator : Allocator) (kind : Kind) (source : String) (payload : List UInt8) :
    Act σ (Except EngineError Unit × Engine σ) :=
  if engine.queue.isFull then engine.push allocator kind source payload
  else
    match Record.copy allocator kind source payload with
    | .error bytes => engine.refuseStorage bytes
    | .ok record => do
      if ← engine.admits record then
        match (engine.queue.push allocator.slots record).1 with
        | .error (.full record) => ending record
        | .ok () | .error (.noStorage ..) => engine.enqueue allocator record
      else engine.turnAway

/-- A ring that was not full before the filter was asked does not say afterwards that it is. -/
theorem pushOr_eq (engine : Engine σ) (ending : Record → Act σ (Except EngineError Unit × Engine σ))
    (allocator : Allocator) (kind : Kind) (source : String) (payload : List UInt8) :
    engine.pushOr ending allocator kind source payload =
      engine.push allocator kind source payload := by
  unfold pushOr
  by_cases hfull : engine.queue.isFull
  · exact if_pos hfull
  rw [if_neg hfull]
  cases hcopy : Record.copy allocator kind source payload with
  | error bytes => exact (push_of_uncopied hfull hcopy).symm
  | ok record =>
      rw [push_of_copied hfull hcopy]
      show engine.admits record >>= _ = engine.admits record >>= _
      congr 1
      funext admitted
      cases admitted with
      | false => rfl
      | true =>
          rw [if_pos rfl, if_pos rfl]
          split
          · rename_i other hother
            -- The filter does not touch the ring, so the bound is still not reached.
            rw [Ring.push, if_neg hfull] at hother
            split at hother
            · split at hother <;> cases hother
            · cases hother
          all_goals rfl

end Engine

/-- The record about which the filter, if there is one, is asked in a step: that of a push which
finds room in the queue and storage for the copy of its payload. -/
def Step.offered (step : Step σ) : List Record :=
  match step.op with
  | .push allocator kind source payload =>
    if step.before.callbacks.filter.isSome ∧
        step.before.capacity ≠ some step.before.queue.toList.length ∧
        (payload = [] ∨ allocator.payload payload.length) then
      [⟨kind, source, payload⟩]
    else []
  | .process | .processAll | .clear | .start | .stop => []

namespace Engine

variable {engine : Engine σ}

/-- A step asks the filter about the records that it says. -/
theorem offers_step (hholds : engine.queue.Holds engine.queue.toList) (op : Op) (host : σ) :
    (engine.step op host).journal.offers = (engine.step op host).offered := by
  cases op with
  | push allocator kind source payload =>
      have hcalls := (decided_push hholds allocator kind source payload host).calls
      rw [step_of_apply_eq (engine.apply_push allocator kind source payload)]
      show ((engine.push allocator kind source payload).run host).journal.offers = ite _ _ _
      rw [← Journal.offers_calls, hcalls, fate, answer?]
      simp only [Fate.asks_of]
      cases engine.callbacks.filter with
      | none => simp [Journal.offers]
      | some filter =>
          simp only [Option.isSome_some, true_and]
          split <;> rfl
  | process => exact (engine.only_apply .process host).offers_eq_of_isDispatch
  | processAll => exact (engine.only_apply .processAll host).offers_eq_of_isDispatch
  | clear => exact (engine.only_apply .clear host).offers_eq
  | start => exact (engine.only_apply .start host).offers_eq_of_isMove
  | stop => exact (engine.only_apply .stop host).offers_eq_of_isMove

/-- Every push to a reachable engine is decided by the first case that applies. A full queue comes
before all else, whatever is pushed, and once there is room the ring never says that it is full. The
filter is asked once in each push that comes that far, and at no other time. -/
theorem push_decided (config : Config σ) (ops : List Op) (host now : σ) (allocator : Allocator)
    (kind : Kind) (source : String) (payload : List UInt8) :
    let engine := (ofConfig config).after ops host
    let record : Record := ⟨kind, source, payload⟩
    let waiting := engine.queue.toList
    let answer := config.callbacks.filter.map fun filter ↦ (filter record now).1
    let fate := Fate.of engine.capacity waiting.length engine.queue.slots.size allocator payload
      answer
    let done := (engine.push allocator kind source payload).run now
    engine.capacity = (if config.maxQueueSize = 0 then none else some config.maxQueueSize) ∧
      done.value.1 = fate.result ∧
      (∃ queue, done.value.2 = { engine with queue } ∧
        queue.toList = waiting ++ (if fate = .queued then [record] else []) ∧
        (fate ≠ .queued → queue = engine.queue)) ∧
      done.journal.calls = (if fate.asks then (answer.map (.offered record)).toList else []) ∧
      (engine.capacity = some waiting.length → ∀ allocator' kind' source' payload',
        engine.push allocator' kind' source' payload' =
          engine.push allocator kind source payload) ∧
      (∀ ending, engine.pushOr ending allocator kind source payload =
        engine.push allocator kind source payload) ∧
      (∀ step ∈ (ofConfig config).steps ops host, step.journal.offers = step.offered) ∧
      ((create config).run host).journal.offers = [] ∧
      (engine.retire.run now).journal.offers = [] := by
  intro engine record waiting answer fate done
  have hbooks : Accounts (ofConfig config) _ engine := accounts_ofConfig config ops host
  have hanswer : engine.answer? record now = answer := by
    rw [answer?, hbooks.callbacks_eq]
    rfl
  have hfate : engine.fate allocator record now = fate := by rw [Engine.fate, hanswer]
  have hdecided := decided_push hbooks.holds allocator kind source payload now
  simp only at hdecided
  rw [hfate] at hdecided
  refine ⟨hbooks.bound_eq, hdecided.result, ?_, hanswer ▸ hdecided.calls, ?_,
    fun _ ↦ pushOr_eq ..,
    forall_steps_of_holds config ops host fun _ op host hholds ↦ offers_step hholds op host,
    (quiet_create config host).offers_eq, (engine.quiet_retire now).offers_eq⟩
  · have hafter := hdecided.after
    by_cases hqueued : fate = .queued
    · rw [if_pos hqueued] at hafter ⊢
      have hlast := hbooks.holds.push_ok (hdecided.stored hqueued)
      exact ⟨_, hafter, hlast.toList_eq, fun hnot ↦ absurd hqueued hnot⟩
    · rw [if_neg hqueued] at hafter ⊢
      exact ⟨engine.queue, hafter, (List.append_nil _).symm, fun _ ↦ rfl⟩
  · intro hfull allocator' kind' source' payload'
    rw [push_of_full (hbooks.holds.isFull_iff.mpr hfull),
      push_of_full (hbooks.holds.isFull_iff.mpr hfull)]

end Engine

end EventStaging
