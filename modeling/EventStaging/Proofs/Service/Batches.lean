import EventStaging.Doubles.Bench
import EventStaging.Filters
import EventStaging.Proofs.Engine.Intake
import EventStaging.Proofs.Service.Commands

/-!
# Batches

A batch takes its requests in as they would be taken in one by one, and counts what became of them.
Nothing leaves the queue of an open engine meanwhile, so once it is full it stays full: the requests
of a known kind that meet no full queue come first, and all others after them. `Service.Takes` says
what one request does to the queue, and `Service.Fills` what many do. Main statement
(`Service.batch_in_order`): a batch is its requests in order, and those that are refused for a full
queue are the last of a known kind.
-/

namespace EventStaging

/-- Whether the kind of a request is known. -/
def Request.isKnown (request : Request) : Bool := (Kind.ofWire? request.kind).isSome

/-- The record that a request is about, if its kind is known. -/
def Request.record? (request : Request) : Option Record :=
  (Kind.ofWire? request.kind).map fun kind ↦ ⟨kind, request.source, request.payload⟩

namespace Engine

variable {σ : Type} {engine : Engine σ}

/-- A full queue comes before all else. -/
theorem fate_of_full (h : engine.capacity = some engine.queue.toList.length)
    (allocator : Allocator) (record : Record) (host : σ) :
    engine.fate allocator record host = .full engine.queue.toList.length :=
  if_pos h

/-- Where there is room, a push is refused only for want of storage. -/
theorem result_fate_of_room (h : engine.capacity ≠ some engine.queue.toList.length)
    (allocator : Allocator) (record : Record) (host : σ) :
    (engine.fate allocator record host).result = .ok () ∨
      ∃ bytes, (engine.fate allocator record host).result = .error (.allocation bytes) := by
  rw [fate, Fate.of, if_neg h]
  split
  · exact .inr ⟨_, rfl⟩
  · split
    · exact .inl rfl
    · split
      · exact .inr ⟨_, rfl⟩
      · exact .inl rfl

end Engine

namespace Service

open Doubles (Bench)

variable {σ : Type}

/-! ## Requests one by one -/

/-- Requests as commands of their own. The first of them has the number `index`, and `allocators`
gives the allocator that each of them meets. -/
def singly (allocators : Nat → Allocator) (index : Nat) (requests : List Request) : List Command :=
  (requests.zipIdx index).map fun entry ↦ .enqueue (allocators entry.2) entry.1

/-- The requests of two batches in turn are those of the one and then of the other, numbered on. -/
theorem singly_append (allocators : Nat → Allocator) (index : Nat) (first second : List Request) :
    singly allocators index (first ++ second) =
      singly allocators index first ++ singly allocators (index + first.length) second := by
  rw [singly, List.zipIdx_append, List.map_append]
  rfl

/-- The numbers of the requests may start anywhere, if those of the allocators do. -/
theorem singly_shift (allocators : Nat → Allocator) (index : Nat) (requests : List Request) :
    singly (fun number ↦ allocators (index + number)) 0 requests =
      singly allocators index requests := by
  rw [singly, singly, List.zipIdx_eq_map_add (i := index), List.map_map]
  rfl

/-- Whether a command is about an event of a known kind, or about none. -/
def Command.isKnown : Command → Bool
  | .enqueue _ request => request.isKnown
  | .enqueueBatch .. | .dispatchOne _ | .dispatchAll _ | .status | .direct _ => true

/-- What an answer says became of a request. -/
def Answer.result? : Answer → Option (Except EngineError Unit)
  | .enqueued result => some result
  | .batched _ | .dispatched _ | .reported _ | .direct _ => none

/-- What became of the requests of turns. -/
def resultsOf (turns : List (Turn (Hosted (Service σ) σ) Command Answer Journal)) :
    List (Except EngineError Unit) :=
  turns.filterMap fun turn ↦ turn.answer.result?

/-- Whether a turn accepted a request. -/
def isAccepted (turn : Turn (Hosted (Service σ) σ) Command Answer Journal) : Bool :=
  turn.answer.result?.any Except.isOk

/-- What a batch shows of the turn of one of its requests: what the turn shows, and the note under
the number of the request. -/
def noted (entry : Turn (Hosted (Service σ) σ) Command Answer Journal × Nat) : Journal :=
  entry.1.journal ++ (entry.1.answer.result?.elim [] (notes entry.2)).map .traced

variable {service : Service σ} {host : σ}

/-- The requests of a batch are taken in as they are one by one, but for the notes. -/
theorem run_enqueueFrom (service : Service σ) (allocators : Nat → Allocator) (index : Nat)
    (requests : List Request) (host : σ) :
    let start : Hosted (Service σ) σ := ⟨service, host⟩
    let turns := (system σ).history start (singly allocators index requests)
    let last := (system σ).final start (singly allocators index requests)
    (enqueueFrom allocators index service requests).run host =
      ⟨(resultsOf turns, last.object), (turns.zipIdx index).flatMap noted, last.host⟩ := by
  induction requests generalizing service index host with
  | nil => rfl
  | cons request requests ih =>
      have hitem := service.run_enqueueItem_eq (allocators index) index request host
      intro start turns last
      rw [enqueueFrom, Act.run_bind, hitem]
      simp only [Act.run_map, ih]
      rfl

/-- Every request has a result. -/
theorem length_resultsOf_singly (state : Hosted (Service σ) σ) (allocators : Nat → Allocator)
    (index : Nat) (requests : List Request) :
    (resultsOf ((system σ).history state (singly allocators index requests))).length =
      requests.length := by
  induction requests generalizing state index with
  | nil => rfl
  | cons request requests ih => exact congrArg (· + 1) (ih _ _)

/-- A batch is taken in as its requests are one after the other, with the same results and on the
same host. -/
theorem run_enqueueBatch (service : Service σ) (allocators : Nat → Allocator)
    (requests : List Request) (host : σ) :
    let start : Hosted (Service σ) σ := ⟨service, host⟩
    let turns := (system σ).history start (singly allocators 0 requests)
    let last := (system σ).final start (singly allocators 0 requests)
    (service.enqueueBatch allocators requests).run host =
      ⟨(.ofResults (resultsOf turns), last.object), turns.zipIdx.flatMap noted, last.host⟩ := by
  rw [enqueueBatch_eq, Act.run_map, run_enqueueFrom]
  rfl

/-! ## Batches in parts -/

/-- The outcome of results in turn adds up. -/
theorem ofResults_append (first second : List (Except EngineError Unit)) :
    BatchOutcome.ofResults (first ++ second) =
      ⟨(BatchOutcome.ofResults first).queued + (BatchOutcome.ofResults second).queued,
        (BatchOutcome.ofResults first).failed + (BatchOutcome.ofResults second).failed⟩ := by
  simp only [BatchOutcome.ofResults, List.countP_append]

/-- A batch may be cut in two, each part with the allocators of its requests. -/
theorem run_enqueueBatch_append (service : Service σ) (allocators : Nat → Allocator)
    (first second : List Request) (host : σ) :
    let whole := (service.enqueueBatch allocators (first ++ second)).run host
    let front := (service.enqueueBatch allocators first).run host
    let back := (front.value.2.enqueueBatch (fun number ↦ allocators (first.length + number))
      second).run front.host
    whole.value.2 = back.value.2 ∧ whole.host = back.host ∧
      whole.value.1 = ⟨front.value.1.queued + back.value.1.queued,
        front.value.1.failed + back.value.1.failed⟩ := by
  intro whole front back
  simp only [whole, front, back, run_enqueueBatch, singly_append, singly_shift, Nat.zero_add,
    System.history_append, System.final_append, true_and]
  rw [resultsOf, List.filterMap_append, ofResults_append]
  rfl

/-! ## Requests of unknown kinds, and closed engines -/

/-- A request of an unknown kind is refused by the service itself, and nothing happens. -/
theorem turn_of_unknown {request : Request} (h : request.isKnown = false)
    (state : Hosted (Service σ) σ) (allocator : Allocator) :
    (system σ).turn state (.enqueue allocator request) =
      { before := state, command := .enqueue allocator request,
        answer := .enqueued (.error (.unknownKind request.kind)), journal := [],
        after := state } := by
  have hkind : Kind.ofWire? request.kind = none := by
    rwa [Request.isKnown, Option.isSome_eq_false_iff, Option.isNone_iff_eq_none] at h
  simp only [System.turn, system, System.ofAct, execute, enqueue_of_unknown hkind]
  rfl

/-- A command whose kind is unknown changes nothing. -/
theorem after_of_unknown (state : Hosted (Service σ) σ) (command : Command)
    (h : command.isKnown = false) : ((system σ).turn state command).after = state := by
  cases command with
  | enqueue allocator request => exact congrArg Turn.after (turn_of_unknown h state allocator)
  | enqueueBatch | dispatchOne | dispatchAll | status | direct => cases h

/-- What a closed engine says to a request. -/
def refusal (request : Request) : Except EngineError Unit :=
  .error (if request.isKnown then .closed else .unknownKind request.kind)

/-- A closed engine takes no request in, and nothing happens. -/
theorem turn_of_closed (h : service.shared.engine = none) (host : σ) (allocator : Allocator)
    (request : Request) :
    (system σ).turn ⟨service, host⟩ (.enqueue allocator request) =
      { before := ⟨service, host⟩, command := .enqueue allocator request,
        answer := .enqueued (refusal request), journal := [], after := ⟨service, host⟩ } := by
  cases hknown : request.isKnown with
  | false =>
      rw [turn_of_unknown hknown, refusal, hknown]
      rfl
  | true =>
      obtain ⟨kind, hkind⟩ := Option.isSome_iff_exists.mp hknown
      simp only [System.turn, system, System.ofAct, execute, enqueue_of_closed hkind h, refusal,
        hknown]
      rfl

/-- A closed engine refuses every request, and nothing changes. -/
theorem history_of_closed (h : service.shared.engine = none) (host : σ)
    (allocators : Nat → Allocator) (index : Nat) (requests : List Request) :
    let commands := singly allocators index requests
    resultsOf ((system σ).history ⟨service, host⟩ commands) = requests.map refusal ∧
      (system σ).final ⟨service, host⟩ commands = ⟨service, host⟩ := by
  induction requests generalizing index with
  | nil => exact ⟨rfl, rfl⟩
  | cons request requests ih =>
      obtain ⟨hresults, hfinal⟩ := ih (index + 1)
      have hturn := turn_of_closed h host (allocators index) request
      show resultsOf ((system σ).turn _ _ :: (system σ).history ((system σ).turn _ _).after _) = _ ∧
        (system σ).final ((system σ).turn _ _).after _ = _
      rw [hturn]
      exact ⟨congrArg (refusal request :: ·) hresults, hfinal⟩

/-- When every request is refused, all of them have failed. -/
theorem ofResults_refusal (requests : List Request) :
    BatchOutcome.ofResults (requests.map refusal) = ⟨0, requests.length⟩ := by
  have hnone : ∀ request, (refusal request).isOk = false := fun _ ↦ rfl
  simp [BatchOutcome.ofResults, List.countP_map, Function.comp_def, hnone]

/-! ## Requests to an open engine -/

/-- An answer to a request that met no full queue: it was accepted, or refused for want of
storage. -/
inductive Answer.Fits : Answer → Prop where
  | accepted : Fits (.enqueued (.ok ()))
  | unstored (bytes : Nat) : Fits (.enqueued (.error (.allocation bytes)))

/-- A turn refused a request for a full queue, without asking the filter. -/
structure TurnsAway (capacity : Option Nat)
    (turn : Turn (Hosted (Service σ) σ) Command Answer Journal) : Prop where
  answer_eq : ∃ max, capacity = some max ∧ turn.answer = .enqueued (.error (.queueFull max))
  calls_eq : turn.journal.calls = []

/-- The record that a turn put into the queue: that of a request which was accepted and about which
no filter answered no. -/
def queuedIn (turn : Turn (Hosted (Service σ) σ) Command Answer Journal) : List Record :=
  match turn.command, turn.answer with
  | .enqueue _ request, .enqueued (.ok ()) =>
    if turn.journal.verdicts.contains (.returned false) then [] else request.record?.toList
  | _, _ => []

/-- A turn takes a request in at an open engine. -/
structure Takes (before : Engine σ) (turn : Turn (Hosted (Service σ) σ) Command Answer Journal)
    (after : Engine σ) : Prop where
  queue_eq : after.queue.toList = before.queue.toList ++ queuedIn turn
  capacity_eq : after.capacity = before.capacity
  fits : turn.command.isKnown → before.capacity ≠ some before.queue.toList.length →
    turn.answer.Fits
  turnsAway : turn.command.isKnown → before.capacity = some before.queue.toList.length →
    TurnsAway before.capacity turn
  unknown : turn.command.isKnown = false → isAccepted turn = false

variable {first last engine : Engine σ}
  {turn : Turn (Hosted (Service σ) σ) Command Answer Journal}
  {turns : List (Turn (Hosted (Service σ) σ) Command Answer Journal)}

/-- A request of a known kind does what the push does; if it is accepted, that is noted. -/
theorem turn_of_open {request : Request} {kind : Kind}
    (hkind : Kind.ofWire? request.kind = some kind) (hopen : service.shared.engine = some engine)
    (allocator : Allocator) (host : σ) :
    let turn := (system σ).turn ⟨service, host⟩ (.enqueue allocator request)
    let done := (engine.push allocator kind request.source request.payload).run host
    ∃ events : List Trace.Event, turn.answer = .enqueued done.value.1 ∧
      turn.journal = done.journal ++ events.map .traced ∧
      turn.after.object = service.withEngine done.value.2 := by
  intro turn done
  have hstep := Engine.step_of_apply_eq
    (engine.apply_push allocator kind request.source request.payload) host
  rcases run_enqueue_of_open hkind hopen allocator host with ⟨error, hreply, hrun⟩ | ⟨hreply, hrun⟩
  · rw [hstep] at hreply hrun
    have hresult : done.value.1 = .error error := Reply.ofPush_eq_refused_iff.mp hreply
    refine ⟨[], ?_⟩
    simp only [turn, System.turn, system, System.ofAct, execute, Act.run_map, hrun, hresult]
    exact ⟨rfl, (List.append_nil _).symm, rfl⟩
  · rw [hstep] at hreply hrun
    have hresult : done.value.1 = .ok () := Reply.ofPush_eq_accepted_iff.mp hreply
    refine ⟨[.eventReceived kind request.source], ?_⟩
    simp only [turn, System.turn, system, System.ofAct, execute, Act.run_map, hrun, hresult]
    exact ⟨rfl, rfl, rfl⟩

/-- A request of a known kind puts into the queue what the push admits. -/
theorem queuedIn_of_known {request : Request} {kind : Kind}
    (hkind : Kind.ofWire? request.kind = some kind) (hopen : service.shared.engine = some engine)
    (allocator : Allocator) (host : σ) :
    queuedIn ((system σ).turn ⟨service, host⟩ (.enqueue allocator request)) =
      (engine.step (.push allocator kind request.source request.payload) host).admitted := by
  obtain ⟨events, hanswer, hjournal, -⟩ := turn_of_open hkind hopen allocator host
  have hverdicts := congrArg Journal.verdicts hjournal
  rw [Journal.verdicts_append, (Journal.Only.traced events).verdicts_eq, List.append_nil]
    at hverdicts
  have hrecord : request.record? = some ⟨kind, request.source, request.payload⟩ := by
    rw [Request.record?, hkind]
    rfl
  rw [queuedIn, hanswer, hverdicts, Engine.step_of_apply_eq (engine.apply_push ..)]
  simp only [Step.admitted, Prod.map]
  cases ((engine.push allocator kind request.source request.payload).run host).value.1 with
  | error error => rfl
  | ok _ =>
      show ite _ [] request.record?.toList = ite _ _ _
      simp only [hrecord, List.contains_iff_mem, Option.toList_some]

/-- A request of a known kind is taken in. -/
theorem takes_of_known {request : Request} {kind : Kind}
    (hkind : Kind.ofWire? request.kind = some kind) (hopen : service.shared.engine = some engine)
    (hholds : engine.queue.Holds engine.queue.toList) (allocator : Allocator) (host : σ) :
    let turn := (system σ).turn ⟨service, host⟩ (.enqueue allocator request)
    ∃ after, turn.after.object.shared.engine = some after ∧
      after.queue.Holds after.queue.toList ∧ Takes engine turn after := by
  intro turn
  obtain ⟨events, hanswer, hjournal, hafter⟩ := turn_of_open hkind hopen allocator host
  have hbooks := Accounts.step_push hholds allocator kind request.source request.payload host
  have hdecided := Engine.decided_push hholds allocator kind request.source request.payload host
  have hqueued := queuedIn_of_known hkind hopen allocator host
  refine ⟨_, congrArg (·.shared.engine) hafter, ?_⟩
  rw [Engine.step_of_apply_eq (engine.apply_push ..)] at hbooks hqueued
  refine ⟨hbooks.holds, ?_⟩
  constructor
  case queue_eq =>
    have hqueue := hbooks.queue_eq
    rw [Engine.admitted, List.flatMap_singleton, ← hqueued] at hqueue
    exact hqueue.symm
  case capacity_eq => exact hbooks.bound_eq
  case fits =>
    intro _ hroom
    rw [hanswer, hdecided.result]
    rcases Engine.result_fate_of_room hroom _ _ _ with hok | ⟨bytes, herror⟩
    · rw [hok]
      exact .accepted
    · rw [herror]
      exact .unstored bytes
  -- A full queue is found before the filter is asked, so there are no calls.
  case turnsAway =>
    intro _ hfull
    have hfate := Engine.fate_of_full hfull allocator ⟨kind, request.source, request.payload⟩ host
    constructor
    · refine ⟨_, hfull, ?_⟩
      rw [hanswer, hdecided.result, hfate]
      rfl
    · rw [hjournal, Journal.calls_append, (Journal.Only.traced events).calls_eq, List.append_nil,
        hdecided.calls, hfate]
      rfl
  case unknown =>
    intro hunknown
    have hknown : Command.isKnown (.enqueue allocator request) = true := by
      rw [Command.isKnown, Request.isKnown, hkind]
      rfl
    cases hknown.symm.trans hunknown

/-- A request of an unknown kind is not taken in. -/
theorem takes_of_unknown {request : Request} (h : request.isKnown = false)
    (state : Hosted (Service σ) σ) (allocator : Allocator) :
    Takes engine ((system σ).turn state (.enqueue allocator request)) engine := by
  have hnot : ¬ Command.isKnown (.enqueue allocator request) := by
    rw [Command.isKnown, h]
    exact Bool.false_ne_true
  rw [turn_of_unknown h]
  exact ⟨(List.append_nil _).symm, rfl, fun hknown ↦ absurd hknown hnot,
    fun hknown ↦ absurd hknown hnot, fun _ ↦ rfl⟩

/-- Only a request that was accepted puts a record into the queue. -/
theorem queuedIn_of_not_accepted (h : isAccepted turn = false) : queuedIn turn = [] := by
  unfold queuedIn
  split
  case h_1 hanswer =>
    rw [isAccepted, hanswer] at h
    cases h
  case h_2 => rfl

/-- A request that meets no full queue is accepted, if there is storage enough. -/
theorem Answer.Fits.isAccepted (h : turn.answer.Fits)
    (hstorage : ∀ bytes, turn.answer ≠ .enqueued (.error (.allocation bytes))) :
    isAccepted turn := by
  rw [Service.isAccepted]
  generalize turn.answer = answer at h hstorage
  cases h with
  | accepted => rfl
  | unstored bytes => exact absurd rfl (hstorage bytes)

/-- A request that is turned away is not accepted. -/
theorem TurnsAway.not_accepted {capacity : Option Nat} (h : TurnsAway capacity turn) :
    isAccepted turn = false := by
  obtain ⟨max, -, hanswer⟩ := h.answer_eq
  rw [isAccepted, hanswer]
  rfl

/-- A queue that is full stays full. -/
theorem Takes.full {before after : Engine σ} (h : Takes before turn after)
    (hfull : before.capacity = some before.queue.toList.length) :
    after.capacity = some after.queue.toList.length := by
  have hnot : isAccepted turn = false := by
    cases hknown : turn.command.isKnown with
    | false => exact h.unknown hknown
    | true => exact (h.turnsAway hknown hfull).not_accepted
  rw [h.capacity_eq, h.queue_eq, queuedIn_of_not_accepted hnot, List.append_nil, hfull]

/-! ## Many requests to an open engine -/

/-- Turns take requests in at an open engine, one after the other. -/
inductive Fills : Engine σ → List (Turn (Hosted (Service σ) σ) Command Answer Journal) →
    Engine σ → Prop where
  | nil (engine : Engine σ) : Fills engine [] engine
  | cons {first middle last : Engine σ}
    {turn : Turn (Hosted (Service σ) σ) Command Answer Journal}
    {turns : List (Turn (Hosted (Service σ) σ) Command Answer Journal)}
    (htakes : Takes first turn middle) (hrest : Fills middle turns last) :
    Fills first (turn :: turns) last

/-- Requests to an open engine, one after the other, fill its queue. -/
theorem fills_history (hopen : service.shared.engine = some engine)
    (hholds : engine.queue.Holds engine.queue.toList) (host : σ) (allocators : Nat → Allocator)
    (index : Nat) (requests : List Request) :
    let commands := singly allocators index requests
    ∃ last, ((system σ).final ⟨service, host⟩ commands).object.shared.engine = some last ∧
      Fills engine ((system σ).history ⟨service, host⟩ commands) last := by
  induction requests generalizing service engine host index with
  | nil => exact ⟨engine, hopen, .nil engine⟩
  | cons request requests ih =>
      cases hknown : request.isKnown with
      | false =>
          have hafter := congrArg Turn.after
            (turn_of_unknown hknown ⟨service, host⟩ (allocators index))
          obtain ⟨last, hlast, hfills⟩ := ih hopen hholds host (index + 1)
          refine ⟨last, ?_, .cons (takes_of_unknown hknown _ _) ?_⟩
          · show ((system σ).final (Turn.after _) _).object.shared.engine = _
            rw [hafter]
            exact hlast
          · rw [hafter]
            exact hfills
      | true =>
          obtain ⟨kind, hkind⟩ := Option.isSome_iff_exists.mp hknown
          obtain ⟨middle, hmiddle, hmore, htakes⟩ :=
            takes_of_known hkind hopen hholds (allocators index) host
          obtain ⟨last, hlast, hfills⟩ := ih hmiddle hmore _ (index + 1)
          exact ⟨last, hlast, .cons htakes hfills⟩

namespace Fills

/-- Records join the queue in the order of their requests, and none leaves it. -/
theorem queue_eq (h : Fills first turns last) :
    last.queue.toList = first.queue.toList ++ turns.flatMap queuedIn := by
  induction h with
  | nil => exact (List.append_nil _).symm
  | cons htakes _ ih => rw [ih, htakes.queue_eq, List.append_assoc, List.flatMap_cons]

/-- Only requests of a known kind are accepted. -/
theorem known_of_accepted (h : Fills first turns last) :
    ∀ turn ∈ turns, isAccepted turn → turn.command.isKnown := by
  induction h with
  | nil => exact List.forall_mem_nil _
  | cons htakes _ ih =>
      rintro turn hmem haccepted
      rcases List.mem_cons.mp hmem with rfl | hmem
      · by_contra hunknown
        rw [htakes.unknown (eq_false_of_ne_true hunknown)] at haccepted
        cases haccepted
      · exact ih turn hmem haccepted

/-- The requests of known kinds that find room come first, and those that are turned away last. -/
theorem split (h : Fills first turns last) :
    ∃ early late, turns.filter (·.command.isKnown) = early ++ late ∧
      (∀ turn ∈ early, turn.answer.Fits) ∧ (∀ turn ∈ late, TurnsAway first.capacity turn) ∧
      (first.capacity = some first.queue.toList.length → early = []) := by
  induction h with
  | nil => exact ⟨[], [], rfl, List.forall_mem_nil _, List.forall_mem_nil _, fun _ ↦ rfl⟩
  | @cons first middle last turn turns htakes _ ih =>
      -- A queue that is full already is full for the rest, so that nothing of the rest is early.
      obtain ⟨early, late, hsplit, hfits, haway, hfirst⟩ := ih
      rw [htakes.capacity_eq] at haway
      by_cases hknown : turn.command.isKnown
      case neg =>
        rw [List.filter_cons_of_neg (by exact hknown)]
        exact ⟨early, late, hsplit, hfits, haway, fun hfull ↦ hfirst (htakes.full hfull)⟩
      rw [List.filter_cons_of_pos (by exact hknown), hsplit]
      by_cases hfull : first.capacity = some first.queue.toList.length
      · obtain rfl := hfirst (htakes.full hfull)
        refine ⟨[], turn :: late, rfl, List.forall_mem_nil _, ?_, fun _ ↦ rfl⟩
        exact List.forall_mem_cons.mpr ⟨htakes.turnsAway hknown hfull, haway⟩
      · refine ⟨turn :: early, late, rfl, ?_, haway, fun h ↦ absurd h hfull⟩
        exact List.forall_mem_cons.mpr ⟨htakes.fits hknown hfull, hfits⟩

/-- If there is storage enough, the requests that are accepted are the first of a known kind. -/
theorem accepted_prefix (h : Fills first turns last)
    (hstorage : ∀ bytes, .error (.allocation bytes) ∉ resultsOf turns) :
    turns.filter isAccepted <+: turns.filter (·.command.isKnown) := by
  obtain ⟨early, late, hsplit, hfits, haway, -⟩ := h.split
  have hearly : ∀ turn ∈ early, isAccepted turn := by
    intro turn hmem
    have hturn : turn ∈ turns :=
      (List.mem_filter.mp (hsplit ▸ List.mem_append_left late hmem)).1
    refine (hfits turn hmem).isAccepted fun bytes hanswer ↦ hstorage bytes ?_
    refine List.mem_filterMap.mpr ⟨turn, hturn, ?_⟩
    rw [hanswer]
    rfl
  have hlate : ∀ turn ∈ late, ¬ isAccepted turn := by
    intro turn hmem
    rw [(haway turn hmem).not_accepted]
    exact Bool.false_ne_true
  -- An accepted request is of a known kind, so nothing is lost by looking at those alone.
  have haccepted : turns.filter isAccepted = early := by
    calc
      turns.filter isAccepted = (turns.filter (·.command.isKnown)).filter isAccepted := by
        rw [List.filter_filter]
        refine List.filter_congr fun turn hmem ↦ ?_
        cases haccepted : isAccepted turn with
        | false => rfl
        | true => exact (h.known_of_accepted turn hmem haccepted).symm
      _ = early := by
        rw [hsplit, List.filter_append, List.filter_eq_self.mpr hearly,
          List.filter_eq_nil_iff.mpr hlate, List.append_nil]
  rw [haccepted, hsplit]
  exact List.prefix_append early late

end Fills

/-- A batch takes its requests in as they are taken in one by one: the service, the metrics and all
else on the host are the same afterwards, and so is what was observed, but for a note on each
refusal. Its outcome counts the results, and two batches in a row are one, with the outcomes added.
Requests of an unknown kind are refused and make no difference to the others.
A closed engine refuses all requests. At an open engine those of a known kind that meet a full queue
come after all others of a known kind, and the filter is not asked about them; so if there is
storage enough, those that are accepted are the first. The records that are queued follow each other
in the order of their requests. -/
theorem batch_in_order (service : Service σ) (host : σ) (allocators : Nat → Allocator)
    (requests : List Request) :
    let start : Hosted (Service σ) σ := ⟨service, host⟩
    let commands := singly allocators 0 requests
    let turns := (system σ).history start commands
    let last := (system σ).final start commands
    let results := resultsOf turns
    let known := turns.filter (·.command.isKnown)
    let batch := (service.enqueueBatch allocators requests).run host
    (batch = ⟨(.ofResults results, last.object), turns.zipIdx.flatMap noted, last.host⟩ ∧
      results.length = requests.length ∧
      batch.value.1.queued = results.countP Except.isOk ∧
      batch.value.1.queued + batch.value.1.failed = requests.length) ∧
      (∀ first second, first ++ second = requests →
        let front := (service.enqueueBatch allocators first).run host
        let back := (front.value.2.enqueueBatch (fun number ↦ allocators (first.length + number))
          second).run front.host
        batch.value.2 = back.value.2 ∧ batch.host = back.host ∧
          batch.value.1 = ⟨front.value.1.queued + back.value.1.queued,
            front.value.1.failed + back.value.1.failed⟩) ∧
      ((∀ turn ∈ turns, ∀ allocator request, turn.command = .enqueue allocator request →
          request.isKnown = false → turn.answer = .enqueued (.error (.unknownKind request.kind)) ∧
            turn.journal = [] ∧ turn.after = turn.before) ∧
        (system σ).history start (commands.filter Command.isKnown) = known ∧
        (system σ).final start (commands.filter Command.isKnown) = last) ∧
      (service.shared.engine = none →
        results = requests.map refusal ∧ last = start ∧ batch.value.1 = ⟨0, requests.length⟩) ∧
      ∀ config ops past,
        let engine := (Engine.ofConfig config).after ops past
        service.shared.engine = some engine →
          (∃ early late, known = early ++ late ∧ (∀ turn ∈ early, turn.answer.Fits) ∧
            ∀ turn ∈ late, TurnsAway engine.capacity turn) ∧
          ((∀ bytes, .error (.allocation bytes) ∉ results) → turns.filter isAccepted <+: known) ∧
          ∃ after, last.object.shared.engine = some after ∧
            after.queue.toList = engine.queue.toList ++ turns.flatMap queuedIn := by
  intro start commands turns last results known batch
  have hbatch : batch = _ := run_enqueueBatch service allocators requests host
  have hlength : results.length = requests.length := length_resultsOf_singly start allocators 0 _
  refine ⟨⟨hbatch, hlength, ?_, ?_⟩, ?_, ⟨?_, System.history_filter after_of_unknown commands⟩,
    ?_, ?_⟩
  · rw [hbatch]
    rfl
  · rw [hbatch, ← hlength]
    exact BatchOutcome.queued_add_failed results
  · rintro first second rfl
    exact run_enqueueBatch_append service allocators first second host
  · intro turn hmem allocator request hcommand hunknown
    rw [System.eq_turn_of_mem_history hmem, hcommand, turn_of_unknown hunknown]
    exact ⟨rfl, rfl, rfl⟩
  · intro hclosed
    obtain ⟨hresults, hlast⟩ := history_of_closed hclosed host allocators 0 requests
    refine ⟨hresults, hlast, ?_⟩
    rw [hbatch]
    exact (congrArg BatchOutcome.ofResults hresults).trans (ofResults_refusal requests)
  · intro config ops past engine hopen
    have hholds := (Engine.accounts_ofConfig config ops past).holds
    obtain ⟨after, hafter, hfills⟩ := fills_history hopen hholds host allocators 0 requests
    obtain ⟨early, late, hsplit, hfits, haway, -⟩ := hfills.split
    exact ⟨⟨early, late, hsplit, hfits, haway⟩, hfills.accepted_prefix, after, hafter,
      hfills.queue_eq⟩

/-- The filter turns the first request away, the second is of an unknown kind, and the third takes
the only place. The fourth is refused, though the filter would have turned it away as well. -/
example :
    let config : Config Bench :=
      { name := "small"
        maxQueueSize := 1
        callbacks := { filter := some (SourceBlocklist.filter ⟨["noise"]⟩) } }
    let service : Service Bench :=
      { shared := .ofEngine (.ofConfig config), metrics := Bench.metricsCell }
    let requests : List Request :=
      [⟨0, "noise", []⟩, ⟨99, "a", []⟩, ⟨1, "a", []⟩, ⟨0, "noise", []⟩, ⟨0, "b", []⟩]
    ((service.enqueueBatch (fun _ ↦ .unlimited) requests).run {}).value.1 = ⟨2, 3⟩ := by
  decide +kernel

end Service

end EventStaging
