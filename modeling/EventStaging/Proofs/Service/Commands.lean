import EventStaging.Proofs.Engine.Custody
import EventStaging.Proofs.Shared.Calls
import EventStaging.Service

/-!
# Commands to a service

What can be done with a service and with the engine behind it, as data, and a service as a system
that is given commands. The second part says what the functions of a service do while its engine is
open and when it is closed.
-/

namespace EventStaging

/-- The label under which a request is counted, if its kind is known. -/
def Request.label? (request : Request) : Option Label :=
  (Kind.ofWire? request.kind).map fun kind ↦ ⟨kind, request.source⟩

namespace Service

variable {σ : Type}

/-! ## Commands -/

/-- What can be done with a service: a request or the requests of a batch are taken in, one record
or every record is dispatched, the status is asked for, or something is done with the engine
directly. -/
inductive Command where
  | enqueue (allocator : Allocator) (request : Request)
  | enqueueBatch (allocators : Nat → Allocator) (requests : List Request)
  | dispatchOne (elapsed : Duration)
  | dispatchAll (elapsed : Duration)
  | status
  | direct (call : Shared.Call)

/-- What a command answers: what became of a request or of each request of a batch, what a dispatch
did, the status, or the answer of the engine. -/
inductive Answer where
  | enqueued (result : Except EngineError Unit)
  | batched (results : List (Except EngineError Unit))
  | dispatched (result : Except EngineError DispatchReport)
  | reported (status : StatusReport)
  | direct (answer : Shared.Answer)

/-- Carries a command out by the function of its name. -/
def execute (service : Service σ) : Command → Act σ (Answer × Service σ)
  | .enqueue allocator request => Prod.map .enqueued id <$> service.enqueue allocator request
  | .enqueueBatch allocators requests =>
    Prod.map .batched id <$> enqueueFrom allocators 0 service requests
  | .dispatchOne elapsed => Prod.map .dispatched id <$> service.dispatchOne elapsed
  | .dispatchAll elapsed => Prod.map .dispatched id <$> service.dispatchAll elapsed
  | .status => (fun status ↦ (.reported status, service)) <$> service.status
  | .direct call =>
    Prod.map .direct (fun shared ↦ { service with shared }) <$> service.shared.call call

/-- A service as a system that is given commands. -/
def system (σ : Type) : System (Hosted (Service σ) σ) Command Answer Journal := .ofAct execute

open Act (Only)

variable {service : Service σ} {engine : Engine σ} {allocator : Allocator} {request : Request}
  {kind : Kind} {host : σ}

/-- A batch answers by the counts of what became of its requests. -/
theorem enqueueBatch_eq (service : Service σ) (allocators : Nat → Allocator)
    (requests : List Request) :
    service.enqueueBatch allocators requests =
      Prod.map BatchOutcome.ofResults id <$> enqueueFrom allocators 0 service requests := by
  rw [enqueueBatch, ← bind_pure_comp]
  rfl

/-! ## What the turns of a service tell -/

/-- The labels of the requests that were accepted. -/
def acceptedOf (requests : List Request) (results : List (Except EngineError Unit)) : List Label :=
  (requests.zip results).filterMap fun entry ↦ if entry.2.isOk then entry.1.label? else none

/-- The labels accepted in a batch are that of the first request, if it was accepted, and those of
the others. -/
theorem acceptedOf_cons (request : Request) (requests : List Request)
    (result : Except EngineError Unit) (results : List (Except EngineError Unit)) :
    acceptedOf (request :: requests) (result :: results) =
      acceptedOf [request] [result] ++ acceptedOf requests results := by
  rw [acceptedOf, List.zip_cons_cons, ← List.singleton_append, List.filterMap_append]
  rfl

/-- The labels of the requests that a turn accepted, one by one or in a batch. -/
def acceptedIn (turn : Turn (Hosted (Service σ) σ) Command Answer Journal) : List Label :=
  match turn.command, turn.answer with
  | .enqueue _ request, .enqueued result => acceptedOf [request] [result]
  | .enqueueBatch _ requests, .batched results => acceptedOf requests results
  | _, _ => []

/-- A command to the service dispatches by an operation of the engine, in the time that it takes. -/
inductive Command.IsDispatch : Command → Op → Duration → Prop where
  | one (elapsed : Duration) : IsDispatch (.dispatchOne elapsed) .process elapsed
  | all (elapsed : Duration) : IsDispatch (.dispatchAll elapsed) .processAll elapsed

/-- The operation of the engine by which a command dispatches. -/
def Command.dispatch? : Command → Option Op
  | .dispatchOne _ => some .process
  | .dispatchAll _ => some .processAll
  | .direct (.perform op) => some op
  | .enqueue .. | .enqueueBatch .. | .status | .direct .close => none

/-- The records that a command takes out of the queue to dispatch them. -/
def dispatches (service : Service σ) (command : Command) : List Record :=
  match service.shared.engine, command.dispatch? with
  | some engine, some op => (engine.removals op).filterMap Removal.dispatched?
  | _, _ => []

/-- A command that is no dispatch dispatches nothing. -/
theorem dispatches_of_none {command : Command} (h : command.dispatch? = none) :
    service.dispatches command = [] := by
  rw [dispatches, h]
  cases service.shared.engine <;> rfl

/-- A closed engine dispatches nothing. -/
theorem dispatches_of_closed (h : service.shared.engine = none) (command : Command) :
    service.dispatches command = [] := by
  rw [dispatches, h]

/-- A dispatch dispatches what the operation of the engine does. -/
theorem dispatches_of_open (h : service.shared.engine = some engine) {command : Command} {op : Op}
    (hop : command.dispatch? = some op) (host : σ) :
    service.dispatches command = Engine.dispatched [engine.step op host] := by
  rw [Engine.dispatched, Engine.removed_singleton, dispatches, h, hop]
  rfl

/-- Whether a turn answered that it dispatched. -/
def isTimed (turn : Turn (Hosted (Service σ) σ) Command Answer Journal) : Bool :=
  match turn.answer with
  | .dispatched result => result.isOk
  | _ => false

/-- An answer says that a request or a dispatch was refused. -/
inductive Answer.Refuses : Answer → Prop where
  | enqueued (error : EngineError) : Refuses (.enqueued (.error error))
  | dispatched (error : EngineError) : Refuses (.dispatched (.error error))

/-- A command pushes an event past the service. -/
inductive Command.Bypasses : Command → Prop where
  | push (allocator : Allocator) (kind : Kind) (source : String) (payload : List UInt8) :
    Bypasses (.direct (.perform (.push allocator kind source payload)))

/-- The labels of the requests that turns accepted. -/
def accepted (turns : List (Turn (Hosted (Service σ) σ) Command Answer Journal)) : List Label :=
  turns.flatMap acceptedIn

/-- The records that turns dispatched. -/
def dispatched (turns : List (Turn (Hosted (Service σ) σ) Command Answer Journal)) : List Record :=
  turns.flatMap fun turn ↦ turn.before.object.dispatches turn.command

/-! ## Functions of a service -/

/-- A request of an unknown kind is refused before the engine is asked. -/
theorem enqueue_of_unknown (h : Kind.ofWire? request.kind = none) :
    service.enqueue allocator request = pure (.error (.unknownKind request.kind), service) := by
  rw [enqueue, h]

/-- A closed engine refuses every request of a known kind. -/
theorem enqueue_of_closed (hkind : Kind.ofWire? request.kind = some kind)
    (h : service.shared.engine = none) :
    service.enqueue allocator request = pure (.error .closed, service) := by
  rw [enqueue, hkind]
  simp only [Shared.push, Shared.withEngine_of_closed h, pure_bind]
  rfl

/-- A service after its engine has done something. -/
def withEngine (service : Service σ) (engine : Engine σ) : Service σ :=
  { service with shared := { service.shared with engine := some engine } }

/-- A request that the engine refuses is refused, and one that it takes is counted, and the queue
size is taken down. -/
theorem run_enqueue_of_open (hkind : Kind.ofWire? request.kind = some kind)
    (h : service.shared.engine = some engine) (allocator : Allocator) (host : σ) :
    let step := engine.step (.push allocator kind request.source request.payload) host
    let next := service.withEngine step.after
    (∃ error, step.reply = .refused error ∧ (service.enqueue allocator request).run host =
        ⟨(.error error, next), step.journal, step.host⟩) ∨
      (step.reply = .accepted ∧ (service.enqueue allocator request).run host =
        ⟨(.ok (), next), step.journal ++ [.traced (.eventReceived kind request.source)],
          service.metrics.modify (Metrics.setQueueSize step.after.queueSize)
            (service.metrics.modify (Metrics.recordReceived ⟨kind, request.source⟩) step.host)⟩) := by
  intro step next
  have hstep : step = _ := Engine.step_of_apply_eq (engine.apply_push ..) host
  simp only [next, hstep, enqueue, hkind, Shared.push_of_open h, bind_map_left, Act.run_bind,
    Prod.map, id]
  cases ((engine.push allocator kind request.source request.payload).run host).value.1 with
  | error error => exact .inl ⟨error, rfl, congrArg (Done.mk _ · _) (List.append_nil _)⟩
  | ok _ => exact .inr ⟨rfl, rfl⟩

/-- All that can become of a request. Either its kind is unknown or the engine closed, and nothing is
done; or it is pushed, and what the engine refuses is refused, and what it takes is counted. -/
theorem enqueue_cases (service : Service σ) (allocator : Allocator) (request : Request) (host : σ) :
    ((∀ kind, Kind.ofWire? request.kind = some kind → service.shared.engine = none) ∧
        ∃ error, (service.enqueue allocator request).run host =
          ⟨(.error error, service), [], host⟩) ∨
      ∃ kind engine, Kind.ofWire? request.kind = some kind ∧
        service.shared.engine = some engine ∧
        let step := engine.step (.push allocator kind request.source request.payload) host
        let next := service.withEngine step.after
        (∃ error, step.reply = .refused error ∧ (service.enqueue allocator request).run host =
            ⟨(.error error, next), step.journal, step.host⟩) ∨
          (step.reply = .accepted ∧ (service.enqueue allocator request).run host =
            ⟨(.ok (), next), step.journal ++ [.traced (.eventReceived kind request.source)],
              service.metrics.modify (Metrics.setQueueSize step.after.queueSize)
                (service.metrics.modify (Metrics.recordReceived ⟨kind, request.source⟩)
                  step.host)⟩) := by
  cases hkind : Kind.ofWire? request.kind with
  | none =>
      refine .inl ⟨nofun, .unknownKind request.kind, ?_⟩
      rw [enqueue_of_unknown hkind]
      rfl
  | some kind =>
      cases hopen : service.shared.engine with
      | none =>
          refine .inl ⟨fun _ _ ↦ rfl, .closed, ?_⟩
          rw [enqueue_of_closed hkind hopen]
          rfl
      | some engine =>
          exact .inr ⟨kind, engine, rfl, rfl, run_enqueue_of_open hkind hopen allocator host⟩

/-- The trace events about what became of the request of that number in a batch: one if it was
refused. -/
def notes (index : Nat) : Except EngineError Unit → List Trace.Event
  | .ok () => []
  | .error error => [.batchItemFailed index error]

/-- In a batch a request is taken in as by itself, but for the note on a refusal. -/
theorem run_enqueueItem_eq (service : Service σ) (allocator : Allocator) (index : Nat)
    (request : Request) (host : σ) :
    let done := (service.enqueue allocator request).run host
    (service.enqueueItem allocator index request).run host =
      ⟨done.value, done.journal ++ (notes index done.value.1).map .traced, done.host⟩ := by
  intro done
  rcases hvalue : done.value with ⟨_ | _, next⟩
  case error error =>
      rw [enqueueItem, Act.run_bind, hvalue]
      rfl
  case ok =>
      rw [enqueueItem, Act.run_bind, hvalue]
      rfl

/-- In a batch a request is taken in as by itself; a refusal is reported. -/
theorem run_enqueueItem (service : Service σ) (allocator : Allocator) (index : Nat)
    (request : Request) (host : σ) :
    let done := (service.enqueue allocator request).run host
    ∃ events : List Trace.Event, (service.enqueueItem allocator index request).run host =
      ⟨done.value, done.journal ++ events.map .traced, done.host⟩ :=
  ⟨_, service.run_enqueueItem_eq allocator index request host⟩

/-- A closed engine refuses a single dispatch. -/
theorem dispatchOne_of_closed (h : service.shared.engine = none) (elapsed : Duration) :
    service.dispatchOne elapsed = pure (.error .closed, service) := by
  simp only [dispatchOne, Shared.process, Shared.withEngine_of_closed h, pure_bind]

/-- A closed engine refuses to dispatch everything. -/
theorem dispatchAll_of_closed (h : service.shared.engine = none) (elapsed : Duration) :
    service.dispatchAll elapsed = pure (.error .closed, service) := by
  simp only [dispatchAll, Shared.processAll, Shared.withEngine_of_closed h, pure_bind]

/-- The host after a dispatch was noted: the duration is taken in, and the queue size taken down. -/
def timed (service : Service σ) (elapsed : Duration) (size : Nat) (host : σ) : σ :=
  service.metrics.modify (Metrics.setQueueSize size)
    (service.metrics.modify (Metrics.observeDispatch elapsed) host)

/-- A single dispatch of an open engine does what the operation does, notes how long it took, and
takes down the size of the queue. -/
theorem run_dispatchOne_of_open (h : service.shared.engine = some engine) (elapsed : Duration)
    (host : σ) :
    let step := engine.step .process host
    (service.dispatchOne elapsed).run host =
      ⟨(.ok ⟨(engine.process.run host).value.1.toNat, elapsed⟩, service.withEngine step.after),
        step.journal, service.timed elapsed step.after.queueSize step.host⟩ := by
  intro step
  simp only [step, Engine.step_of_apply_eq engine.apply_process, dispatchOne, Shared.process,
    Shared.withEngine_of_open h, bind_map_left, Act.run_bind]
  exact congrArg (Done.mk _ · _) (List.append_nil _)

/-- Dispatching everything does what the operation does, notes how long it took, and takes down the
size of the queue. -/
theorem run_dispatchAll_of_open (h : service.shared.engine = some engine) (elapsed : Duration)
    (host : σ) :
    let step := engine.step .processAll host
    let processed := (engine.processAll.run host).value.1
    (service.dispatchAll elapsed).run host =
      ⟨(.ok ⟨processed, elapsed⟩, service.withEngine step.after),
        step.journal ++ [.traced (.dispatchComplete processed)],
        service.timed elapsed step.after.queueSize step.host⟩ := by
  intro step processed
  simp only [step, Engine.step_of_apply_eq engine.apply_processAll, dispatchAll, Shared.processAll,
    Shared.withEngine_of_open h, bind_map_left, Act.run_bind]
  rfl

/-- A dispatch does what the engine does, and is noted. -/
theorem turn_dispatch_of_open {command : Command} {op : Op} {elapsed : Duration}
    (hcommand : command.IsDispatch op elapsed) (h : service.shared.engine = some engine) (host : σ) :
    let step := engine.step op host
    ∃ report, ∃ events : List Trace.Event, (system σ).turn ⟨service, host⟩ command =
      { before := ⟨service, host⟩, command, answer := .dispatched (.ok report),
        journal := step.journal ++ events.map .traced,
        after := ⟨service.withEngine step.after,
          service.timed elapsed step.after.queueSize step.host⟩ } := by
  intro step
  cases hcommand with
  | one elapsed =>
      refine ⟨⟨(engine.process.run host).value.1.toNat, elapsed⟩, [], ?_⟩
      simp only [System.turn, system, System.ofAct, execute, Act.run_map,
        run_dispatchOne_of_open h, List.map_nil, List.append_nil]
      rfl
  | all elapsed =>
      refine ⟨⟨(engine.processAll.run host).value.1, elapsed⟩,
        [.dispatchComplete (engine.processAll.run host).value.1], ?_⟩
      simp only [System.turn, system, System.ofAct, execute, Act.run_map,
        run_dispatchAll_of_open h]
      rfl

/-- A dispatch of a closed engine is refused. -/
theorem turn_dispatch_of_closed {command : Command} {op : Op} {elapsed : Duration}
    (hcommand : command.IsDispatch op elapsed) (h : service.shared.engine = none) (host : σ) :
    (system σ).turn ⟨service, host⟩ command =
      { before := ⟨service, host⟩, command, answer := .dispatched (.error .closed), journal := [],
        after := ⟨service, host⟩ } := by
  cases hcommand with
  | one elapsed =>
      simp only [System.turn, system, System.ofAct, execute, dispatchOne_of_closed h]
      rfl
  | all elapsed =>
      simp only [System.turn, system, System.ofAct, execute, dispatchAll_of_closed h]
      rfl

/-! ## Intake -/

/-- A request that is taken in is given to no handler. -/
theorem only_enqueue (service : Service σ) (allocator : Allocator) (request : Request) :
    Only Observation.isIntake (service.enqueue allocator request) := by
  intro host
  rcases service.enqueue_cases allocator request host with
    ⟨-, error, hrun⟩ | ⟨kind, engine, -, -, hpushed⟩
  · rw [hrun]
    exact nofun
  · have hpush := engine.only_push allocator kind request.source request.payload host
    rw [Engine.step_of_apply_eq (engine.apply_push ..)] at hpushed
    -- The event about the intake comes after the push, and is no delivery either.
    rcases hpushed with ⟨error, -, hrun⟩ | ⟨-, hrun⟩
    · rw [hrun]
      exact hpush
    · rw [hrun]
      intro observation hmem
      rcases List.mem_append.mp hmem with hmem | hmem
      · exact hpush observation hmem
      · rw [List.mem_singleton.mp hmem]
        rfl

/-- While a batch is taken in, only the filter is asked. -/
theorem only_enqueueFrom (allocators : Nat → Allocator) (index : Nat) (service : Service σ)
    (requests : List Request) :
    Only Observation.isIntake (enqueueFrom allocators index service requests) := by
  induction requests generalizing index service with
  | nil => exact Only.pure _
  | cons request requests ih =>
      refine Only.bind ?_ fun answer ↦ Only.map (ih (index + 1) answer.2) _
      refine Only.bind (service.only_enqueue (allocators index) request) fun answer ↦ ?_
      obtain ⟨_ | _, next⟩ := answer
      · exact Only.bind (Only.observe rfl) fun _ ↦ Only.pure _
      · exact Only.pure _

end Service

end EventStaging
