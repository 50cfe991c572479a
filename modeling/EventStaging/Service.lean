import EventStaging.Metrics.Basic
import EventStaging.Shared

/-!
# Services

A service is the front door of a shared engine: it takes requests in, one by one or in batches, has
the engine dispatch, keeps metrics, and reports status and health. A service is healthy when its
engine runs and its queue is below the high-water mark, which is a share of the capacity.
-/

namespace EventStaging

/-- A request to queue an event, with its source and its payload. The kind is given by its wire
number, known or not. -/
structure Request where
  kind : Int32
  source : String
  payload : List UInt8 := []
  deriving DecidableEq, Repr

/-- How many requests of a batch were accepted and how many were not. -/
structure BatchOutcome where
  queued : Nat
  failed : Nat
  deriving DecidableEq, Repr

namespace BatchOutcome

/-- Counts what became of the requests of a batch. -/
def ofResults (results : List (Except EngineError Unit)) : BatchOutcome where
  queued := results.countP fun result ↦ result.isOk
  failed := results.countP fun result ↦ !result.isOk

/-- Every request of a batch is queued or has failed. -/
theorem queued_add_failed (results : List (Except EngineError Unit)) :
    (ofResults results).queued + (ofResults results).failed = results.length := by
  rw [List.length_eq_countP_add_countP (fun result ↦ result.isOk)]
  simp [ofResults]

end BatchOutcome

/-- How many records a dispatch has `processed`, and the time that it took. -/
structure DispatchReport where
  processed : Nat
  elapsed : Duration

/-- What a service says about its engine: the name of its state, how many records wait for dispatch,
and how many have been dispatched. -/
structure StatusReport where
  state : String
  queueSize : Nat
  processed : Nat
  deriving DecidableEq, Repr

/-- Whether a service works as it should. -/
inductive HealthStatus where
  | healthy
  | unhealthy
  deriving DecidableEq, Repr

/-- The name of a health status. -/
def HealthStatus.name : HealthStatus → String
  | .healthy => "healthy"
  | .unhealthy => "unhealthy"

/-- The health of a service as a whole, with the outcome of each check that it rests on, by name. -/
structure HealthReport where
  status : HealthStatus
  checks : List (String × Bool)
  deriving DecidableEq, Repr

/-- Whether the report is a good one. -/
def HealthReport.isHealthy (report : HealthReport) : Bool := report.status == .healthy

/-- The share of the capacity that a queue may reach if nothing else is said. -/
def defaultHealthThreshold : Float := 0.9

/-- The smallest share of the capacity that can be set: the least normal number. -/
def leastHealthThreshold : Float := Float.ofBits 0x0010000000000000

/-- The share that is used when a share is asked for: one that is no number is replaced by the
default, and any other is brought into the range of shares. -/
def effectiveThreshold (threshold : Float) : Float :=
  if threshold.isNaN then defaultHealthThreshold
  else if threshold < leastHealthThreshold then leastHealthThreshold
  else if threshold > 1 then 1
  else threshold

/-- Whether a queue of that size lies below the given share of its capacity. A queue without a
limit always does. -/
def belowHighWater (capacity : Option Nat) (size : Nat) (threshold : Float) : Bool :=
  match capacity with
  | none => true
  | some max => Float.ofNat size < Float.ofNat max * threshold

/-- The front door of a shared engine. The queue of a healthy service stays below the share
`threshold` of its capacity, and `metrics` is where the metrics are kept. -/
structure Service (σ : Type) where
  shared : Shared σ
  threshold : Float := defaultHealthThreshold
  metrics : Cell σ Metrics

namespace Service

variable {σ : Type}

/-- The same service with another share of the capacity as its high-water mark. -/
def withHealthThreshold (service : Service σ) (threshold : Float) : Service σ :=
  { service with threshold := effectiveThreshold threshold }

/-- Changes the metrics. -/
def measure (service : Service σ) (f : Metrics → Metrics) : Act σ Unit :=
  Act.modify (service.metrics.modify f)

/-- Takes the queue size down in the metrics. -/
def gauge (service : Service σ) : Act σ Unit :=
  service.measure (Metrics.setQueueSize service.shared.queueSize)

/-- Takes a request in. Only a request that is accepted is counted. -/
def enqueue (service : Service σ) (allocator : Allocator) (request : Request) :
    Act σ (Except EngineError Unit × Service σ) :=
  match Kind.ofWire? request.kind with
  | none => pure (.error (.unknownKind request.kind), service)
  | some kind => do
    let (result, shared) ←
      service.shared.push allocator kind request.source request.payload
    let service := { service with shared }
    match result with
    | .error error => return (.error error, service)
    | .ok () => do
      service.measure (Metrics.recordReceived ⟨kind, request.source⟩)
      service.gauge
      Act.trace (.eventReceived kind request.source)
      return (.ok (), service)

/-- Takes in a request of a batch, which has the number `index` there, and reports a refusal. -/
def enqueueItem (service : Service σ) (allocator : Allocator) (index : Nat) (request : Request) :
    Act σ (Except EngineError Unit × Service σ) := do
  let (result, service) ← service.enqueue allocator request
  match result with
  | .ok () => return (.ok (), service)
  | .error error => do
    Act.trace (.batchItemFailed index error)
    return (.error error, service)

/-- Takes the requests of a batch in, one after the other, the first of them under the number
`index`, and goes on after a refusal. -/
def enqueueFrom (allocators : Nat → Allocator) :
    Nat → Service σ → List Request → Act σ (List (Except EngineError Unit) × Service σ)
  | _, service, [] => pure ([], service)
  | index, service, request :: requests => do
    let (result, service) ← service.enqueueItem (allocators index) index request
    Prod.map (result :: ·) id <$> enqueueFrom allocators (index + 1) service requests

/-- Takes the requests of a batch in and counts those that were accepted and those that were not.
`allocators` gives the allocator that each request meets. -/
def enqueueBatch (service : Service σ) (allocators : Nat → Allocator) (requests : List Request) :
    Act σ (BatchOutcome × Service σ) := do
  let (results, service) ← enqueueFrom allocators 0 service requests
  return (.ofResults results, service)

/-- Notes a dispatch in the metrics. -/
def recordDispatch (service : Service σ) (elapsed : Duration) : Act σ Unit := do
  service.measure (Metrics.observeDispatch elapsed)
  service.gauge

/-- Has one record dispatched. `elapsed` is the time that it takes. -/
def dispatchOne (service : Service σ) (elapsed : Duration) :
    Act σ (Except EngineError DispatchReport × Service σ) := do
  let (result, shared) ← service.shared.process
  let service := { service with shared }
  match result with
  | .error error => return (.error error, service)
  | .ok dispatched => do
    service.recordDispatch elapsed
    return (.ok ⟨dispatched.toNat, elapsed⟩, service)

/-- Has every record dispatched. `elapsed` is the time that it takes. -/
def dispatchAll (service : Service σ) (elapsed : Duration) :
    Act σ (Except EngineError DispatchReport × Service σ) := do
  let (result, shared) ← service.shared.processAll
  let service := { service with shared }
  match result with
  | .error error => return (.error error, service)
  | .ok processed => do
    service.recordDispatch elapsed
    Act.trace (.dispatchComplete processed)
    return (.ok ⟨processed, elapsed⟩, service)

/-- Says how the engine is, and takes its queue size down in the metrics. -/
def status (service : Service σ) : Act σ StatusReport := do
  service.gauge
  return {
    state := service.shared.state.elim "CLOSED" Lifecycle.name
    queueSize := service.shared.queueSize
    processed := service.shared.processed }

/-- Whether the service works as it should: its engine runs, and its queue is below the high-water
mark. -/
def health (service : Service σ) : HealthReport :=
  let running := service.shared.state == some .running
  let below :=
    belowHighWater service.shared.capacity service.shared.queueSize service.threshold
  { status := if running && below then .healthy else .unhealthy
    checks := [("processor", running), ("queue", below)] }

end Service

end EventStaging
