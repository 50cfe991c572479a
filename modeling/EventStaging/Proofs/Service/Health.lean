import EventStaging.Proofs.Decimal.Rounding
import EventStaging.Proofs.Pump.Pumping
import EventStaging.Proofs.Service.Batches
import EventStaging.Proofs.Service.Threshold

/-!
# Health

A service is healthy if its engine runs and its queue is below the high-water mark. The mark is a
product of floats, and the size of the queue is compared with it as a float, so that sizes beyond 53
bits may be the same float. `belowHighWater_anti` and `lt_of_belowHighWater` are what rounding
leaves of the comparison: a smaller queue passes it too, and a queue that passes it has room. Every
command to a service changes its engine and nothing else of it (`Service.onlyEngine_execute`), and
`Service.Sound` is what every run keeps. Main statement (`Station.health_sound`): a healthy service
takes in what comes next.
-/

namespace EventStaging

open Decimal (lt_iff_rank rank rank_mul_le rank_ofNat_mono isRounded_ofNat)

variable {σ : Type}

/-! ## The high-water mark -/

section

variable {max size size' : Nat} {capacity : Option Nat} {threshold : Float}

/-- The high-water mark is compared in the order of the ranks of floats. -/
theorem belowHighWater_iff :
    belowHighWater (some max) size threshold ↔
      (Float.ofNat max * threshold).isNaN = false ∧
        rank (Float.ofNat size) < rank (Float.ofNat max * threshold) := by
  rw [belowHighWater, decide_eq_true_iff, lt_iff_rank]
  exact and_iff_right (isRounded_ofNat size).isNaN

/-- A smaller queue is below the mark if a larger one is. -/
theorem belowHighWater_anti (h : size ≤ size') (hbelow : belowHighWater capacity size' threshold) :
    belowHighWater capacity size threshold := by
  cases capacity with
  | none => rfl
  | some max =>
      rw [belowHighWater_iff] at hbelow ⊢
      exact ⟨hbelow.1, (rank_ofNat_mono h).trans_lt hbelow.2⟩

variable (hmax : 1 ≤ max) (hthreshold : Between leastPlace wholePlace threshold)

include hmax hthreshold

/-- The mark lies above zero and not above the capacity. -/
theorem between_mark :
    Between 1 (rank (Float.ofNat max)) (Float.ofNat max * threshold) := by
  have hhigh : rank threshold ≤ rank 1 := rank_one.2 ▸ hthreshold.le_high
  obtain ⟨hnan, hpos, hle⟩ := rank_mul_le hmax hthreshold.isNaN hthreshold.low_le hhigh
  exact ⟨hnan, hpos, hle⟩

/-- A queue that is below the mark has room. -/
theorem lt_of_belowHighWater (h : belowHighWater (some max) size threshold) : size < max := by
  by_contra hge
  have hlt := (belowHighWater_iff.mp h).2
  have hmark := (between_mark hmax hthreshold).le_high
  have hmono := rank_ofNat_mono (Nat.not_lt.mp hge)
  omega

/-- An empty queue is below the mark. -/
theorem belowHighWater_zero : belowHighWater (some max) 0 threshold := by
  have hmark := between_mark hmax hthreshold
  have hzero : rank (Float.ofNat 0) = 0 := rank_zero.2
  have hlow := hmark.low_le
  exact belowHighWater_iff.mpr ⟨hmark.isNaN, by omega⟩

end

/-- The last 1024 sizes of the largest capacity are one float. -/
example : belowHighWater (some (2 ^ 64 - 1)) (2 ^ 64 - 1025) 1 = true ∧
    belowHighWater (some (2 ^ 64 - 1)) (2 ^ 64 - 1024) 1 = false := by
  decide +kernel

/-! ## Checks -/

/-- Whether a check of that name was made and passed. -/
def HealthReport.passes (report : HealthReport) (name : String) : Bool :=
  report.checks.lookup name == some true

namespace Service

variable {service next last : Service σ} {engine : Engine σ} {host : σ}

/-- The check of the processor asks whether the engine is running. -/
theorem passes_processor (service : Service σ) :
    service.health.passes "processor" = (service.shared.state == some .running) := by
  rw [HealthReport.passes, health]
  cases service.shared.state == some .running <;> rfl

/-- The check of the queue asks whether its size is below the high-water mark. -/
theorem passes_queue (service : Service σ) :
    service.health.passes "queue" =
      belowHighWater service.shared.capacity service.shared.queueSize service.threshold := by
  rw [HealthReport.passes, health]
  cases belowHighWater service.shared.capacity service.shared.queueSize service.threshold <;> rfl

/-- A service is healthy exactly if both checks pass. -/
theorem status_eq_healthy_iff (service : Service σ) :
    service.health.status = .healthy ↔
      service.health.passes "processor" ∧ service.health.passes "queue" := by
  rw [passes_processor, passes_queue, ← Bool.and_eq_true, health]
  split
  case isTrue hboth => exact iff_of_true rfl hboth
  case isFalse hnot => exact iff_of_false nofun hnot

/-! ## What commands leave alone -/

/-- Only the engine of a service has changed: it has done something, or it is closed. -/
def OnlyEngine (service next : Service σ) : Prop :=
  ∃ engine?, next = { service with shared := { service.shared with engine := engine? } }

theorem OnlyEngine.refl (service : Service σ) : service.OnlyEngine service :=
  ⟨service.shared.engine, rfl⟩

/-- Two changes of nothing but the engine are one. -/
theorem OnlyEngine.trans (h : service.OnlyEngine next) (h' : next.OnlyEngine last) :
    service.OnlyEngine last := by
  obtain ⟨_, rfl⟩ := h
  obtain ⟨engine?, rfl⟩ := h'
  exact ⟨engine?, rfl⟩

/-- A request changes nothing of a service but its engine. -/
theorem onlyEngine_enqueue (service : Service σ) (allocator : Allocator) (request : Request)
    (host : σ) :
    service.OnlyEngine ((service.enqueue allocator request).run host).value.2 := by
  rcases service.enqueue_cases allocator request host with
    ⟨-, _, hrun⟩ | ⟨_, _, -, -, ⟨_, -, hrun⟩ | ⟨-, hrun⟩⟩
  · rw [hrun]
    exact .refl service
  · rw [hrun]
    exact ⟨_, rfl⟩
  · rw [hrun]
    exact ⟨_, rfl⟩

/-- A batch changes nothing of a service but its engine. -/
theorem onlyEngine_enqueueFrom (service : Service σ) (allocators : Nat → Allocator) (index : Nat)
    (requests : List Request) (host : σ) :
    service.OnlyEngine ((enqueueFrom allocators index service requests).run host).value.2 := by
  induction requests generalizing service index host with
  | nil => exact .refl service
  | cons request requests ih =>
      have hitem := service.run_enqueueItem_eq (allocators index) index request host
      have hfirst := service.onlyEngine_enqueue (allocators index) request host
      rw [enqueueFrom, Act.run_bind, hitem]
      exact hfirst.trans (ih _ _ _)

/-- A dispatch changes nothing of a service but its engine. -/
theorem onlyEngine_dispatch {command : Command} {op : Op} {elapsed : Duration}
    (hcommand : command.IsDispatch op elapsed) (service : Service σ) (host : σ) :
    service.OnlyEngine ((service.execute command).run host).value.2 := by
  cases hopen : service.shared.engine with
  | none =>
      have hturn := turn_dispatch_of_closed hcommand hopen host
      exact ⟨_, congrArg (fun turn ↦ turn.after.object) hturn⟩
  | some engine =>
      obtain ⟨_, _, hturn⟩ := turn_dispatch_of_open hcommand hopen host
      exact ⟨_, congrArg (fun turn ↦ turn.after.object) hturn⟩

/-- An operation that goes to the engine directly changes nothing else of a service. -/
theorem onlyEngine_direct (service : Service σ) (call : Shared.Call) (host : σ) :
    service.OnlyEngine ((service.execute (.direct call)).run host).value.2 := by
  cases hopen : service.shared.engine with
  | none =>
      rw [execute, Shared.call_of_closed hopen]
      exact .refl service
  | some engine =>
      cases call with
      | perform op =>
          rw [execute, Shared.call, Shared.perform_of_open hopen]
          exact ⟨_, rfl⟩
      | close =>
          rw [execute, Shared.call, Shared.close_of_open hopen]
          exact ⟨_, rfl⟩

/-- A command changes the engine of a service and nothing else of it. -/
theorem onlyEngine_execute (service : Service σ) (command : Command) (host : σ) :
    service.OnlyEngine ((service.execute command).run host).value.2 := by
  cases command with
  | enqueue allocator request => exact service.onlyEngine_enqueue allocator request host
  | enqueueBatch allocators requests =>
      exact service.onlyEngine_enqueueFrom allocators 0 requests host
  | dispatchOne elapsed => exact onlyEngine_dispatch (.one elapsed) service host
  | dispatchAll elapsed => exact onlyEngine_dispatch (.all elapsed) service host
  | status => exact .refl service
  | direct call => exact service.onlyEngine_direct call host

/-! ## What a run keeps -/

/-- A service knows the capacity of its engine, which is the limit it was made with, and its
threshold is in the range of thresholds. -/
structure Sound (config : Config σ) (service : Service σ) : Prop where
  threshold : Between leastPlace wholePlace service.threshold
  capacity_eq : service.shared.capacity =
    if config.maxQueueSize = 0 then none else some config.maxQueueSize
  holding : Holding service.shared.engine
  bound_eq : ∀ engine, service.shared.engine = some engine →
    engine.capacity = service.shared.capacity

variable {config : Config σ} {steps : List (Step σ)}

/-- A new service is sound. -/
theorem sound_new (config : Config σ) (metrics : Cell σ Metrics) :
    Sound config { shared := .ofEngine (.ofConfig config), metrics } where
  threshold := between_default
  capacity_eq := rfl
  holding := by
    rintro _ ⟨⟩
    exact Engine.holds_ofConfig config
  bound_eq := by
    rintro _ ⟨⟩
    rfl

/-- Whatever threshold it is given, a service is sound. -/
theorem Sound.withHealthThreshold (h : Sound config service) (threshold : Float) :
    Sound config (service.withHealthThreshold threshold) :=
  ⟨between_effectiveThreshold threshold, h.capacity_eq, h.holding, h.bound_eq⟩

/-- Steps of the engine that change nothing else of the service. -/
theorem Sound.conducts (h : Sound config service) (honly : service.OnlyEngine next)
    (hconducts : Conducts service.shared.engine steps next.shared.engine) : Sound config next := by
  obtain ⟨engine?, rfl⟩ := honly
  refine ⟨h.threshold, h.capacity_eq, hconducts.holding, ?_⟩
  intro last hlast
  cases hopen : service.shared.engine with
  | none =>
      rw [hopen] at hconducts
      cases hlast.symm.trans hconducts.of_closed.2
  | some engine =>
      rw [hopen] at hconducts
      obtain ⟨_, hbooks, hsame⟩ := hconducts.books
      rw [hsame last hlast]
      exact hbooks.bound_eq.trans (h.bound_eq engine hopen)

/-! ## What a health report says -/

namespace Sound

variable {max : Nat}

/-- A limit of the queue is never zero. -/
theorem one_le (h : Sound config service) (hmax : service.shared.capacity = some max) :
    1 ≤ max := by
  have hcapacity := h.capacity_eq
  rw [hmax] at hcapacity
  split at hcapacity
  · cases hcapacity
  · rename_i hne
    rw [Option.some.inj hcapacity]
    exact Nat.one_le_iff_ne_zero.mpr hne

/-- An empty queue passes, whatever the threshold. -/
theorem passes_of_empty (h : Sound config service) (hempty : service.shared.queueSize = 0) :
    service.health.passes "queue" := by
  rw [passes_queue, hempty]
  cases hmax : service.shared.capacity with
  | none => rfl
  | some max => exact belowHighWater_zero (h.one_le hmax) h.threshold

/-- A queue without a limit passes. -/
theorem passes_of_unlimited (h : Sound config service) (hnone : config.maxQueueSize = 0) :
    service.health.passes "queue" := by
  rw [passes_queue, h.capacity_eq, if_pos hnone]
  rfl

/-- A queue that passes the check is not full. -/
theorem room (h : Sound config service) (hopen : service.shared.engine = some engine)
    (hpasses : service.health.passes "queue") :
    engine.capacity ≠ some engine.queue.toList.length := by
  intro hfull
  have hcapacity := (h.bound_eq engine hopen).symm.trans hfull
  have hsize : service.shared.queueSize = engine.queue.toList.length := by
    rw [Shared.queueSize, hopen]
    exact (h.holding engine hopen).length_eq
  rw [passes_queue, hcapacity, hsize] at hpasses
  exact Nat.lt_irrefl _ (lt_of_belowHighWater (h.one_le hcapacity) h.threshold hpasses)

/-- A full queue does not pass, whatever the threshold. -/
theorem not_passes_of_full (h : Sound config service) (hopen : service.shared.engine = some engine)
    (hfull : engine.queue.isFull) : ¬ service.health.passes "queue" :=
  fun hpasses ↦ h.room hopen hpasses ((h.holding engine hopen).isFull_iff.mp hfull)

/-- A queue that passes the check takes a request of a known kind in, if there is storage. -/
theorem fits (h : Sound config service) (hopen : service.shared.engine = some engine)
    (hpasses : service.health.passes "queue") {request : Request} (hknown : request.isKnown)
    (allocator : Allocator) (host : σ) :
    ((system σ).turn ⟨service, host⟩ (.enqueue allocator request)).answer.Fits := by
  obtain ⟨kind, hkind⟩ := Option.isSome_iff_exists.mp hknown
  obtain ⟨_, -, -, htakes⟩ :=
    takes_of_known hkind hopen (h.holding engine hopen) allocator host
  exact htakes.fits hknown (h.room hopen hpasses)

end Sound

/-- A service passes the check if one of the same capacity and threshold passes it with a queue that
is not shorter. -/
theorem passes_of_queueSize_le (hcapacity : next.shared.capacity = service.shared.capacity)
    (hthreshold : next.threshold = service.threshold)
    (hsize : next.shared.queueSize ≤ service.shared.queueSize)
    (hpasses : service.health.passes "queue") : next.health.passes "queue" := by
  rw [passes_queue] at hpasses ⊢
  rw [hcapacity, hthreshold]
  exact belowHighWater_anti hsize hpasses

end Service

/-- Whether an operation may put a record into the queue. -/
def Op.isPush : Op → Bool
  | .push .. => true
  | .process | .processAll | .clear | .start | .stop => false

/-- Only a push admits a record. -/
theorem Engine.admitted_of_not_push {op : Op} (h : op.isPush = false) (engine : Engine σ)
    (host : σ) : admitted [engine.step op host] = [] := by
  cases op with
  | push allocator kind source payload => cases h
  | process | processAll | clear | start | stop => rfl

/-- Steps that let no record into the queue leave it no longer than it was. -/
theorem Conducts.queueSize_le {before after : Option (Engine σ)} {steps : List (Step σ)}
    (h : Conducts before steps after) (hholding : Holding before)
    (hadmitted : Engine.admitted steps = []) :
    after.elim 0 Engine.queueSize ≤ before.elim 0 Engine.queueSize := by
  cases h with
  | onward hbooks =>
      have hqueue := congrArg List.length hbooks.queue_eq
      rw [hadmitted, List.append_nil, List.length_append] at hqueue
      rw [Option.elim_some, Option.elim_some, Engine.queueSize, Engine.queueSize,
        hbooks.holds.length_eq, (hholding _ rfl).length_eq]
      omega
  | closing _ => exact Nat.zero_le _
  | closed => exact le_rfl

namespace Station

open Doubles (Bench)
open Service (Sound)

variable {config : Config σ} {state : Hosted (Station σ) σ}

/-- What can happen to a service and beside it, and to its high-water mark: a command is carried
out, or the service is given a threshold. -/
inductive Deed where
  | execute (command : Command)
  | withHealthThreshold (threshold : Float)

/-- Does a deed. -/
def perform (station : Station σ) : Deed → Act σ (Answer × Station σ)
  | .execute command => station.execute command
  | .withHealthThreshold threshold =>
    pure (.silent, { station with service := station.service.withHealthThreshold threshold })

/-- A service with pumps, whose threshold may be set at any time, as a system. -/
def tunable (σ : Type) : System (Hosted (Station σ) σ) Deed Answer Journal := .ofAct perform

/-- Whether a command may put a record into the queue. -/
def Command.isIntake : Command → Bool
  | .serve (.enqueue ..) | .serve (.enqueueBatch ..) => true
  | .serve (.direct (.perform op)) => op.isPush
  | .serve (.dispatchOne _) | .serve (.dispatchAll _) | .serve .status | .serve (.direct .close)
  | .spawn .. | .tick .. | .shutdown _ | .release _ => false

/-- A tick of a pump changes nothing of the service but its engine. -/
theorem Ticks.onlyEngine {index now : Nat} {steps : List (Step σ)} {journal : Journal}
    {after : Hosted (Station σ) σ} (hticks : Ticks state index now steps journal after) :
    state.object.service.OnlyEngine after.object.service := by
  cases hticks with
  | missed _ => exact .refl _
  | ends _ _ _ _ => exact .refl _
  | skips _ _ _ _ _ _ => exact .refl _
  | drains _ _ _ _ _ _ => exact ⟨_, rfl⟩

/-- No turn of a station changes anything else of the service. -/
theorem onlyEngine_turn (state : Hosted (Station σ) σ) (command : Command) :
    state.object.service.OnlyEngine ((system σ).turn state command).after.object.service := by
  have hstops : ∀ index, command.Stops index →
      state.object.service.OnlyEngine ((system σ).turn state command).after.object.service := by
    intro index hstops
    rw [(service_of_stops hstops state).1]
    exact .refl _
  cases command with
  | serve command => exact state.object.service.onlyEngine_execute command state.host
  | spawn interval now => exact .refl _
  | tick index now => exact (ticks_turn state index now).onlyEngine
  | shutdown index => exact hstops index .shutdown
  | release index => exact hstops index .release

/-- Every turn leaves a sound service sound. -/
theorem sound_turn (h : Sound config state.object.service) (command : Command) :
    Sound config ((system σ).turn state command).after.object.service :=
  h.conducts (onlyEngine_turn state command) (conduct_turn h.holding command).conducts

/-- After any deeds the service is sound. -/
theorem sound_final (config : Config σ) (metrics : Cell σ Metrics) (host : σ) (deeds : List Deed) :
    let start : Hosted (Station σ) σ :=
      ⟨{ service := { shared := .ofEngine (.ofConfig config), metrics } }, host⟩
    Sound config ((tunable σ).final start deeds).object.service := by
  refine System.run_induction (motive := fun _ (state : Hosted (Station σ) σ) ↦
    Sound config state.object.service) (Service.sound_new config metrics) ?_ deeds
  intro _ state deed h
  cases deed with
  | execute command => exact sound_turn h command
  | withHealthThreshold threshold => exact h.withHealthThreshold threshold

/-- Only an intake puts records into the queue. -/
theorem admitted_of_not_intake {command : Command} (h : command.isIntake = false)
    (state : Hosted (Station σ) σ) :
    Engine.admitted (stepsOf ((system σ).turn state command)) = [] := by
  have hop : ∀ op : Op, op.isPush = false →
      Engine.admitted (state.object.service.stepsOf op state.host) = [] := by
    intro op hop
    rw [Service.stepsOf]
    cases state.object.service.shared.engine with
    | none => rfl
    | some engine => exact engine.admitted_of_not_push hop state.host
  show Engine.admitted (state.object.stepsIn command state.host) = []
  cases command with
  | serve command =>
      cases command with
      | enqueue | enqueueBatch => cases h
      | dispatchOne _ => exact hop .process rfl
      | dispatchAll _ => exact hop .processAll rfl
      | status => rfl
      | direct call =>
          cases call with
          | perform op => exact hop op h
          | close => rfl
  | tick index now =>
      show Engine.admitted (state.object.tickSteps index now state.host) = []
      unfold tickSteps
      split
      · split <;> rfl
      · rfl
  | spawn | shutdown | release => rfl

/-- What takes nothing in does not make the queue longer. -/
theorem queueSize_turn_le (h : Holding state.object.service.shared.engine) {command : Command}
    (hcommand : command.isIntake = false) :
    ((system σ).turn state command).after.object.service.shared.queueSize ≤
      state.object.service.shared.queueSize :=
  (conduct_turn h command).conducts.queueSize_le h (admitted_of_not_intake hcommand state)

/-- A health report can be relied on. A service is made with the default threshold; in the run that
follows, commands go to the service or to its engine directly, pumps are at work, and the threshold
may be set to any float at any time. After every such run,

* the service is healthy exactly if both checks are passed, and the first is passed exactly if the
  engine is open and runs;
* if it is healthy, the engine is open and runs, and a request of a known kind that comes next is
  taken in or turned away for want of storage, and so neither for a full queue nor for a closed
  engine;
* a full queue fails the second check, and an empty queue, an unlimited one and that of a closed
  engine pass it;
* a service with the same capacity and the same threshold passes the second check with a queue that
  is not longer, and so what puts no record into the queue never makes the check fail. -/
theorem health_sound (config : Config σ) (metrics : Cell σ Metrics) (host : σ) (deeds : List Deed) :
    let start : Hosted (Station σ) σ :=
      ⟨{ service := { shared := .ofEngine (.ofConfig config), metrics } }, host⟩
    let last := (tunable σ).final start deeds
    let service := last.object.service
    let healthy := service.health.status = .healthy
    (healthy ↔ service.health.passes "processor" ∧ service.health.passes "queue") ∧
      (service.health.passes "processor" ↔
        ∃ engine, service.shared.engine = some engine ∧ engine.state = .running) ∧
      (healthy → (∃ engine, service.shared.engine = some engine ∧ engine.state = .running) ∧
        ∀ (now : σ) (allocator : Allocator) (request : Request), request.isKnown →
          let result := ((service.enqueue allocator request).run now).value.1
          result = .ok () ∨ ∃ bytes, result = .error (.allocation bytes)) ∧
      (∀ engine, service.shared.engine = some engine → engine.queue.isFull →
        ¬ service.health.passes "queue") ∧
      (service.shared.queueSize = 0 ∨ config.maxQueueSize = 0 ∨ service.shared.isClosed →
        service.health.passes "queue") ∧
      (∀ other : Service σ, other.shared.capacity = service.shared.capacity →
        other.threshold = service.threshold →
        other.shared.queueSize ≤ service.shared.queueSize →
        service.health.passes "queue" → other.health.passes "queue") ∧
      ∀ command : Command, command.isIntake = false → service.health.passes "queue" →
        ((system σ).turn last command).after.object.service.health.passes "queue" := by
  intro start last service healthy
  have hsound : Sound config service := sound_final config metrics host deeds
  have hprocessor : service.health.passes "processor" ↔
      ∃ engine, service.shared.engine = some engine ∧ engine.state = .running := by
    rw [service.passes_processor, beq_iff_eq, Shared.state, Option.map_eq_some_iff]
  have hhealthy := service.status_eq_healthy_iff
  refine ⟨hhealthy, hprocessor, ?_, ?_, ?_, ?_, ?_⟩
  · intro hyes
    obtain ⟨hruns, hpasses⟩ := hhealthy.mp hyes
    refine ⟨hprocessor.mp hruns, ?_⟩
    intro now allocator request hknown result
    -- A queue that passes has room, so storage is all that the next push can want for.
    obtain ⟨engine, hopen, -⟩ := hprocessor.mp hruns
    have hfits := hsound.fits hopen hpasses hknown allocator now
    have hanswer : ((Service.system σ).turn ⟨service, now⟩ (.enqueue allocator request)).answer =
      .enqueued result := rfl
    rw [hanswer] at hfits
    generalize result = answered at hfits
    cases hfits with
    | accepted => exact .inl rfl
    | unstored bytes => exact .inr ⟨bytes, rfl⟩
  · exact fun engine hopen ↦ hsound.not_passes_of_full hopen
  · rintro (hempty | hunlimited | hclosed)
    · exact hsound.passes_of_empty hempty
    · exact hsound.passes_of_unlimited hunlimited
    -- A closed engine is seen as an empty queue.
    · refine hsound.passes_of_empty ?_
      rw [Shared.queueSize, Option.isNone_iff_eq_none.mp hclosed]
      rfl
  · exact fun other ↦ Service.passes_of_queueSize_le
  · intro command hcommand
    -- Capacity and threshold stay, and without an intake the queue grows no longer.
    obtain ⟨engine?, honly⟩ := onlyEngine_turn last command
    have hsize := queueSize_turn_le hsound.holding hcommand
    refine Service.passes_of_queueSize_le ?_ ?_ hsize
    · rw [honly]
    · rw [honly]

/-- A service with ten places is healthy as soon as its engine is started, and with nine requests in
them it is not. -/
example :
    let config : Config Bench := { name := "small", maxQueueSize := 10 }
    let start : Hosted (Station Bench) Bench :=
      ⟨{ service := { shared := .ofEngine (.ofConfig config), metrics := Bench.metricsCell } }, {}⟩
    let started := (system Bench).final start [.serve (.direct (.perform .start))]
    let filled := (system Bench).final started
      (.replicate 9 (.serve (.enqueue .unlimited ⟨0, "a", []⟩)))
    start.object.service.health.checks = [("processor", false), ("queue", true)] ∧
      started.object.service.health.status = .healthy ∧
      filled.object.service.health.checks = [("processor", true), ("queue", false)] := by
  decide +kernel

end Station

end EventStaging
