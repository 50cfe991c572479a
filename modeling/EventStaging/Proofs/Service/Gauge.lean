import EventStaging.Proofs.Pump.Pumping
import EventStaging.Proofs.Service.Metering

/-!
# The gauge of the queue size

A service takes the size of the queue down whenever it accepts a request, has carried out a dispatch
or says its status. `Service.Shows` says of anything done with a service that the gauge afterwards
shows the last size taken down meanwhile, and that the size itself has not changed since; what the
service does by itself shows its looks in this sense (`Service.shows_execute`). Main statement
(`Station.gauge_exact`): the gauge is exact as long as only the service touches the queue, and in any
run it is the size at the last look.
-/

namespace EventStaging

variable {σ α β : Type}

/-! ## What no callback changes -/

/-- No callback changes what is read of the host. -/
structure Callbacks.Keep (callbacks : Callbacks σ) (get : σ → β) : Prop where
  handler : ∀ handler, callbacks.handler = some handler →
    ∀ record host, get (handler record host).2 = get host
  filter : ∀ filter, callbacks.filter = some filter →
    ∀ record host, get (filter record host).2 = get host
  observer : ∀ observer, callbacks.observer = some observer →
    ∀ old new host, get (observer old new host).2 = get host
  sink : ∀ write, callbacks.sink = some (.host write) →
    ∀ level message host, get (write level message host).2 = get host

/-- What is read of the host stays the same. -/
def Act.Trait.keeps (get : σ → β) : Act.Trait σ :=
  .tells get (fun value _ ↦ value) (fun _ ↦ rfl) fun _ _ _ ↦ rfl

namespace Engine

variable {engine : Engine σ} {get : σ → β}

/-- A sink that keeps what is read of the host keeps it over every line. -/
theorem keeps_log (h : engine.callbacks.Keep get) (level : Level) (message : String) :
    (Act.Trait.keeps get).Has (engine.log level message) := by
  unfold log
  split
  · rename_i sink _ hsink
    cases sink with
    | host write =>
        refine (Act.Trait.keeps get).seq (h.sink write hsink _ _) fun panic ↦ ?_
        split
        · exact fun _ ↦ rfl
        · exact (Act.Trait.keeps get).pure ()
    | forward label => exact fun _ ↦ rfl
  · exact (Act.Trait.keeps get).pure ()

/-- Callbacks that keep what is read of the host make an engine that does so. -/
theorem bears_keeps (h : engine.callbacks.Keep get) : engine.Bears (.keeps get) where
  log level message _ := keeps_log h level message
  trace _ := fun _ ↦ rfl
  offer filter hfilter record := h.filter filter hfilter record
  deliver handler hhandler record := h.handler handler hhandler record
  notify observer hobserver old new := h.observer observer hobserver old new

/-- What no callback changes, no operation changes. -/
theorem get_step_of_keep (h : engine.callbacks.Keep get) (op : Op) (host : σ) :
    get (engine.step op host).host = get host :=
  (bears_keeps h).apply op host

/-- An engine that is taken down leaves what is read of the host as it is. -/
theorem get_retire_of_keep (h : engine.callbacks.Keep get) (host : σ) :
    get (engine.retire.run host).host = get host := by
  have hretire : (Act.Trait.keeps get).Has engine.retire :=
    (Act.Trait.keeps get).seq (keeps_log h _ _) fun _ ↦
      (Act.Trait.keeps get).seq (bears_keeps h).reports.clear fun _ ↦ (Act.Trait.keeps get).pure _
  exact hretire host

/-- An operation that takes no record out of the queue and lets none in leaves its size. -/
theorem queueSize_step (hholds : engine.queue.Holds engine.queue.toList) {op : Op} {host : σ}
    (hadmitted : admitted [engine.step op host] = []) (hremoved : engine.removals op = []) :
    (engine.step op host).after.queueSize = engine.queueSize := by
  have hbooks := Accounts.step hholds op host
  have hqueue := hbooks.queue_eq
  rw [hadmitted, removed_singleton, show (engine.step op host).removed = [] from hremoved,
    List.append_nil, List.map_nil, List.nil_append] at hqueue
  rw [queueSize, queueSize, hbooks.holds.length_eq, hholds.length_eq, hqueue]

end Engine

namespace Service

variable {service : Service σ} {cell : Cell σ Metrics} {host : σ} {engine : Engine σ}

/-! ## Looks -/

/-- What the gauge of the queue size shows. -/
def gaugeOf (cell : Cell σ Metrics) (host : σ) : Nat := (cell.get host).queueSize

/-- The size of the queue in the end, if something was carried out and not refused. -/
def sizeIfOk (done : Done σ (Except EngineError α × Service σ)) : List Nat :=
  if done.value.1.isOk then [done.value.2.shared.queueSize] else []

/-- The sizes of the queue at the end of the requests of a batch that are accepted. -/
def batchLooks (allocators : Nat → Allocator) : Nat → Service σ → List Request → σ → List Nat
  | _, _, [], _ => []
  | index, service, request :: requests, host =>
    let done := (service.enqueueItem (allocators index) index request).run host
    sizeIfOk done ++ batchLooks allocators (index + 1) done.value.2 requests done.host

/-- The sizes of the queue at the end of each request accepted, each dispatch carried out and each
status asked for while a command is carried out. -/
def looks (service : Service σ) (command : Command) (host : σ) : List Nat :=
  match command with
  | .enqueue allocator request => sizeIfOk ((service.enqueue allocator request).run host)
  | .enqueueBatch allocators requests => batchLooks allocators 0 service requests host
  | .dispatchOne elapsed => sizeIfOk ((service.dispatchOne elapsed).run host)
  | .dispatchAll elapsed => sizeIfOk ((service.dispatchAll elapsed).run host)
  | .status => [service.shared.queueSize]
  | .direct _ => []

/-- Whether a command is carried out by the service itself. -/
def Command.isOwn : Command → Bool
  | .direct _ => false
  | .enqueue .. | .enqueueBatch .. | .dispatchOne _ | .dispatchAll _ | .status => true

/-- Only the service itself touches the queue: it takes requests in, dispatches, and says its status,
and for the rest its engine is started and stopped. -/
inductive Command.IsFrontDoor : Command → Prop where
  | enqueue (allocator : Allocator) (request : Request) : IsFrontDoor (.enqueue allocator request)
  | enqueueBatch (allocators : Nat → Allocator) (requests : List Request) :
    IsFrontDoor (.enqueueBatch allocators requests)
  | dispatchOne (elapsed : Duration) : IsFrontDoor (.dispatchOne elapsed)
  | dispatchAll (elapsed : Duration) : IsFrontDoor (.dispatchAll elapsed)
  | status : IsFrontDoor .status
  | start : IsFrontDoor (.direct (.perform .start))
  | stop : IsFrontDoor (.direct (.perform .stop))

/-- A service keeps its metrics in a cell, and no callback of its engine changes the gauge there. -/
structure Gauged (cell : Cell σ Metrics) (service : Service σ) : Prop where
  metrics_eq : service.metrics = cell
  holding : Holding service.shared.engine
  keep : ∀ engine, service.shared.engine = some engine → engine.callbacks.Keep (gaugeOf cell)

/-- The gauge shows the last of the looks taken while something was done. -/
structure Gauges (cell : Cell σ Metrics) (host : σ) (looks : List Nat)
    (done : Done σ (α × Service σ)) : Prop where
  gauged : Gauged cell done.value.2
  gauge_eq : gaugeOf cell done.host = looks.getLastD (gaugeOf cell host)

/-- The gauge shows the last of the looks taken while something was done, and the size of the queue
has not changed since that look. -/
structure Shows (cell : Cell σ Metrics) (service : Service σ) (host : σ) (looks : List Nat)
    (done : Done σ (α × Service σ)) : Prop extends Gauges cell host looks done where
  size_eq : done.value.2.shared.queueSize = looks.getLastD service.shared.queueSize

/-- The last of two lists in turn is that of the second one, if it has one. -/
theorem getLastD_append (first second : List Nat) (size : Nat) :
    (first ++ second).getLastD size = second.getLastD (first.getLastD size) := by
  simp only [List.getLastD_eq_getLast?, List.getLast?_append]
  cases second.getLast? <;> rfl

/-- With a look there is no need for a size before it. -/
theorem getLastD_of_ne_nil {looks : List Nat} (h : looks ≠ []) (size other : Nat) :
    looks.getLastD size = looks.getLastD other := by
  rw [List.getLastD_eq_getLast?, List.getLastD_eq_getLast?, List.getLast?_eq_some_getLast h]
  rfl

/-! ## What is done with a service -/

/-- After an operation of its engine, a service keeps its metrics as before. -/
theorem Gauged.step (h : Gauged cell service) (hopen : service.shared.engine = some engine) (op : Op)
    (host : σ) : Gauged cell (service.withEngine (engine.step op host).after) := by
  have hbooks := Accounts.step (h.holding engine hopen) op host
  refine ⟨h.metrics_eq, ?_, ?_⟩
  · rintro _ ⟨⟩
    exact hbooks.holds
  · rintro _ ⟨⟩
    rw [hbooks.callbacks_eq]
    exact h.keep engine hopen

/-- What is answered makes no difference to the gauge. -/
theorem Gauges.map {action : Act σ (α × Service σ)} {looks : List Nat}
    (h : Gauges cell host looks (action.run host)) (f : α → β) :
    Gauges cell host looks ((Prod.map f id <$> action).run host) :=
  ⟨h.gauged, h.gauge_eq⟩

/-- What is answered makes no difference to what the gauge shows. -/
theorem Shows.map {action : Act σ (α × Service σ)} {looks : List Nat}
    (h : Shows cell service host looks (action.run host)) (f : α → β) :
    Shows cell service host looks ((Prod.map f id <$> action).run host) :=
  ⟨h.toGauges.map f, h.size_eq⟩

/-- The looks taken during something and during what follows it. -/
theorem Shows.append {first second : List Nat} {done : Done σ (α × Service σ)}
    {last : Done σ (β × Service σ)} (hfirst : Shows cell service host first done)
    (hsecond : Shows cell done.value.2 done.host second last) :
    Shows cell service host (first ++ second) last where
  gauged := hsecond.gauged
  gauge_eq := by rw [getLastD_append, ← hfirst.gauge_eq, hsecond.gauge_eq]
  size_eq := by rw [getLastD_append, ← hfirst.size_eq, hsecond.size_eq]

/-- Nothing is done. -/
theorem shows_idle (h : Gauged cell service) (value : α) (journal : Journal) (host : σ) :
    Shows cell service host [] ⟨(value, service), journal, host⟩ :=
  ⟨⟨h, rfl⟩, rfl⟩

/-- An operation that takes no record out of the queue and lets none in. -/
theorem shows_step (h : Gauged cell service) (hopen : service.shared.engine = some engine) {op : Op}
    {host : σ} (hadmitted : Engine.admitted [engine.step op host] = [])
    (hremoved : engine.removals op = []) (value : α) (journal : Journal) :
    Shows cell service host []
      ⟨(value, service.withEngine (engine.step op host).after), journal,
        (engine.step op host).host⟩ where
  gauged := h.step hopen op host
  gauge_eq := Engine.get_step_of_keep (h.keep engine hopen) op host
  size_eq := by
    have hsize := Engine.queueSize_step (h.holding engine hopen) hadmitted hremoved
    show (engine.step op host).after.queueSize = service.shared.queueSize
    rw [hsize, Shared.queueSize, hopen]
    rfl

/-- A request is taken in or refused. -/
theorem shows_enqueue (h : Gauged cell service) (allocator : Allocator) (request : Request)
    (host : σ) :
    let done := (service.enqueue allocator request).run host
    Shows cell service host (sizeIfOk done) done := by
  intro done
  rcases service.enqueue_cases allocator request host with
    ⟨-, error, hrun⟩ | ⟨kind, engine, -, hopen, ⟨error, hreply, hrun⟩ | ⟨-, hrun⟩⟩
  · simp only [done, hrun]
    exact shows_idle h _ _ host
  · simp only [done, hrun]
    exact shows_step h hopen (Engine.admitted_of_refused hreply) rfl _ _
  · simp only [done, hrun]
    -- The gauge is set to the size that the push leaves, so it is exact afterwards.
    refine ⟨⟨h.step hopen _ host, ?_⟩, rfl⟩
    rw [gaugeOf, h.metrics_eq, Cell.get_modify]
    rfl

/-- The requests of a batch are taken in or refused, one after the other. -/
theorem shows_enqueueFrom (h : Gauged cell service) (allocators : Nat → Allocator) (index : Nat)
    (requests : List Request) (host : σ) :
    Shows cell service host (batchLooks allocators index service requests host)
      ((enqueueFrom allocators index service requests).run host) := by
  induction requests generalizing service index host with
  | nil => exact shows_idle h _ _ host
  | cons request requests ih =>
      have hitem : Shows cell service host
          (sizeIfOk ((service.enqueueItem (allocators index) index request).run host))
          ((service.enqueueItem (allocators index) index request).run host) := by
        have henqueue := shows_enqueue h (allocators index) request host
        rw [service.run_enqueueItem_eq (allocators index) index request host]
        exact ⟨⟨henqueue.gauged, henqueue.gauge_eq⟩, henqueue.size_eq⟩
      have hrest := ih hitem.gauged (index + 1)
        ((service.enqueueItem (allocators index) index request).run host).host
      have hall := hitem.append hrest
      exact ⟨⟨hall.gauged, hall.gauge_eq⟩, hall.size_eq⟩

/-- A dispatch is carried out and noted. -/
theorem shows_timed (h : Gauged cell service) (hopen : service.shared.engine = some engine) (op : Op)
    (elapsed : Duration) (value : α) (journal : Journal) (host : σ) :
    let step := engine.step op host
    Shows cell service host [step.after.queueSize]
      ⟨(value, service.withEngine step.after), journal,
        service.timed elapsed step.after.queueSize step.host⟩ := by
  intro step
  refine ⟨⟨h.step hopen op host, ?_⟩, rfl⟩
  rw [gaugeOf, timed, h.metrics_eq, Cell.get_modify]
  rfl

/-- A single dispatch has a look at its end, if the engine is open. -/
theorem shows_dispatchOne (h : Gauged cell service) (elapsed : Duration) (host : σ) :
    let done := (service.dispatchOne elapsed).run host
    Shows cell service host (sizeIfOk done) done := by
  intro done
  cases hopen : service.shared.engine with
  | none =>
      simp only [done, dispatchOne_of_closed hopen]
      exact shows_idle h _ _ host
  | some engine =>
      simp only [done, run_dispatchOne_of_open hopen]
      exact shows_timed h hopen .process elapsed _ _ host

/-- Dispatching everything has a look at its end, if the engine is open. -/
theorem shows_dispatchAll (h : Gauged cell service) (elapsed : Duration) (host : σ) :
    let done := (service.dispatchAll elapsed).run host
    Shows cell service host (sizeIfOk done) done := by
  intro done
  cases hopen : service.shared.engine with
  | none =>
      simp only [done, dispatchAll_of_closed hopen]
      exact shows_idle h _ _ host
  | some engine =>
      simp only [done, run_dispatchAll_of_open hopen]
      exact shows_timed h hopen .processAll elapsed _ _ host

/-- What a service does by itself shows its looks. -/
theorem shows_execute (h : Gauged cell service) {command : Command} (hown : command.isOwn)
    (host : σ) :
    Shows cell service host (service.looks command host) ((service.execute command).run host) := by
  cases command with
  | enqueue allocator request => exact (shows_enqueue h allocator request host).map _
  | enqueueBatch allocators requests => exact (shows_enqueueFrom h allocators 0 requests host).map _
  | dispatchOne elapsed => exact (shows_dispatchOne h elapsed host).map _
  | dispatchAll elapsed => exact (shows_dispatchAll h elapsed host).map _
  | status =>
      refine ⟨⟨h, ?_⟩, rfl⟩
      show gaugeOf cell (service.metrics.modify _ host) = _
      rw [gaugeOf, h.metrics_eq, Cell.get_modify]
      rfl
  | direct call => cases hown

/-- An operation on the engine directly that takes no record out of the queue and lets none in. -/
theorem shows_direct (h : Gauged cell service) {op : Op}
    (hadmitted : ∀ engine : Engine σ, Engine.admitted [engine.step op host] = [])
    (hremoved : ∀ engine : Engine σ, engine.removals op = []) :
    Shows cell service host [] ((service.execute (.direct (.perform op))).run host) := by
  cases hopen : service.shared.engine with
  | none =>
      rw [execute, Shared.call_of_closed hopen]
      exact shows_idle h _ _ host
  | some engine =>
      rw [execute, Shared.call, Shared.perform_of_open hopen]
      exact shows_step h hopen (hadmitted engine) (hremoved engine) _ _

/-- What is done with the engine directly leaves the gauge as it is. -/
theorem gauges_direct (h : Gauged cell service) (call : Shared.Call) (host : σ) :
    Gauges cell host [] ((service.execute (.direct call)).run host) := by
  cases hopen : service.shared.engine with
  | none =>
      rw [execute, Shared.call_of_closed hopen]
      exact ⟨h, rfl⟩
  | some engine =>
      cases call with
      | perform op =>
          rw [execute, Shared.call, Shared.perform_of_open hopen]
          exact ⟨h.step hopen op host, Engine.get_step_of_keep (h.keep engine hopen) op host⟩
      | close =>
          rw [execute, Shared.call, Shared.close_of_open hopen]
          refine ⟨⟨h.metrics_eq, ?_, ?_⟩, Engine.get_retire_of_keep (h.keep engine hopen) host⟩
          · rintro _ ⟨⟩
          · rintro _ ⟨⟩

/-- Every command leaves the gauge at the last look. -/
theorem gauges_execute (h : Gauged cell service) (command : Command) (host : σ) :
    Gauges cell host (service.looks command host) ((service.execute command).run host) := by
  cases command with
  | direct call => exact gauges_direct h call host
  | _ => exact (shows_execute h rfl host).toGauges

/-- A look is taken last, if one is taken at all. -/
theorem gauge_eq_of_looks (h : Gauged cell service) {command : Command}
    (hlooks : service.looks command host ≠ []) :
    let done := (service.execute command).run host
    gaugeOf cell done.host = done.value.2.shared.queueSize := by
  intro done
  have hown : command.isOwn := by
    cases command with
    | direct call => exact absurd rfl hlooks
    | _ => rfl
  have hshows := shows_execute h hown host
  rw [hshows.gauge_eq, hshows.size_eq]
  exact getLastD_of_ne_nil hlooks _ _

/-- The gauge stays exact when only the service touches the queue. -/
theorem gauge_eq_of_isFrontDoor (h : Gauged cell service) {command : Command}
    (hcommand : command.IsFrontDoor) (hexact : gaugeOf cell host = service.shared.queueSize) :
    let done := (service.execute command).run host
    gaugeOf cell done.host = done.value.2.shared.queueSize := by
  have hshows : Shows cell service host (service.looks command host)
      ((service.execute command).run host) := by
    cases hcommand with
    | start => exact shows_direct h (fun _ ↦ rfl) fun _ ↦ rfl
    | stop => exact shows_direct h (fun _ ↦ rfl) fun _ ↦ rfl
    | _ => exact shows_execute h rfl host
  intro done
  rw [hshows.gauge_eq, hshows.size_eq, hexact]

/-- The gauge stays exact over commands at the front door. -/
theorem gauge_eq_final (h : Gauged cell service)
    (hexact : gaugeOf cell host = service.shared.queueSize) {commands : List Command}
    (hfront : ∀ command ∈ commands, command.IsFrontDoor) :
    let last := (system σ).final ⟨service, host⟩ commands
    gaugeOf cell last.host = last.object.shared.queueSize := by
  induction commands generalizing service host with
  | nil => exact hexact
  | cons command commands ih =>
      obtain ⟨hcommand, hrest⟩ := List.forall_mem_cons.mp hfront
      exact ih (gauges_execute h command host).gauged (gauge_eq_of_isFrontDoor h hcommand hexact)
        hrest

end Service

/-! ## Whole runs -/

namespace Station

open Doubles (Bench)
open Service (gaugeOf Gauged Gauges)

variable {cell : Cell σ Metrics} {state : Hosted (Station σ) σ}

/-- The sizes of the queue at the looks that the service takes in a turn. -/
def looks (turn : Turn (Hosted (Station σ) σ) Command Answer Journal) : List Nat :=
  match turn.command with
  | .serve command => turn.before.object.service.looks command turn.before.host
  | .spawn .. | .tick .. | .shutdown _ | .release _ => []

/-- A tick leaves the gauge as it is. -/
theorem Ticks.gauges {index now : Nat} {steps : List (Step σ)} {journal : Journal}
    {after : Hosted (Station σ) σ} (hticks : Ticks state index now steps journal after)
    (h : Gauged cell state.object.service) :
    Gauges cell state.host [] (⟨((), after.object.service), journal, after.host⟩ : Done σ _) := by
  cases hticks with
  | missed _ => exact ⟨h, rfl⟩
  | ends _ _ _ _ => exact ⟨h, rfl⟩
  | skips _ _ _ _ _ _ => exact ⟨h, rfl⟩
  | drains _ engine _ _ hopen _ =>
      exact ⟨h.step hopen .processAll state.host,
        Engine.get_step_of_keep (h.keep engine hopen) .processAll state.host⟩

/-- Every turn leaves the gauge at the last look. -/
theorem gauges_turn (h : Gauged cell state.object.service) (command : Command) :
    let turn := (system σ).turn state command
    Gauges cell state.host (looks turn) (served turn) := by
  intro turn
  have hstops : ∀ index, command.Stops index →
      Gauges cell state.host [] (served turn) := by
    intro index hstops
    obtain ⟨hservice, hhost⟩ := service_of_stops hstops state
    rw [served, hservice, hhost]
    exact ⟨h, rfl⟩
  cases command with
  | serve command =>
      have hserved := Service.gauges_execute h command state.host
      exact ⟨hserved.gauged, hserved.gauge_eq⟩
  | spawn interval now => exact ⟨h, rfl⟩
  | tick index now => exact (ticks_turn state index now).gauges h
  | shutdown index => exact hstops index .shutdown
  | release index => exact hstops index .release

/-- A new service is gauged, if the callbacks of its configuration keep the gauge. -/
theorem gauged_new {config : Config σ} (hkeep : config.callbacks.Keep (gaugeOf cell))
    (threshold : Float) :
    Gauged cell { shared := .ofEngine (.ofConfig config), threshold, metrics := cell } := by
  refine ⟨rfl, ?_, ?_⟩
  · rintro _ ⟨⟩
    exact Engine.holds_ofConfig config
  · rintro _ ⟨⟩
    exact hkeep

/-- The gauge of the queue size is exact. It begins at zero, and no callback of the engine changes it.
Then

* as long as only the service touches the queue, whatever becomes of requests and deliveries, the
  gauge is the size of the queue;
* after any run of commands to the service, of operations on its engine directly and of pumps, the
  gauge is the size that the queue had at the end of the last request accepted, dispatch carried out
  or status asked for, and zero if there was none; and a command in which there is such a look
  leaves it exact. -/
theorem gauge_exact (config : Config σ) (threshold : Float) (cell : Cell σ Metrics) (host : σ)
    (hkeep : config.callbacks.Keep (gaugeOf cell)) (hfresh : gaugeOf cell host = 0) :
    let service : Service σ :=
      { shared := .ofEngine (.ofConfig config), threshold, metrics := cell }
    (∀ commands : List Service.Command, (∀ command ∈ commands, command.IsFrontDoor) →
      let last := (Service.system σ).final ⟨service, host⟩ commands
      gaugeOf cell last.host = last.object.shared.queueSize) ∧
      ∀ commands : List Command,
        let start : Hosted (Station σ) σ := ⟨{ service }, host⟩
        let turns := (system σ).history start commands
        let last := (system σ).final start commands
        gaugeOf cell last.host = (turns.flatMap looks).getLastD 0 ∧
          ∀ command, let turn := (system σ).turn last command
            looks turn ≠ [] →
              gaugeOf cell turn.after.host = turn.after.object.service.shared.queueSize := by
  intro service
  have hgauged : Gauged cell service := gauged_new hkeep threshold
  have hempty : (Engine.ofConfig config).queue.Holds [] := Ring.Holds.empty config.maxQueueSize
  refine ⟨?_, ?_⟩
  · intro commands hfront
    refine Service.gauge_eq_final hgauged ?_ hfront
    exact hfresh.trans hempty.length_eq.symm
  · intro commands start turns last
    -- The invariant of the run: the gauge stands at the last look that there was.
    have hrun : Gauged cell last.object.service ∧
        gaugeOf cell last.host = (turns.flatMap looks).getLastD 0 := by
      refine System.run_induction (motive := fun turns state ↦
        Gauged cell state.object.service ∧
          gaugeOf cell state.host = (turns.flatMap looks).getLastD 0) ?_ ?_ commands
      · exact ⟨hgauged, hfresh⟩
      · intro turns state command ⟨hgauged, hlast⟩
        have hturn := gauges_turn hgauged command
        refine ⟨hturn.gauged, ?_⟩
        rw [List.flatMap_append, List.flatMap_singleton, Service.getLastD_append, ← hlast]
        exact hturn.gauge_eq
    refine ⟨hrun.2, ?_⟩
    intro command turn hlooks
    cases command with
    | serve command => exact Service.gauge_eq_of_looks hrun.1 hlooks
    | _ => exact absurd rfl hlooks

/-- A service with room for two takes two of four requests in, one of a blocked source and one of an
unknown kind besides, and dispatches them; its handler panics. What is pushed past it and taken out
by a pump is not seen before the next status. -/
theorem gauge_exact_of_two_places :
    let config : Config Bench :=
      { name := "small"
        maxQueueSize := 2
        callbacks :=
          { handler := some (.metered Bench.metricsCell
              (Doubles.failing Bench.attemptsCell true "busy"))
            filter := some (SourceBlocklist.filter ⟨["noise"]⟩) } }
    let service : Service Bench :=
      { shared := .ofEngine (.ofConfig config), metrics := Bench.metricsCell }
    let batch : Service.Command :=
      .enqueueBatch (fun _ ↦ .unlimited)
        [⟨0, "a", []⟩, ⟨0, "noise", []⟩, ⟨99, "a", []⟩, ⟨0, "b", []⟩, ⟨0, "a", []⟩]
    let commands : List Service.Command :=
      [batch, .direct (.perform .start), .dispatchOne ⟨0, 5, by decide⟩]
    let run : List Command :=
      [.serve batch, .serve (.direct (.perform .start)), .spawn 10 0, .tick 0 0,
        .serve (.direct (.perform (.push .unlimited .data "a" [])))]
    let last := (system Bench).final ⟨{ service }, {}⟩ run
    let turn := (system Bench).turn last (.serve .status)
    (config.callbacks.Keep (gaugeOf Bench.metricsCell) ∧ gaugeOf Bench.metricsCell {} = 0) ∧
      gaugeOf Bench.metricsCell ((Service.system Bench).final ⟨service, {}⟩ commands).host = 1 ∧
      (gaugeOf Bench.metricsCell last.host = 2 ∧ last.object.service.shared.queueSize = 1) ∧
      gaugeOf Bench.metricsCell turn.after.host = 1 := by
  intro config service batch commands run last turn
  have hkeep : config.callbacks.Keep (gaugeOf Bench.metricsCell) := by
    constructor
    case handler =>
      rintro handler hhandler record host
      cases hhandler
      rfl
    case filter =>
      rintro filter hfilter record host
      cases hfilter
      rfl
    case observer =>
      intro observer hobserver
      cases hobserver
    case sink =>
      intro write hwrite
      cases hwrite
  have hfront : ∀ command ∈ commands, command.IsFrontDoor := by
    simp only [commands, List.forall_mem_cons]
    exact ⟨.enqueueBatch _ _, .start, .dispatchOne _, List.forall_mem_nil _⟩
  have hsizes : ((Service.system Bench).final ⟨service, {}⟩ commands).object.shared.queueSize = 1 ∧
      ((system Bench).history ⟨{ service }, {}⟩ run).flatMap looks = [1, 1, 2] ∧
      last.object.service.shared.queueSize = 1 ∧ looks turn = [1] ∧
      turn.after.object.service.shared.queueSize = 1 := by
    decide +kernel
  obtain ⟨hqueue, hlooks, hlast, hlook, hafter⟩ := hsizes
  have hne : looks turn ≠ [] := by
    rw [hlook]
    exact List.cons_ne_nil _ _
  -- The run is spelled out, so that it is matched and not carried out.
  subst turn last service
  obtain ⟨hfrontDoor, hany⟩ :=
    gauge_exact config defaultHealthThreshold Bench.metricsCell {} hkeep rfl
  obtain ⟨hgauge, hnext⟩ := hany run
  refine ⟨⟨hkeep, rfl⟩, (hfrontDoor commands hfront).trans hqueue, ⟨?_, hlast⟩, ?_⟩
  · rw [hgauge, hlooks]
    rfl
  · exact (hnext (.serve .status) hne).trans hafter

end Station

end EventStaging
