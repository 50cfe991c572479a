import EventStaging.Doubles.Bench
import EventStaging.Proofs.Engine.Traits
import EventStaging.Proofs.Metrics.Series
import EventStaging.Proofs.Service.Commands

/-!
# Metrics that account for every event

A service counts what it accepts, the handler of its engine counts what it is given, and a dispatch
takes its duration in. `Service.Books` says that the metrics of a service stand for what was accepted
and dispatched so far; every command keeps the books (`Service.Books.turn`), and
`Service.metrics_exact` is what they say of a whole run.
-/

namespace EventStaging

variable {σ : Type} {cell : Cell σ Metrics}

/-- The handler counts what it is given in the metrics of a cell. Apart from that, no callback changes
them. -/
structure Callbacks.Metered (callbacks : Callbacks σ) (cell : Cell σ Metrics) : Prop where
  handler : ∃ inner, callbacks.handler = some (Handler.metered cell inner) ∧
    ∀ record host, cell.get (inner record host).2 = cell.get host
  filter : ∀ filter, callbacks.filter = some filter →
    ∀ record host, cell.get (filter record host).2 = cell.get host
  observer : ∀ observer, callbacks.observer = some observer →
    ∀ old new host, cell.get (observer old new host).2 = cell.get host
  sink : ∀ write, callbacks.sink = some (.host write) →
    ∀ level message host, cell.get (write level message host).2 = cell.get host

/-! ## What an engine counts -/

/-- The metrics after the handler was given some records. -/
def Metrics.delivered (metrics : Metrics) (records : List Record) : Metrics :=
  { metrics with processed := (records.map Record.label).foldl Series.bump metrics.processed }

/-- The metrics change by the records that the handler is given. -/
def Act.Trait.meters (cell : Cell σ Metrics) : Act.Trait σ :=
  .tells cell.get (fun metrics journal ↦ metrics.delivered journal.deliveries) (fun _ ↦ rfl)
    fun metrics first second ↦ by
      rw [Journal.deliveries_append, Metrics.delivered, List.map_append, List.foldl_append]
      rfl

namespace Engine

variable {engine : Engine σ}

/-- A call that leaves the metrics alone and delivers nothing counts nothing. -/
theorem meters_call {α : Type} {f : σ → α × σ} {note : α → Observation}
    (hcell : ∀ host, cell.get (f host).2 = cell.get host)
    (hnote : ∀ answer, Journal.deliveries [note answer] = []) :
    (Act.Trait.meters cell).Has (Act.call f note) := by
  intro host
  show cell.get (f host).2 = (cell.get host).delivered (Journal.deliveries [note _])
  rw [hnote, hcell]
  rfl

/-- An observation that is no delivery counts nothing. -/
theorem meters_observe {observation : Observation} (h : Journal.deliveries [observation] = []) :
    (Act.Trait.meters cell).Has (Act.observe observation) := by
  intro host
  show cell.get host = (cell.get host).delivered (Journal.deliveries [observation])
  rw [h]
  rfl

/-- A log line counts nothing. -/
theorem meters_log (h : engine.callbacks.Metered cell) (level : Level) (message : String) :
    (Act.Trait.meters cell).Has (engine.log level message) := by
  unfold log
  split
  · rename_i sink _ hsink
    cases sink with
    | host write =>
        refine (Act.Trait.meters cell).seq (meters_call (h.sink write hsink _ _) fun _ ↦ rfl) ?_
        intro panic
        split
        · exact meters_observe rfl
        · exact (Act.Trait.meters cell).pure ()
    | forward label =>
        exact (Act.Trait.meters cell).seq (meters_observe rfl) fun _ ↦ meters_observe rfl
  · exact (Act.Trait.meters cell).pure ()

/-- A metered engine counts what its handler is given, in everything it does. -/
theorem bears_meters (h : engine.callbacks.Metered cell) : engine.Bears (.meters cell) where
  log level message _ := meters_log h level message
  trace _ := meters_observe rfl
  offer filter hfilter record := meters_call (h.filter filter hfilter record) fun _ ↦ rfl
  notify observer hobserver old new :=
    meters_call (h.observer observer hobserver old new) fun _ ↦ rfl
  deliver handler hhandler record := by
    obtain ⟨inner, hinner, hcell⟩ := h.handler
    obtain rfl : handler = Handler.metered cell inner := Option.some.inj (hhandler.symm.trans hinner)
    intro host
    show cell.get (inner record (cell.modify _ host)).2 = _
    rw [hcell, Cell.get_modify]
    rfl

/-- An operation gives the handler what it dispatches. -/
theorem deliveries_step (h : engine.callbacks.Metered cell)
    (hholds : engine.queue.Holds engine.queue.toList) (op : Op) (host : σ) :
    (engine.step op host).journal.deliveries = dispatched [engine.step op host] := by
  obtain ⟨inner, hhandler, -⟩ := h.handler
  have hdeliveries := (Accounts.step hholds op host).deliveries_eq
  rw [List.flatMap_singleton, hhandler] at hdeliveries
  exact hdeliveries

/-- An operation counts the records that it dispatches. -/
theorem get_step (h : engine.callbacks.Metered cell)
    (hholds : engine.queue.Holds engine.queue.toList) (op : Op) (host : σ) :
    cell.get (engine.step op host).host =
      (cell.get host).delivered (dispatched [engine.step op host]) := by
  rw [← deliveries_step h hholds op host]
  exact (bears_meters h).apply op host

/-- An engine that is taken down counts nothing. -/
theorem get_retire (h : engine.callbacks.Metered cell) (host : σ) :
    cell.get (engine.retire.run host).host = cell.get host := by
  have hretire : (Act.Trait.meters cell).Has engine.retire :=
    (Act.Trait.meters cell).seq (meters_log h _ _) fun _ ↦
      (Act.Trait.meters cell).seq (bears_meters h).reports.clear fun _ ↦
        (Act.Trait.meters cell).pure _
  refine (hretire host).trans ?_
  show (cell.get host).delivered (engine.retire.run host).journal.deliveries = _
  rw [(engine.quiet_retire host).deliveries_eq]
  rfl

/-- A push admits its record, or nothing. -/
theorem admitted_push_sublist (engine : Engine σ) (allocator : Allocator) (kind : Kind)
    (source : String) (payload : List UInt8) (host : σ) :
    (admitted [engine.step (.push allocator kind source payload) host]).Sublist
      [⟨kind, source, payload⟩] := by
  rw [admitted, List.flatMap_singleton, Step.admitted]
  cases hreply : (engine.step (.push allocator kind source payload) host).reply with
  | accepted =>
      show List.Sublist (if _ then [] else _) _
      split
      · exact List.nil_sublist _
      · exact List.Sublist.refl _
  | _ => exact List.nil_sublist _

/-- A push that is refused admits nothing. -/
theorem admitted_of_refused {op : Op} {host : σ} {error : EngineError}
    (h : (engine.step op host).reply = .refused error) :
    admitted [engine.step op host] = [] := by
  rw [admitted, List.flatMap_singleton, Step.admitted]
  simp [h]

/-- What is dispatched is among what is removed. -/
theorem dispatched_sublist (steps : List (Step σ)) :
    (dispatched steps).Sublist ((removed steps).map Removal.record) := by
  unfold dispatched
  induction removed steps with
  | nil => exact .slnil
  | cons removal removals ih =>
      cases removal with
      | dispatched record => exact ih.cons_cons record
      | dropped record => exact ih.cons record

end Engine

/-- Of no label are more records dispatched or still queued than were queued before or admitted. -/
theorem Accounts.count_le {first last : Engine σ} {steps : List (Step σ)}
    (h : Accounts first steps last) (label : Label) :
    ((Engine.dispatched steps).map Record.label).count label +
        (last.queue.toList.map Record.label).count label ≤
      (first.queue.toList.map Record.label).count label +
        ((Engine.admitted steps).map Record.label).count label := by
  have hbalance := congrArg (fun records ↦ (records.map Record.label).count label) h.queue_eq
  simp only [List.map_append, List.count_append] at hbalance
  have hle := ((Engine.dispatched_sublist steps).map Record.label).count_le label
  omega

namespace Service

open Doubles (Bench)

/-! ## The books -/

/-- The records that wait for dispatch. -/
def queued (shared : Shared σ) : List Record := shared.engine.elim [] fun engine ↦ engine.queue.toList

/-- The metrics of a service stand for the labels accepted, the records dispatched and the number of
dispatches so far. If all events came through the service, as `own` says, no more records of a label
were dispatched or are queued than were accepted. -/
structure Books (callbacks : Callbacks σ) (cell : Cell σ Metrics) (own : Prop)
    (accepted : List Label) (dispatched : List Record) (timed : Nat)
    (state : Hosted (Service σ) σ) : Prop where
  metrics_eq : state.object.metrics = cell
  received_eq : (cell.get state.host).received = Series.tally accepted
  processed_eq : (cell.get state.host).processed = Series.tally (dispatched.map Record.label)
  durations_eq : (cell.get state.host).durations.count = timed
  engine : ∀ engine, state.object.shared.engine = some engine →
    engine.callbacks = callbacks ∧ engine.queue.Holds engine.queue.toList ∧
      engine.processed = dispatched.length
  within : own → ∀ label, (dispatched.map Record.label).count label +
    ((queued state.object.shared).map Record.label).count label ≤ accepted.count label

namespace Books

variable {callbacks : Callbacks σ} {own own' : Prop} {accepted extra : List Label}
  {dispatched : List Record} {timed more : Nat} {service : Service σ} {host host' : σ}
  {engine : Engine σ}

theorem mono {state : Hosted (Service σ) σ}
    (h : Books callbacks cell own accepted dispatched timed state) (hown : own' → own) :
    Books callbacks cell own' accepted dispatched timed state :=
  { h with within := fun hown' ↦ h.within (hown hown') }

/-- Nothing is accepted or dispatched while the engine stays as it is or is closed and no more than
the queue size is taken down. -/
theorem idle (h : Books callbacks cell own accepted dispatched timed ⟨service, host⟩)
    {shared : Shared σ} (hshared : shared.engine = none ∨ shared = service.shared)
    (hhost : ∃ size, cell.get host' = (cell.get host).setQueueSize size) :
    Books callbacks cell own accepted dispatched timed ⟨{ service with shared }, host'⟩ := by
  obtain ⟨size, hget⟩ := hhost
  have hreceived : (cell.get host').received = _ := (congrArg Metrics.received hget).trans h.received_eq
  have hprocessed : (cell.get host').processed = _ :=
    (congrArg Metrics.processed hget).trans h.processed_eq
  have hdurations : (cell.get host').durations.count = _ :=
    (congrArg (Histogram.count ∘ Metrics.durations) hget).trans h.durations_eq
  rcases hshared with hnone | rfl
  · refine ⟨h.metrics_eq, hreceived, hprocessed, hdurations, ?_, ?_⟩
    · intro engine hopen
      cases hnone.symm.trans hopen
    · intro hown label
      have hempty : queued shared = [] := by rw [queued, hnone]; rfl
      show _ + ((queued shared).map Record.label).count label ≤ _
      rw [hempty]
      exact Nat.le_trans (Nat.le_add_right _ _) (h.within hown label)
  · exact ⟨h.metrics_eq, hreceived, hprocessed, hdurations, h.engine, h.within⟩

/-- An operation of the engine keeps the books, if what it admits is accepted and counted along with
it. -/
theorem perform (hmetered : callbacks.Metered cell)
    (h : Books callbacks cell own accepted dispatched timed ⟨service, host⟩)
    (hopen : service.shared.engine = some engine) (op : Op)
    (hreceived : (cell.get host').received =
      extra.foldl Series.bump (cell.get (engine.step op host).host).received)
    (hprocessed : (cell.get host').processed = (cell.get (engine.step op host).host).processed)
    (hdurations : (cell.get host').durations.count =
      (cell.get (engine.step op host).host).durations.count + more)
    (hown : own' → own ∧ ∀ label,
      ((Engine.admitted [engine.step op host]).map Record.label).count label ≤ extra.count label) :
    Books callbacks cell own' (accepted ++ extra)
      (dispatched ++ Engine.dispatched [engine.step op host]) (timed + more)
      ⟨service.withEngine (engine.step op host).after, host'⟩ := by
  obtain ⟨rfl, hholds, hcount⟩ := h.engine engine hopen
  have hstep := Accounts.step hholds op host
  have hget := Engine.get_step hmetered hholds op host
  constructor
  case metrics_eq => exact h.metrics_eq
  case received_eq =>
    rw [hreceived, hget, Series.tally_append, ← h.received_eq]
    rfl
  case processed_eq =>
    rw [hprocessed, hget, List.map_append, Series.tally_append, ← h.processed_eq]
    rfl
  case durations_eq =>
    rw [hdurations, hget, ← h.durations_eq]
    rfl
  case engine =>
    rintro _ ⟨⟩
    refine ⟨hstep.callbacks_eq, hstep.holds, ?_⟩
    rw [hstep.processed_eq, hcount, List.length_append]
  case within =>
    intro hown'
    obtain ⟨hbefore, hadmitted⟩ := hown hown'
    intro label
    have hle := h.within hbefore label
    have hmoved := hstep.count_le label
    have hextra := hadmitted label
    have hqueued : queued service.shared = engine.queue.toList := by rw [queued, hopen]; rfl
    rw [hqueued] at hle
    rw [List.map_append, List.count_append, List.count_append]
    show _ + ((engine.step op host).after.queue.toList.map Record.label).count label ≤ _
    omega

/-! ## One command -/

/-- A request keeps the books, whatever becomes of it. -/
theorem enqueue (hmetered : callbacks.Metered cell)
    (h : Books callbacks cell own accepted dispatched timed ⟨service, host⟩)
    (allocator : Allocator) (request : Request) :
    let done := (service.enqueue allocator request).run host
    Books callbacks cell own (accepted ++ acceptedOf [request] [done.value.1]) dispatched timed
      ⟨done.value.2, done.host⟩ := by
  intro done
  have hcell : service.metrics = cell := h.metrics_eq
  have hrefused : ∀ error, acceptedOf [request] [.error error] = [] := fun _ ↦ rfl
  rcases service.enqueue_cases allocator request host with
    ⟨-, error, hrun⟩ | ⟨kind, engine, hkind, hopen, hpushed⟩
  · simp only [done, hrun, hrefused, List.append_nil]
    exact h
  · rw [← List.append_nil dispatched, ← Nat.add_zero timed]
    rcases hpushed with ⟨error, hreply, hrun⟩ | ⟨-, hrun⟩
    · have hadmitted := Engine.admitted_of_refused hreply
      simp only [done, hrun, hrefused]
      refine h.perform hmetered hopen (.push ..) rfl rfl rfl fun hown ↦ ⟨hown, ?_⟩
      intro label
      rw [hadmitted]
      exact Nat.le_refl _
    · have haccepted : acceptedOf [request] [.ok ()] = [⟨kind, request.source⟩] := by
        simp [acceptedOf, Request.label?, hkind, Except.isOk, Except.toBool]
      have hsublist := engine.admitted_push_sublist allocator kind request.source
        request.payload host
      simp only [done, hrun, haccepted]
      refine h.perform hmetered hopen (.push ..) ?_ ?_ ?_ fun hown ↦ ⟨hown, ?_⟩
      · rw [hcell, Cell.get_modify, Cell.get_modify]
        rfl
      · rw [hcell, Cell.get_modify, Cell.get_modify]
        rfl
      · rw [hcell, Cell.get_modify, Cell.get_modify]
        rfl
      -- A request whose copy the filter turns away is accepted and counted, but not admitted.
      · exact fun label ↦ (hsublist.map Record.label).count_le label

/-- A batch keeps the books, as its requests do one after the other. -/
theorem enqueueFrom (hmetered : callbacks.Metered cell)
    (h : Books callbacks cell own accepted dispatched timed ⟨service, host⟩)
    (allocators : Nat → Allocator) (index : Nat) (requests : List Request) :
    let done := (enqueueFrom allocators index service requests).run host
    Books callbacks cell own (accepted ++ acceptedOf requests done.value.1) dispatched timed
      ⟨done.value.2, done.host⟩ := by
  induction requests generalizing accepted service host index with
  | nil =>
      show Books callbacks cell own (accepted ++ []) dispatched timed ⟨service, host⟩
      rw [List.append_nil]
      exact h
  | cons request requests ih =>
      obtain ⟨events, hitem⟩ :=
        service.run_enqueueItem (allocators index) index request host
      have hrest := ih (h.enqueue hmetered (allocators index) request) (index + 1)
      intro done
      simp only [List.append_assoc, ← acceptedOf_cons] at hrest
      simp only [done, Service.enqueueFrom, Act.run_bind, hitem]
      exact hrest

/-- A dispatch keeps the books. -/
theorem dispatch (hmetered : callbacks.Metered cell)
    (h : Books callbacks cell own accepted dispatched timed ⟨service, host⟩) {command : Command}
    {op : Op} {elapsed : Duration} (hcommand : command.IsDispatch op elapsed) :
    let turn := (system σ).turn ⟨service, host⟩ command
    Books callbacks cell own accepted (dispatched ++ service.dispatches command)
      (timed + (isTimed turn).toNat) turn.after := by
  intro turn
  cases hopen : service.shared.engine with
  | none =>
      have hturn : turn = _ := turn_dispatch_of_closed hcommand hopen host
      rw [hturn, dispatches_of_closed hopen, List.append_nil]
      exact h
  | some engine =>
      obtain ⟨report, events, hturn⟩ := turn_dispatch_of_open hcommand hopen host
      have hop : command.dispatch? = some op := by cases hcommand <;> rfl
      have hadmitted : Engine.admitted [engine.step op host] = [] := by cases hcommand <;> rfl
      have hcell : service.metrics = cell := h.metrics_eq
      rw [show turn = _ from hturn, dispatches_of_open hopen hop host, ← List.append_nil accepted]
      refine h.perform hmetered hopen op ?_ ?_ ?_ fun hown ↦ ⟨hown, ?_⟩
      · rw [Service.timed, hcell, Cell.get_modify, Cell.get_modify]
        rfl
      · rw [Service.timed, hcell, Cell.get_modify, Cell.get_modify]
        rfl
      · rw [Service.timed, hcell, Cell.get_modify, Cell.get_modify]
        rfl
      · intro label
        rw [hadmitted]
        exact Nat.le_refl _

/-- An engine that is taken down leaves the books as they are. -/
theorem close (hmetered : callbacks.Metered cell)
    (h : Books callbacks cell own accepted dispatched timed ⟨service, host⟩) :
    let done := (service.shared.call .close).run host
    Books callbacks cell own accepted dispatched timed
      ⟨{ service with shared := done.value.2 }, done.host⟩ := by
  intro done
  cases hopen : service.shared.engine with
  | none =>
      simp only [done, Shared.call_of_closed hopen, Act.run_pure]
      exact h
  | some engine =>
      obtain ⟨hcallbacks, -, -⟩ := h.engine engine hopen
      have hget := Engine.get_retire (hcallbacks.symm ▸ hmetered) host
      simp only [done, Shared.call, Shared.close_of_open hopen]
      refine h.idle (.inl rfl) ⟨(cell.get host).queueSize, ?_⟩
      exact hget

/-- An operation that goes to the engine directly keeps the books. If it is a push, not all events
came through the service. -/
theorem direct (hmetered : callbacks.Metered cell)
    (h : Books callbacks cell own accepted dispatched timed ⟨service, host⟩) (op : Op) :
    let done := (service.shared.call (.perform op)).run host
    Books callbacks cell (own ∧ ¬ Command.Bypasses (.direct (.perform op))) accepted
      (dispatched ++ service.dispatches (.direct (.perform op))) timed
      ⟨{ service with shared := done.value.2 }, done.host⟩ := by
  intro done
  cases hopen : service.shared.engine with
  | none =>
      simp only [done, Shared.call_of_closed hopen, Act.run_pure, dispatches_of_closed hopen,
        List.append_nil]
      exact h.mono And.left
  | some engine =>
      have hadmitted : ¬ Command.Bypasses (.direct (.perform op)) →
          Engine.admitted [engine.step op host] = [] := by
        intro hnot
        cases op with
        | push => exact absurd (.push ..) hnot
        | _ => rfl
      rw [dispatches_of_open hopen rfl host, ← List.append_nil accepted, ← Nat.add_zero timed]
      simp only [done, Shared.call, Shared.perform_of_open hopen]
      refine h.perform hmetered hopen op rfl rfl rfl fun hown ↦ ⟨hown.1, ?_⟩
      intro label
      rw [hadmitted hown.2]
      exact Nat.le_refl _

/-- Every command keeps the books. -/
theorem turn (hmetered : callbacks.Metered cell) {state : Hosted (Service σ) σ}
    (h : Books callbacks cell own accepted dispatched timed state) (command : Command) :
    let turn := (system σ).turn state command
    Books callbacks cell (own ∧ ¬ command.Bypasses) (accepted ++ acceptedIn turn)
      (dispatched ++ state.object.dispatches command) (timed + (isTimed turn).toNat) turn.after := by
  obtain ⟨service, host⟩ := state
  intro turn
  cases command with
  | enqueue allocator request =>
      rw [dispatches_of_none rfl, List.append_nil]
      exact (h.enqueue hmetered allocator request).mono And.left
  | enqueueBatch allocators requests =>
      rw [dispatches_of_none rfl, List.append_nil]
      exact (h.enqueueFrom hmetered allocators 0 requests).mono And.left
  | dispatchOne elapsed =>
      rw [show acceptedIn turn = [] from rfl, List.append_nil]
      exact (h.dispatch hmetered (.one elapsed)).mono And.left
  | dispatchAll elapsed =>
      rw [show acceptedIn turn = [] from rfl, List.append_nil]
      exact (h.dispatch hmetered (.all elapsed)).mono And.left
  | status =>
      rw [show acceptedIn turn = [] from rfl, dispatches_of_none rfl, List.append_nil,
        List.append_nil]
      refine (h.idle (.inr rfl) ⟨service.shared.queueSize, ?_⟩).mono And.left
      show cell.get (service.metrics.modify _ host) = _
      rw [h.metrics_eq, Cell.get_modify]
  | direct call =>
      cases call with
      | perform op =>
          rw [show acceptedIn turn = [] from rfl, List.append_nil]
          exact h.direct hmetered op
      | close =>
          rw [show acceptedIn turn = [] from rfl, dispatches_of_none rfl, List.append_nil,
            List.append_nil]
          exact (h.close hmetered).mono And.left

/-- What a command dispatches is what the handler is given. -/
theorem deliveries_turn (hmetered : callbacks.Metered cell) {state : Hosted (Service σ) σ}
    (h : Books callbacks cell own accepted dispatched timed state) (command : Command) :
    ((system σ).turn state command).journal.deliveries = state.object.dispatches command := by
  obtain ⟨service, host⟩ := state
  have hstep : ∀ engine, service.shared.engine = some engine → ∀ op,
      (engine.step op host).journal.deliveries = Engine.dispatched [engine.step op host] := by
    intro engine hopen op
    obtain ⟨hcallbacks, hholds, -⟩ := h.engine engine hopen
    exact Engine.deliveries_step (hcallbacks.symm ▸ hmetered) hholds op host
  have hdispatch : ∀ op elapsed, command.IsDispatch op elapsed →
      ((system σ).turn ⟨service, host⟩ command).journal.deliveries =
        service.dispatches command := by
    intro op elapsed hcommand
    cases hopen : service.shared.engine with
    | none =>
        rw [turn_dispatch_of_closed hcommand hopen, dispatches_of_closed hopen]
        rfl
    | some engine =>
        obtain ⟨report, events, hturn⟩ := turn_dispatch_of_open hcommand hopen host
        have hop : command.dispatch? = some op := by cases hcommand <;> rfl
        rw [hturn, dispatches_of_open hopen hop host, ← hstep engine hopen]
        show Journal.deliveries (_ ++ events.map Observation.traced) = _
        rw [Journal.deliveries_append, (Journal.Only.traced events).deliveries_eq, List.append_nil]
  -- An intake delivers nothing, and a dispatch delivers what its one step takes out.
  cases command with
  | enqueue allocator request =>
      rw [dispatches_of_none rfl]
      exact (service.only_enqueue allocator request host).deliveries_eq_of_isIntake
  | enqueueBatch allocators requests =>
      rw [dispatches_of_none rfl]
      exact (only_enqueueFrom allocators 0 service requests host).deliveries_eq_of_isIntake
  | dispatchOne elapsed => exact hdispatch .process elapsed (.one elapsed)
  | dispatchAll elapsed => exact hdispatch .processAll elapsed (.all elapsed)
  | status =>
      rw [dispatches_of_none rfl]
      rfl
  | direct call =>
      cases hopen : service.shared.engine with
      | none =>
          rw [dispatches_of_closed hopen]
          simp only [System.turn, system, System.ofAct, execute, Shared.call_of_closed hopen]
          rfl
      | some engine =>
          cases call with
          | perform op =>
              rw [dispatches_of_open hopen rfl host, ← hstep engine hopen]
              simp only [System.turn, system, System.ofAct, execute, Shared.call,
                Shared.perform_of_open hopen]
              rfl
          | close =>
              rw [dispatches_of_none rfl]
              simp only [System.turn, system, System.ofAct, execute, Shared.call,
                Shared.close_of_open hopen, Act.run_map, Act.journal_bind,
                Journal.deliveries_append]
              rw [(engine.quiet_retire host).deliveries_eq]
              rfl

/-! ## Refusals -/

/-- A request that is refused leaves the metrics as they are. -/
theorem get_enqueue_of_error (hmetered : callbacks.Metered cell)
    (h : Books callbacks cell own accepted dispatched timed ⟨service, host⟩)
    {allocator : Allocator} {request : Request} {error : EngineError}
    (herror : ((service.enqueue allocator request).run host).value.1 = .error error) :
    cell.get ((service.enqueue allocator request).run host).host = cell.get host := by
  rcases service.enqueue_cases allocator request host with
    ⟨-, _, hrun⟩ | ⟨_, engine, -, hopen, ⟨_, -, hrun⟩ | ⟨-, hrun⟩⟩
  · rw [hrun]
  -- The engine was asked and refused; a push delivers nothing, so the cell is as before.
  · obtain ⟨hcallbacks, hholds, -⟩ := h.engine engine hopen
    rw [hrun]
    exact Engine.get_step (hcallbacks.symm ▸ hmetered) hholds (.push ..) host
  · rw [hrun] at herror
    cases herror

/-- A dispatch that is refused finds the engine closed and leaves everything as it is. -/
theorem after_dispatch_of_refuses {command : Command} {op : Op} {elapsed : Duration}
    (hcommand : command.IsDispatch op elapsed)
    (hrefuses : ((system σ).turn ⟨service, host⟩ command).answer.Refuses) :
    ((system σ).turn ⟨service, host⟩ command).after = ⟨service, host⟩ := by
  cases hopen : service.shared.engine with
  | none => rw [turn_dispatch_of_closed hcommand hopen]
  | some engine =>
      obtain ⟨report, events, hturn⟩ := turn_dispatch_of_open hcommand hopen host
      rw [hturn] at hrefuses
      cases hrefuses

/-- A command that is refused leaves the metrics as they are. -/
theorem get_turn_of_refuses (hmetered : callbacks.Metered cell) {state : Hosted (Service σ) σ}
    (h : Books callbacks cell own accepted dispatched timed state) {command : Command}
    (hrefuses : ((system σ).turn state command).answer.Refuses) :
    cell.get ((system σ).turn state command).after.host = cell.get state.host := by
  obtain ⟨service, host⟩ := state
  cases command with
  | enqueue allocator request =>
      obtain ⟨error, herror⟩ : ∃ error,
          ((service.enqueue allocator request).run host).value.1 = .error error := by
        generalize hanswer : ((system σ).turn _ _).answer = answer at hrefuses
        cases hrefuses with
        | enqueued error => exact ⟨error, Answer.enqueued.inj hanswer⟩
        | dispatched error => cases hanswer
      exact h.get_enqueue_of_error hmetered herror
  | dispatchOne elapsed => rw [after_dispatch_of_refuses (.one elapsed) hrefuses]
  | dispatchAll elapsed => rw [after_dispatch_of_refuses (.all elapsed) hrefuses]
  | enqueueBatch | status | direct => nomatch hrefuses

end Books

/-! ## A whole run -/

variable {config : Config σ} {host : σ}

/-- A new service has empty books. -/
theorem books_new (hfresh : cell.get host = {}) (threshold : Float) :
    Books config.callbacks cell True [] [] 0
      ⟨{ shared := .ofEngine (.ofConfig config), threshold, metrics := cell }, host⟩ := by
  have hempty : (Engine.ofConfig config).queue.Holds [] := Ring.Holds.empty config.maxQueueSize
  have hqueue : (Engine.ofConfig config).queue.toList = [] := hempty.toList_eq
  constructor
  case metrics_eq => rfl
  case received_eq => exact congrArg Metrics.received hfresh
  case processed_eq => exact congrArg Metrics.processed hfresh
  case durations_eq => exact congrArg (Histogram.count ∘ Metrics.durations) hfresh
  case engine =>
    rintro _ ⟨⟩
    exact ⟨rfl, hqueue.symm ▸ hempty, rfl⟩
  case within =>
    intro _ label
    show 0 + ((Engine.ofConfig config).queue.toList.map Record.label).count label ≤ 0
    rw [hqueue]
    exact Nat.le_refl 0

/-- A new service keeps its books in every run. -/
theorem books_run (hmetered : config.callbacks.Metered cell) (hfresh : cell.get host = {})
    (threshold : Float) (commands : List Command) :
    let service : Service σ := { shared := .ofEngine (.ofConfig config), threshold, metrics := cell }
    let turns := (system σ).history ⟨service, host⟩ commands
    Books config.callbacks cell (∀ turn ∈ turns, ¬ turn.command.Bypasses) (accepted turns)
        (dispatched turns) (turns.countP isTimed) ((system σ).final ⟨service, host⟩ commands) ∧
      (turns.flatMap fun turn ↦ turn.journal.deliveries) = dispatched turns := by
  intro service turns
  refine System.run_induction (motive := fun turns state ↦
    Books config.callbacks cell (∀ turn ∈ turns, ¬ turn.command.Bypasses) (accepted turns)
        (dispatched turns) (turns.countP isTimed) state ∧
      (turns.flatMap fun turn ↦ turn.journal.deliveries) = dispatched turns) ?_ ?_ commands
  · exact ⟨(books_new hfresh threshold).mono fun _ ↦ trivial, rfl⟩
  · intro turns state command ⟨hbooks, hdeliveries⟩
    constructor
    · have hturn := hbooks.turn hmetered command
      have htimed : [(system σ).turn state command].countP isTimed =
          (isTimed ((system σ).turn state command)).toNat := by
        rw [List.countP_singleton]
        cases isTimed ((system σ).turn state command) <;> rfl
      simp only [accepted, dispatched, List.flatMap_append, List.flatMap_singleton,
        List.countP_append, htimed]
      -- The premise about bypassing grows with the run, so each half of it is taken from the whole.
      refine hturn.mono fun hown ↦ ⟨?_, ?_⟩
      · intro turn hmem
        exact hown turn (List.mem_append_left _ hmem)
      · exact hown _ (List.mem_append_right _ (List.mem_singleton.mpr rfl))
    · have hturn := hbooks.deliveries_turn hmetered command
      simp only [dispatched, List.flatMap_append, List.flatMap_singleton, hdeliveries, hturn]
      rfl

/-- The metrics of a service account for every event. They begin empty, and the handler of the engine
counts in them. Then, after whatever was done with the service and with the engine behind it, the
events received under a label are the requests of that label that were accepted, and the events
processed under it are the records of that label that were dispatched: these are what the handler was
given, however it ended. As long as the engine is open its own counter is the total of these counts.
The durations are as many as the dispatches that were carried out. A request or a dispatch that is
refused leaves the metrics as they are, and so does an item of a batch. If no event was pushed past
the service, no label was processed more often than received. -/
theorem metrics_exact (config : Config σ) (threshold : Float) (cell : Cell σ Metrics) (host : σ)
    (hmetered : config.callbacks.Metered cell) (hfresh : cell.get host = {})
    (commands : List Command) :
    let service : Service σ := { shared := .ofEngine (.ofConfig config), threshold, metrics := cell }
    let turns := (system σ).history ⟨service, host⟩ commands
    let last := (system σ).final ⟨service, host⟩ commands
    let metrics := cell.get last.host
    (∀ label, metrics.received.count label = (accepted turns).count label) ∧
      (∀ label, metrics.processed.count label =
        ((dispatched turns).map Record.label).count label) ∧
      (turns.flatMap fun turn ↦ turn.journal.deliveries) = dispatched turns ∧
      (last.object.shared.isClosed = false →
        metrics.processed.total = last.object.shared.processed) ∧
      metrics.durations.count = turns.countP isTimed ∧
      (∀ command, ((system σ).turn last command).answer.Refuses →
        cell.get ((system σ).turn last command).after.host = metrics) ∧
      (∀ allocator index request error,
        let item := (last.object.enqueueItem allocator index request).run last.host
        item.value.1 = .error error → cell.get item.host = metrics) ∧
      ((∀ command ∈ commands, ¬ command.Bypasses) →
        ∀ label, metrics.processed.count label ≤ metrics.received.count label) := by
  intro service turns last metrics
  obtain ⟨hbooks, hdeliveries⟩ := books_run hmetered hfresh threshold commands
  have hreceived : ∀ label, metrics.received.count label = (accepted turns).count label := by
    intro label
    rw [← Series.count_tally]
    exact congrArg (Series.count · label) hbooks.received_eq
  have hprocessed : ∀ label, metrics.processed.count label =
      ((dispatched turns).map Record.label).count label := by
    intro label
    rw [← Series.count_tally]
    exact congrArg (Series.count · label) hbooks.processed_eq
  refine ⟨hreceived, hprocessed, hdeliveries, ?_, hbooks.durations_eq, ?_, ?_, ?_⟩
  · intro hopen
    obtain ⟨engine, hengine⟩ : ∃ engine, last.object.shared.engine = some engine :=
      Option.isSome_iff_exists.mp (Option.isNone_eq_false_iff.mp hopen)
    -- The engine's own counter and the series count the same records.
    obtain ⟨-, -, hcount⟩ := hbooks.engine engine hengine
    have htotal : metrics.processed.total = (dispatched turns).length := by
      rw [show metrics.processed = _ from hbooks.processed_eq, Series.total_tally, List.length_map]
    rw [htotal, Shared.processed, hengine]
    exact hcount.symm
  · intro command hrefuses
    exact hbooks.get_turn_of_refuses hmetered hrefuses
  · intro allocator index request error item herror
    obtain ⟨events, hitem⟩ := last.object.run_enqueueItem allocator index request last.host
    simp only [item, hitem] at herror ⊢
    exact Books.get_enqueue_of_error hmetered hbooks herror
  · intro hown label
    rw [hreceived, hprocessed]
    refine Nat.le_trans (Nat.le_add_right _ _) (hbooks.within ?_ label)
    intro turn hmem
    exact hown turn.command (System.command_mem_of_mem_history hmem)

/-- A batch of five requests to a service with room for two: one source is blocked, one kind is
unknown, and one request finds the queue full. The handler panics. -/
theorem metrics_exact_of_panicking_handler :
    let config : Config Bench :=
      { name := "small"
        maxQueueSize := 2
        callbacks :=
          { handler := some (.metered Bench.metricsCell
              (Doubles.failing Bench.attemptsCell true "busy"))
            filter := some (SourceBlocklist.filter ⟨["noise"]⟩) } }
    let service : Service Bench :=
      { shared := .ofEngine (.ofConfig config), metrics := Bench.metricsCell }
    let commands : List Command :=
      [.enqueueBatch (fun _ ↦ .unlimited)
          [⟨0, "a", []⟩, ⟨0, "noise", []⟩, ⟨99, "a", []⟩, ⟨0, "b", []⟩, ⟨0, "a", []⟩],
        .direct (.perform .start), .dispatchOne ⟨0, 5, by decide⟩]
    let turns := (system Bench).history ⟨service, {}⟩ commands
    let metrics := Bench.metricsCell.get ((system Bench).final ⟨service, {}⟩ commands).host
    (config.callbacks.Metered Bench.metricsCell ∧ Bench.metricsCell.get {} = {}) ∧
      (accepted turns = [⟨.data, "a"⟩, ⟨.data, "noise"⟩, ⟨.data, "b"⟩] ∧
        dispatched turns = [⟨.data, "a", []⟩] ∧ turns.countP isTimed = 1) ∧
      metrics.received.count ⟨.data, "noise"⟩ = 1 ∧ metrics.processed.count ⟨.data, "a"⟩ = 1 ∧
      metrics.processed.total = 1 ∧ metrics.durations.count = 1 ∧
      ∀ label, metrics.processed.count label ≤ metrics.received.count label := by
  intro config service commands turns metrics
  have hmetered : config.callbacks.Metered Bench.metricsCell := by
    constructor
    case handler => exact ⟨_, rfl, fun _ _ ↦ rfl⟩
    case filter =>
      rintro filter hfilter record host
      cases hfilter
      rfl
    case observer =>
      intro observer hobserver
      cases hobserver
    case sink =>
      intro write hwrite
      cases hwrite
  have hturns : accepted turns = [⟨.data, "a"⟩, ⟨.data, "noise"⟩, ⟨.data, "b"⟩] ∧
      dispatched turns = [⟨.data, "a", []⟩] ∧ turns.countP isTimed = 1 := by
    decide +kernel
  obtain ⟨haccepted, hdispatched, htimed⟩ := hturns
  have hown : ∀ command ∈ commands, ¬ command.Bypasses := by
    intro command hmem hbypasses
    cases hbypasses
    simp [commands] at hmem
  -- The run is spelled out, so that it is matched and not carried out.
  subst metrics turns service
  obtain ⟨hreceived, hprocessed, -, htotal, hdurations, -, -, hle⟩ :=
    metrics_exact config defaultHealthThreshold Bench.metricsCell {} hmetered rfl commands
  refine ⟨⟨hmetered, rfl⟩, ⟨haccepted, hdispatched, htimed⟩, ?_, ?_, ?_, ?_, hle hown⟩
  · rw [hreceived, haccepted]
    decide +kernel
  · rw [hprocessed, hdispatched]
    decide +kernel
  · rw [htotal (by decide +kernel)]
    decide +kernel
  · rw [hdurations, htimed]

end Service

end EventStaging
