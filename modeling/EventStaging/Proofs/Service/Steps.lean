import EventStaging.Proofs.Service.Commands

/-!
# What a service has its engine do

A command to a service has the engine behind it take steps: one for a request or a dispatch, one for
each request of a batch, and none once the engine is closed. `Conducts` says that steps lead from
one state of a shared engine to another and keep the books on the way, `Conducts.append` that such
steps can follow each other, and `Service.conduct_execute` that every command does so with its
steps.
-/

namespace EventStaging

variable {σ : Type}

/-! ## Steps of an engine that may be closed -/

/-- Steps lead from what a shared engine holds to what it holds afterwards. As long as it is open
they keep the books; it may be closed after them, and a closed engine takes no steps. -/
inductive Conducts : Option (Engine σ) → List (Step σ) → Option (Engine σ) → Prop where
  | onward {first last : Engine σ} {steps : List (Step σ)} (books : Accounts first steps last) :
    Conducts (some first) steps (some last)
  | closing {first last : Engine σ} {steps : List (Step σ)} (books : Accounts first steps last) :
    Conducts (some first) steps none
  | closed : Conducts none [] none

/-- The ring of an engine holds a list, unless the engine is closed. -/
def Holding (engine? : Option (Engine σ)) : Prop :=
  ∀ engine, engine? = some engine → engine.queue.Holds engine.queue.toList

namespace Conducts

variable {before middle after : Option (Engine σ)} {earlier later steps : List (Step σ)}
  {first last : Engine σ}

/-- No steps lead from what is there to the same. -/
theorem refl (h : Holding before) : Conducts before [] before := by
  cases before with
  | none => exact .closed
  | some engine => exact .onward (.nil (h engine rfl))

/-- Steps may follow each other if the first ones lead to where the others begin. -/
theorem append (hearlier : Conducts before earlier middle) (hlater : Conducts middle later after) :
    Conducts before (earlier ++ later) after := by
  cases hearlier with
  | onward hbooks =>
      cases hlater with
      | onward hrest => exact .onward (hbooks.append hrest)
      | closing hrest => exact .closing (hbooks.append hrest)
  | closing hbooks =>
      cases hlater with
      | closed =>
          rw [List.append_nil]
          exact .closing hbooks
  | closed =>
      cases hlater with
      | closed => exact .closed

/-- An operation on an open engine is one step. -/
theorem step (h : Holding (some first)) (op : Op) (host : σ) :
    Conducts (some first) [first.step op host] (some (first.step op host).after) :=
  .onward (Accounts.step (h first rfl) op host)

/-- Steps lead to a ring that holds a list, or to a closed engine. -/
theorem holding (h : Conducts before steps after) : Holding after := by
  intro engine hopen
  cases h with
  | onward hbooks =>
      cases hopen
      exact hbooks.holds
  | closing hbooks => cases hopen
  | closed => cases hopen

/-- The books that steps of an open engine keep. -/
theorem books (h : Conducts (some first) steps after) :
    ∃ last, Accounts first steps last ∧ ∀ engine, after = some engine → engine = last := by
  cases h with
  | onward hbooks =>
      refine ⟨_, hbooks, ?_⟩
      intro engine hopen
      exact (Option.some.inj hopen).symm
  | closing hbooks =>
      refine ⟨_, hbooks, ?_⟩
      intro engine hopen
      cases hopen

/-- A closed engine stays closed. -/
theorem of_closed (h : Conducts none steps after) : steps = [] ∧ after = none := by
  cases h
  exact ⟨rfl, rfl⟩

/-- The handler of the engine, if there is one, is given what later steps dispatch. -/
theorem deliveries_eq (hearlier : Conducts (some first) earlier middle)
    (hlater : Conducts middle later after) :
    Journal.deliveries (later.flatMap Step.journal) =
      if first.callbacks.handler.isSome then Engine.dispatched later else [] := by
  cases hlater with
  | onward hbooks =>
      obtain ⟨last, haccounts, hlast⟩ := hearlier.books
      rw [hbooks.deliveries_eq, hlast _ rfl, haccounts.callbacks_eq]
  | closing hbooks =>
      obtain ⟨last, haccounts, hlast⟩ := hearlier.books
      rw [hbooks.deliveries_eq, hlast _ rfl, haccounts.callbacks_eq]
  | closed => exact (ite_self _).symm

end Conducts

/-- The handler is given in a journal what it is given in the steps. -/
def Journal.Delivers (journal : Journal) (steps : List (Step σ)) : Prop :=
  journal.deliveries = Journal.deliveries (steps.flatMap Step.journal)

namespace Journal.Delivers

variable {journal more : Journal} {earlier later steps : List (Step σ)}

/-- What two journals deliver, the steps behind them deliver in turn. -/
theorem append (hearlier : journal.Delivers earlier) (hlater : more.Delivers later) :
    (journal ++ more).Delivers (earlier ++ later) := by
  rw [Delivers, deliveries_append, List.flatMap_append, deliveries_append, hearlier, hlater]

/-- What only reports delivers nothing. -/
theorem of_isReport (h : journal.Only Observation.isReport) :
    journal.Delivers ([] : List (Step σ)) :=
  h.deliveries_eq

/-- A step and trace events after it deliver what the step delivers. -/
theorem of_step (step : Step σ) (events : List Trace.Event) :
    (step.journal ++ events.map Observation.traced).Delivers [step] := by
  rw [Delivers, deliveries_append, (Only.traced events).deliveries_eq, List.append_nil,
    List.flatMap_singleton]

end Journal.Delivers

namespace Service

variable {service : Service σ} {engine : Engine σ} {host : σ}

/-! ## The steps of a command -/

/-- The step that an operation is for a shared engine: none if it is closed. -/
def stepsOf (service : Service σ) (op : Op) (host : σ) : List (Step σ) :=
  service.shared.engine.elim [] fun engine ↦ [engine.step op host]

/-- The steps that a request is: a push, if its kind is known. -/
def enqueueSteps (service : Service σ) (allocator : Allocator) (request : Request) (host : σ) :
    List (Step σ) :=
  match Kind.ofWire? request.kind with
  | none => []
  | some kind => service.stepsOf (.push allocator kind request.source request.payload) host

/-- The steps that the requests of a batch are, each on the host that those before it leave. -/
def batchSteps (allocators : Nat → Allocator) :
    Nat → Service σ → List Request → σ → List (Step σ)
  | _, _, [], _ => []
  | index, service, request :: requests, host =>
    let done := (service.enqueueItem (allocators index) index request).run host
    service.enqueueSteps (allocators index) request host ++
      batchSteps allocators (index + 1) done.value.2 requests done.host

/-- The steps of the engine while a command is carried out. -/
def stepsIn (service : Service σ) (command : Command) (host : σ) : List (Step σ) :=
  match command with
  | .enqueue allocator request => service.enqueueSteps allocator request host
  | .enqueueBatch allocators requests => batchSteps allocators 0 service requests host
  | .dispatchOne _ => service.stepsOf .process host
  | .dispatchAll _ => service.stepsOf .processAll host
  | .direct (.perform op) => service.stepsOf op host
  | .status | .direct .close => []

/-- An operation on an open engine is one step. -/
theorem stepsOf_of_open (h : service.shared.engine = some engine) (op : Op) (host : σ) :
    service.stepsOf op host = [engine.step op host] := by
  rw [stepsOf, h, Option.elim_some]

/-- An operation on a closed engine is no step. -/
theorem stepsOf_of_closed (h : service.shared.engine = none) (op : Op) (host : σ) :
    service.stepsOf op host = [] := by
  rw [stepsOf, h, Option.elim_none]

/-! ## Commands conduct their steps -/

/-- What is done with a service conducts steps of its engine, if these lead to the engine that it
leaves and deliver what it delivers. -/
structure Conduct {α : Type} (service : Service σ) (steps : List (Step σ))
    (done : Done σ (α × Service σ)) : Prop where
  conducts : Conducts service.shared.engine steps done.value.2.shared.engine
  delivers : done.journal.Delivers steps

/-- What is answered makes no difference to the steps. -/
theorem Conduct.map {α β : Type} {steps : List (Step σ)} {action : Act σ (α × Service σ)}
    (h : Conduct service steps (action.run host)) (f : α → β) :
    Conduct service steps ((Prod.map f id <$> action).run host) :=
  ⟨h.conducts, h.delivers⟩

/-- What leaves the engine alone and only reports is no step. -/
theorem Conduct.idle {α : Type} {done : Done σ (α × Service σ)} (h : Holding service.shared.engine)
    (hshared : done.value.2.shared.engine = service.shared.engine)
    (hjournal : done.journal.Only Observation.isReport) : Conduct service [] done where
  conducts := hshared.symm ▸ .refl h
  delivers := .of_isReport hjournal

/-- What does to the engine as an operation does, with trace events after it, is that step. -/
theorem Conduct.perform {α : Type} {done : Done σ (α × Service σ)}
    (hopen : service.shared.engine = some engine) (h : Holding service.shared.engine) (op : Op)
    (host : σ) (hshared : done.value.2.shared.engine = some (engine.step op host).after)
    (events : List Trace.Event)
    (hjournal : done.journal = (engine.step op host).journal ++ events.map .traced) :
    Conduct service [engine.step op host] done where
  conducts := by
    rw [hshared, hopen]
    exact .step (hopen ▸ h) op host
  delivers := by
    rw [hjournal]
    exact .of_step _ events

/-- A request is a push, if its kind is known and the engine open. -/
theorem conduct_enqueue (h : Holding service.shared.engine) (allocator : Allocator)
    (request : Request) (host : σ) :
    Conduct service (service.enqueueSteps allocator request host)
      ((service.enqueue allocator request).run host) := by
  rcases service.enqueue_cases allocator request host with
    ⟨hnone, error, hrun⟩ | ⟨kind, engine, hkind, hopen, hpushed⟩
  · have hsteps : service.enqueueSteps allocator request host = [] := by
      unfold enqueueSteps
      split
      · rfl
      · exact stepsOf_of_closed (hnone _ ‹_›) _ host
    rw [hsteps, hrun]
    exact .idle h rfl .nil
  · have hsteps : service.enqueueSteps allocator request host =
        [engine.step (.push allocator kind request.source request.payload) host] := by
      rw [enqueueSteps, hkind]
      exact stepsOf_of_open hopen _ host
    rw [hsteps]
    -- A request that is taken is noted as well, in an event that is no part of the step.
    rcases hpushed with ⟨error, -, hrun⟩ | ⟨-, hrun⟩
    · refine .perform hopen h _ host ?_ [] ?_
      · rw [hrun]
        rfl
      · rw [hrun]
        exact (List.append_nil _).symm
    · refine .perform hopen h _ host ?_ [.eventReceived kind request.source] ?_
      · rw [hrun]
        rfl
      · rw [hrun]
        rfl

/-- A refusal that is reported delivers nothing, so an item of a batch conducts what the request
does by itself. -/
theorem conduct_enqueueItem (h : Holding service.shared.engine) (allocator : Allocator)
    (index : Nat) (request : Request) (host : σ) :
    Conduct service (service.enqueueSteps allocator request host)
      ((service.enqueueItem allocator index request).run host) := by
  obtain ⟨events, hitem⟩ := service.run_enqueueItem allocator index request host
  obtain ⟨hconducts, hdelivers⟩ := conduct_enqueue h allocator request host
  rw [hitem]
  refine ⟨hconducts, ?_⟩
  rw [← List.append_nil (service.enqueueSteps allocator request host)]
  exact hdelivers.append (.of_isReport (.traced events))

/-- A batch has the steps of its requests, one after the other. -/
theorem conduct_enqueueFrom (h : Holding service.shared.engine) (allocators : Nat → Allocator)
    (index : Nat) (requests : List Request) (host : σ) :
    Conduct service (batchSteps allocators index service requests host)
      ((enqueueFrom allocators index service requests).run host) := by
  induction requests generalizing service index host with
  | nil => exact .idle h rfl .nil
  | cons request requests ih =>
      obtain ⟨hfirst, hdelivers⟩ := conduct_enqueueItem h (allocators index) index request host
      obtain ⟨hrest, hmore⟩ := ih hfirst.holding (index + 1)
        ((service.enqueueItem (allocators index) index request).run host).host
      exact ⟨hfirst.append hrest, hdelivers.append hmore⟩

/-- A dispatch is the step of its operation. -/
theorem conduct_dispatch {command : Command} {op : Op} {elapsed : Duration}
    (hcommand : command.IsDispatch op elapsed) (h : Holding service.shared.engine) (host : σ) :
    Conduct service (service.stepsOf op host) ((service.execute command).run host) := by
  cases hopen : service.shared.engine with
  | none =>
      have hturn := turn_dispatch_of_closed hcommand hopen host
      rw [stepsOf_of_closed hopen]
      refine .idle h ?_ ?_
      · exact congrArg (fun turn ↦ turn.after.object.shared.engine) hturn
      · rw [show ((service.execute command).run host).journal = [] from
          congrArg Turn.journal hturn]
        exact .nil
  | some engine =>
      obtain ⟨report, events, hturn⟩ := turn_dispatch_of_open hcommand hopen host
      rw [stepsOf_of_open hopen]
      refine .perform hopen h op host ?_ events ?_
      · exact congrArg (fun turn ↦ turn.after.object.shared.engine) hturn
      · exact congrArg Turn.journal hturn

/-- An operation that goes to the engine directly is that step, and closing is none. -/
theorem conduct_direct (h : Holding service.shared.engine) (call : Shared.Call) (host : σ) :
    Conduct service (service.stepsIn (.direct call) host)
      ((service.execute (.direct call)).run host) := by
  cases hopen : service.shared.engine with
  | none =>
      have hsteps : service.stepsIn (.direct call) host = [] := by
        cases call with
        | perform op => exact stepsOf_of_closed hopen op host
        | close => rfl
      rw [hsteps, execute, Shared.call_of_closed hopen]
      exact .idle h rfl .nil
  | some engine =>
      cases call with
      | perform op =>
          rw [stepsIn, stepsOf_of_open hopen, execute, Shared.call, Shared.perform_of_open hopen]
          exact .perform hopen h op host rfl [] (List.append_nil _).symm
      | close =>
          rw [stepsIn, execute, Shared.call, Shared.close_of_open hopen]
          constructor
          · rw [hopen]
            exact .closing (.nil (h engine hopen))
          · refine .of_isReport ?_
            exact Act.Only.bind engine.quiet_retire
              (fun _ ↦ Act.Only.bind (.observe rfl) fun _ ↦ .pure _) host

/-- Every command conducts its steps. -/
theorem conduct_execute (h : Holding service.shared.engine) (command : Command) (host : σ) :
    Conduct service (service.stepsIn command host) ((service.execute command).run host) := by
  cases command with
  | enqueue allocator request => exact (conduct_enqueue h allocator request host).map _
  | enqueueBatch allocators requests =>
      exact (conduct_enqueueFrom h allocators 0 requests host).map _
  | dispatchOne elapsed => exact conduct_dispatch (.one elapsed) h host
  | dispatchAll elapsed => exact conduct_dispatch (.all elapsed) h host
  | status => exact .idle h rfl .nil
  | direct call => exact conduct_direct h call host

end Service

end EventStaging
