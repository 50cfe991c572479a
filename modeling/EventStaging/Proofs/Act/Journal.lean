import EventStaging.Act

/-!
# Reading journals

What is read from a journal is read from its parts in turn. `Act.Only` says which kinds of
observations an action may make, and `Journal.Only.filterMap_eq_nil` that nothing else is read from
its journal. An action is quiet when it only reports, by log lines and trace events, and calls no
handler, filter or observer.
-/

namespace EventStaging

namespace Journal

/-- How the filter answered, call by call. -/
def verdicts (journal : Journal) : List (Outcome Bool) :=
  journal.filterMap fun
    | .offered _ outcome => some outcome
    | _ => none

/-- How the calls of the handler and of the observer ended. -/
def endings (journal : Journal) : List (Outcome Unit) :=
  journal.filterMap fun
    | .delivered _ outcome | .notified _ _ outcome => some outcome
    | _ => none

/-- What is read from two journals in turn is read from the one after the other. This holds of the
log lines as of the other readings. -/
@[simp] theorem lines_append (first second : Journal) :
    lines (first ++ second) = lines first ++ lines second :=
  List.filterMap_append

@[simp] theorem deliveries_append (first second : Journal) :
    deliveries (first ++ second) = deliveries first ++ deliveries second :=
  List.filterMap_append

@[simp] theorem offers_append (first second : Journal) :
    offers (first ++ second) = offers first ++ offers second :=
  List.filterMap_append

@[simp] theorem transitions_append (first second : Journal) :
    transitions (first ++ second) = transitions first ++ transitions second :=
  List.filterMap_append

@[simp] theorem verdicts_append (first second : Journal) :
    verdicts (first ++ second) = verdicts first ++ verdicts second :=
  List.filterMap_append

@[simp] theorem endings_append (first second : Journal) :
    endings (first ++ second) = endings first ++ endings second :=
  List.filterMap_append

/-- Trace events are no log lines. -/
theorem lines_traced (events : List Trace.Event) : lines (events.map .traced) = [] := by
  rw [lines, List.filterMap_map, List.filterMap_eq_nil_iff]
  exact fun _ _ ↦ rfl

/-- The handler and the observer end as many calls as they are given. -/
theorem length_endings (journal : Journal) :
    journal.endings.length = journal.deliveries.length + journal.transitions.length := by
  induction journal with
  | nil => rfl
  | cons observation journal ih =>
      cases observation <;>
        simp only [endings, deliveries, transitions, List.filterMap_cons,
          List.length_cons] at ih ⊢ <;>
        omega

end Journal

/-! ## What an action may do -/

/-- A journal that holds only observations of an allowed kind. -/
def Journal.Only (allowed : Observation → Bool) (journal : Journal) : Prop :=
  ∀ observation ∈ journal, allowed observation

namespace Journal.Only

variable {allowed : Observation → Bool} {journal : Journal}

/-- An empty journal holds nothing that is not allowed. -/
theorem nil : Only allowed [] := by
  intro observation hmem
  cases hmem

/-- Two journals hold only what is allowed if each of them does. -/
theorem append {first second : Journal} (hfirst : Only allowed first)
    (hsecond : Only allowed second) : Only allowed (first ++ second) := by
  intro observation hmem
  rcases List.mem_append.mp hmem with hmem | hmem
  · exact hfirst observation hmem
  · exact hsecond observation hmem

/-- Nothing is read from a journal if nothing is read from what it may hold. -/
theorem filterMap_eq_nil {α : Type} {read : Observation → Option α} (h : journal.Only allowed)
    (hread : ∀ observation, allowed observation → read observation = none) :
    journal.filterMap read = [] := by
  rw [List.filterMap_eq_nil_iff]
  intro observation hmem
  exact hread observation (h observation hmem)

end Journal.Only

/-- An action that makes only observations of an allowed kind, on whatever host. -/
def Act.Only {σ α : Type} (allowed : Observation → Bool) (action : Act σ α) : Prop :=
  ∀ host, (action.run host).journal.Only allowed

namespace Act.Only

variable {σ α β : Type} {allowed : Observation → Bool}

/-- A value shows nothing. -/
theorem pure (value : α) : Only allowed (Pure.pure value : Act σ α) := fun _ ↦ .nil

/-- A sequence shows only what its parts may show. -/
theorem bind {action : Act σ α} {next : α → Act σ β} (haction : Only allowed action)
    (hnext : ∀ value, Only allowed (next value)) : Only allowed (action >>= next) := by
  intro host
  exact (haction host).append (hnext _ _)

/-- Changing the value changes nothing that is shown. -/
theorem map {action : Act σ α} (h : Only allowed action) (f : α → β) :
    Only allowed (f <$> action) := fun host ↦ h host

/-- A call shows its note. -/
theorem call {f : σ → α × σ} {note : α → Observation} (h : ∀ answer, allowed (note answer)) :
    Only allowed (Act.call f note) := by
  intro host observation hmem
  rw [run_call, List.mem_singleton] at hmem
  exact hmem ▸ h _

/-- A report shows itself. -/
theorem observe {observation : Observation} (h : allowed observation) :
    Only allowed (Act.observe observation : Act σ Unit) := by
  intro host other hmem
  rw [run_observe, List.mem_singleton] at hmem
  exact hmem ▸ h

/-- What shows only little shows only what is allowed of more. -/
theorem mono {wider : Observation → Bool} {action : Act σ α} (h : Only allowed action)
    (hwider : ∀ observation, allowed observation → wider observation) : Only wider action := by
  intro host observation hmem
  exact hwider observation (h host observation hmem)

end Act.Only

/-! ## Reports -/

/-- Whether an observation is a log line or a trace event. -/
def Observation.isReport : Observation → Bool
  | .logged .. | .traced _ => true
  | .offered .. | .delivered .. | .notified .. => false

/-- Whether an observation is a report, or a question to the filter. -/
def Observation.isIntake : Observation → Bool
  | .offered .. => true
  | observation => observation.isReport

/-- Whether an observation is a report, or a delivery to the handler. -/
def Observation.isDispatch : Observation → Bool
  | .delivered .. => true
  | observation => observation.isReport

/-- Whether an observation is a report, or a message to the observer. -/
def Observation.isMove : Observation → Bool
  | .notified .. => true
  | observation => observation.isReport

/-- The calls into the host, with their results, apart from log lines. -/
def Journal.calls (journal : Journal) : Journal := journal.filter (!·.isReport)

theorem Journal.calls_append (first second : Journal) :
    (first ++ second).calls = first.calls ++ second.calls :=
  List.filter_append ..

/-- What is read from no report is read from the calls. -/
theorem Journal.filterMap_calls {α : Type} {read : Observation → Option α}
    (hread : ∀ observation, observation.isReport → read observation = none) (journal : Journal) :
    journal.calls.filterMap read = journal.filterMap read := by
  rw [calls, List.filterMap_filter]
  refine congrArg (List.filterMap · journal) (funext fun observation ↦ ?_)
  cases hreport : observation.isReport with
  | true => exact (hread observation hreport).symm
  | false => rfl

/-- The calls of a journal tell all that was asked of the filter. -/
theorem Journal.offers_calls (journal : Journal) : journal.calls.offers = journal.offers :=
  journal.filterMap_calls fun observation hreport ↦ by cases observation <;> trivial

/-- The calls of a journal tell all verdicts of the filter. -/
theorem Journal.verdicts_calls (journal : Journal) : journal.calls.verdicts = journal.verdicts :=
  journal.filterMap_calls fun observation hreport ↦ by cases observation <;> trivial

/-- An action that only reports. -/
abbrev Act.Quiet {σ α : Type} (action : Act σ α) : Prop := action.Only Observation.isReport

namespace Act.Only

variable {σ α : Type} {action : Act σ α}

/-- What only reports may stand wherever a filter may be asked. -/
theorem isIntake (h : action.Quiet) : action.Only Observation.isIntake :=
  h.mono fun observation hreport ↦ by cases observation <;> trivial

/-- What only reports may stand wherever the handler may be called. -/
theorem isDispatch (h : action.Quiet) : action.Only Observation.isDispatch :=
  h.mono fun observation hreport ↦ by cases observation <;> trivial

/-- What only reports may stand wherever the observer may be told. -/
theorem isMove (h : action.Quiet) : action.Only Observation.isMove :=
  h.mono fun observation hreport ↦ by cases observation <;> trivial

end Act.Only

namespace Journal.Only

variable {journal : Journal}

/-- Trace events are reports. -/
theorem traced (events : List Trace.Event) : Only Observation.isReport (events.map .traced) := by
  intro observation hmem
  obtain ⟨event, -, rfl⟩ := List.mem_map.mp hmem
  rfl

/-- In a journal of reports there is no verdict of a filter, and no call of any callback but the
sink. -/
theorem verdicts_eq (h : journal.Only Observation.isReport) : journal.verdicts = [] :=
  h.filterMap_eq_nil fun observation hreport ↦ by cases observation <;> trivial

theorem offers_eq (h : journal.Only Observation.isReport) : journal.offers = [] :=
  h.filterMap_eq_nil fun observation hreport ↦ by cases observation <;> trivial

theorem deliveries_eq (h : journal.Only Observation.isReport) : journal.deliveries = [] :=
  h.filterMap_eq_nil fun observation hreport ↦ by cases observation <;> trivial

theorem transitions_eq (h : journal.Only Observation.isReport) : journal.transitions = [] :=
  h.filterMap_eq_nil fun observation hreport ↦ by cases observation <;> trivial

theorem endings_eq (h : journal.Only Observation.isReport) : journal.endings = [] :=
  h.filterMap_eq_nil fun observation hreport ↦ by cases observation <;> trivial

/-- While events are taken in, the handler is not called and the observer not told. -/
theorem deliveries_eq_of_isIntake (h : journal.Only Observation.isIntake) :
    journal.deliveries = [] :=
  h.filterMap_eq_nil fun observation hreport ↦ by cases observation <;> trivial

theorem transitions_eq_of_isIntake (h : journal.Only Observation.isIntake) :
    journal.transitions = [] :=
  h.filterMap_eq_nil fun observation hreport ↦ by cases observation <;> trivial

theorem endings_eq_of_isIntake (h : journal.Only Observation.isIntake) : journal.endings = [] :=
  h.filterMap_eq_nil fun observation hreport ↦ by cases observation <;> trivial

/-- A journal of reports has no calls. -/
theorem calls_eq (h : journal.Only Observation.isReport) : journal.calls = [] := by
  rw [Journal.calls, List.filter_eq_nil_iff]
  intro observation hmem
  rw [h observation hmem]
  exact Bool.false_ne_true

/-- While records are dispatched, the filter is not asked. -/
theorem offers_eq_of_isDispatch (h : journal.Only Observation.isDispatch) : journal.offers = [] :=
  h.filterMap_eq_nil fun observation hreport ↦ by cases observation <;> trivial

/-- While the state changes, neither the filter nor the handler is called. -/
theorem offers_eq_of_isMove (h : journal.Only Observation.isMove) : journal.offers = [] :=
  h.filterMap_eq_nil fun observation hreport ↦ by cases observation <;> trivial

theorem verdicts_eq_of_isMove (h : journal.Only Observation.isMove) : journal.verdicts = [] :=
  h.filterMap_eq_nil fun observation hreport ↦ by cases observation <;> trivial

theorem deliveries_eq_of_isMove (h : journal.Only Observation.isMove) : journal.deliveries = [] :=
  h.filterMap_eq_nil fun observation hreport ↦ by cases observation <;> trivial

end Journal.Only

end EventStaging
