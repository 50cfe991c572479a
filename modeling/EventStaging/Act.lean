import EventStaging.Record
import EventStaging.Trace

/-!
# Actions on the host

An engine works with the program around it by calling into it and by reporting to it. An action
takes the state of the host and gives a value, the observations made on the way, in order, and the
state in which it leaves the host. `Act.run_bind` says that actions in sequence hand the host on and
join their journals.
-/

namespace EventStaging

/-- What can be seen of an engine from outside while it works: the filter was asked about a record,
the handler was given one, the observer was told of a change of state, the sink was given a log
line, or a trace event was reported. The calls are seen with how they end. -/
inductive Observation where
  | offered (record : Record) (outcome : Outcome Bool)
  | delivered (record : Record) (outcome : Outcome Unit)
  | notified (old new : Lifecycle) (outcome : Outcome Unit)
  | logged (level : Level) (message : String) (outcome : Outcome Unit)
  | traced (event : Trace.Event)
  deriving DecidableEq, Repr

/-- What was observed, in order. -/
abbrev Journal := List Observation

namespace Journal

/-- The trace events of a journal. -/
def events (journal : Journal) : List Trace.Event :=
  journal.filterMap fun
    | .traced event => some event
    | _ => none

/-- The log lines of a journal. -/
def lines (journal : Journal) : List (Level × String) :=
  journal.filterMap fun
    | .logged level message _ => some (level, message)
    | _ => none

/-- The records that the handler was given. -/
def deliveries (journal : Journal) : List Record :=
  journal.filterMap fun
    | .delivered record _ => some record
    | _ => none

/-- The records that the filter was asked about. -/
def offers (journal : Journal) : List Record :=
  journal.filterMap fun
    | .offered record _ => some record
    | _ => none

/-- The changes of state that the observer was told of. -/
def transitions (journal : Journal) : List (Lifecycle × Lifecycle) :=
  journal.filterMap fun
    | .notified old new _ => some (old, new)
    | _ => none

end Journal

/-- What an action did: its value, what was observed on the way, and the host as the action leaves
it. -/
structure Done (σ α : Type) where
  value : α
  journal : Journal
  host : σ

/-- An action on a host whose state is of type `σ`. -/
def Act (σ α : Type) : Type := σ → Done σ α

namespace Act

variable {σ α β γ : Type}

/-- Carries an action out. -/
def run (action : Act σ α) (host : σ) : Done σ α := action host

instance : Monad (Act σ) where
  pure value := fun host ↦ ⟨value, [], host⟩
  map f action := fun host ↦
    let ⟨value, journal, host⟩ := action host
    ⟨f value, journal, host⟩
  bind action next := fun host ↦
    let ⟨value, journal, host⟩ := action host
    let second := next value host
    ⟨second.value, journal ++ second.journal, second.host⟩

/-- Makes an observation. -/
def observe (observation : Observation) : Act σ Unit := fun host ↦ ⟨(), [observation], host⟩

/-- Reports a trace event. -/
def trace (event : Trace.Event) : Act σ Unit := observe (.traced event)

/-- Calls into the host and notes how the call ended. -/
def call (f : σ → α × σ) (note : α → Observation) : Act σ α := fun host ↦
  let answer := f host
  ⟨answer.1, [note answer.1], answer.2⟩

/-- Changes the state of the host without a trace. -/
def modify (f : σ → σ) : Act σ Unit := fun host ↦ ⟨(), [], f host⟩

/-- A value is had without a trace and leaves the host as it is. -/
@[simp] theorem run_pure (value : α) (host : σ) :
    (pure value : Act σ α).run host = ⟨value, [], host⟩ := rfl

/-- A sequence runs its second part on the host that the first one leaves, and shows both in turn.
-/
theorem run_bind (action : Act σ α) (next : α → Act σ β) (host : σ) :
    (action >>= next).run host =
      ⟨((next (action.run host).value).run (action.run host).host).value,
        (action.run host).journal ++
          ((next (action.run host).value).run (action.run host).host).journal,
        ((next (action.run host).value).run (action.run host).host).host⟩ := rfl

@[simp] theorem value_bind (action : Act σ α) (next : α → Act σ β) (host : σ) :
    ((action >>= next).run host).value =
      ((next (action.run host).value).run (action.run host).host).value := rfl

@[simp] theorem host_bind (action : Act σ α) (next : α → Act σ β) (host : σ) :
    ((action >>= next).run host).host =
      ((next (action.run host).value).run (action.run host).host).host := rfl

@[simp] theorem journal_bind (action : Act σ α) (next : α → Act σ β) (host : σ) :
    ((action >>= next).run host).journal =
      (action.run host).journal ++
        ((next (action.run host).value).run (action.run host).host).journal := rfl

/-- An observation shows itself and leaves the host as it is. -/
@[simp] theorem run_observe (observation : Observation) (host : σ) :
    (observe observation : Act σ Unit).run host = ⟨(), [observation], host⟩ := rfl

/-- A trace event shows itself and leaves the host as it is. -/
@[simp] theorem run_trace (event : Trace.Event) (host : σ) :
    (trace event : Act σ Unit).run host = ⟨(), [.traced event], host⟩ := rfl

/-- A call is the only action that changes the host, and shows the note of its answer. -/
@[simp] theorem run_call (f : σ → α × σ) (note : α → Observation) (host : σ) :
    (call f note).run host = ⟨(f host).1, [note (f host).1], (f host).2⟩ := rfl

/-- Two actions are equal when they do the same on every host. -/
theorem ext {a b : Act σ α} (h : ∀ host, a.run host = b.run host) : a = b := funext h

/-- Changing the value of an action changes nothing else. -/
@[simp] theorem run_map (f : α → β) (action : Act σ α) (host : σ) :
    (f <$> action).run host =
      ⟨f (action.run host).value, (action.run host).journal, (action.run host).host⟩ := rfl

instance : LawfulMonad (Act σ) :=
  LawfulMonad.mk' (Act σ)
    (fun _ ↦ rfl)
    (fun _ _ ↦ rfl)
    (fun _ _ _ ↦ ext fun _ ↦ by
      simp only [run_bind, List.append_assoc])
    (fun _ _ ↦ rfl)
    (fun _ _ ↦ rfl)
    (fun _ _ ↦ rfl)
    (fun _ _ ↦ ext fun _ ↦ by
      simp only [run_bind, run_pure, run_map, List.append_nil])

end Act

end EventStaging
