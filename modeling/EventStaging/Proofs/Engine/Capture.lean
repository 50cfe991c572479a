import EventStaging.Doubles.Basic
import EventStaging.Proofs.Engine.Traits

/-!
# Captured logs

A sink that captures its lines keeps them in a place of the host. If no other callback changes that
place, the log that is kept there grows by the lines that the engine offers, and by nothing else:
`Act.Captures` says so of an action, and `Engine.captures_run` of every run of an engine.
`Callbacks.capturing` keeps a log beside the state of a host in this way.
-/

namespace EventStaging

open Doubles (LogCapture)

variable {σ ρ α β : Type} {cell : Cell σ LogCapture}

/-- The sink captures its lines in a place of the host that the other callbacks leave alone. -/
structure Callbacks.Captures (callbacks : Callbacks σ) (cell : Cell σ LogCapture) : Prop where
  sink : callbacks.sink = some (LogCapture.sink cell)
  handler : ∀ handler, callbacks.handler = some handler →
    ∀ record host, cell.get (handler record host).2 = cell.get host
  filter : ∀ filter, callbacks.filter = some filter →
    ∀ record host, cell.get (filter record host).2 = cell.get host
  observer : ∀ observer, callbacks.observer = some observer →
    ∀ old new host, cell.get (observer old new host).2 = cell.get host

/-! ## A log beside the host -/

/-- The log of a host that keeps one beside its other state. -/
def capturedLog : Cell (ρ × LogCapture) LogCapture :=
  ⟨Prod.snd, fun log host ↦ (host.1, log), fun _ _ ↦ rfl⟩

@[simp] theorem get_capturedLog (host : ρ × LogCapture) : capturedLog.get host = host.2 := rfl

/-- A call that leaves the log of the host alone. -/
def besideLog (f : ρ → α × ρ) (host : ρ × LogCapture) : α × (ρ × LogCapture) :=
  ((f host.1).1, (f host.1).2, host.2)

/-- The same handler, filter and observer, with a sink that captures the log beside them. -/
def Callbacks.capturing (callbacks : Callbacks ρ) : Callbacks (ρ × LogCapture) where
  handler := callbacks.handler.map fun handler record ↦ besideLog (handler record)
  filter := callbacks.filter.map fun filter record ↦ besideLog (filter record)
  sink := some (LogCapture.sink capturedLog)
  observer := callbacks.observer.map fun observer old new ↦ besideLog (observer old new)

/-- The same configuration with a captured log. -/
def Config.capturing (config : Config ρ) : Config (ρ × LogCapture) where
  name := config.name
  maxQueueSize := config.maxQueueSize
  enableLogging := config.enableLogging
  callbacks := config.callbacks.capturing

/-- The log beside the host is captured, since the other callbacks do not know of it. -/
theorem Callbacks.captures_capturing (callbacks : Callbacks ρ) :
    callbacks.capturing.Captures capturedLog where
  sink := rfl
  handler := by
    intro handler hhandler record host
    obtain ⟨inner, -, rfl⟩ := Option.map_eq_some_iff.mp hhandler
    rfl
  filter := by
    intro filter hfilter record host
    obtain ⟨inner, -, rfl⟩ := Option.map_eq_some_iff.mp hfilter
    rfl
  observer := by
    intro observer hobserver old new host
    obtain ⟨inner, -, rfl⟩ := Option.map_eq_some_iff.mp hobserver
    rfl

/-! ## Actions that add to a log -/

/-- An action adds the lines that it offers to the log, and changes nothing else there. -/
def Act.Captures (cell : Cell σ LogCapture) (action : Act σ α) : Prop :=
  ∀ host, (cell.get (action.run host).host).lines =
    (cell.get host).lines ++ (action.run host).journal.lines

/-- A call that is noted as anything but a log line must leave the log alone. -/
theorem Act.Captures.call {f : σ → α × σ} {note : α → Observation}
    (hcell : ∀ host, cell.get (f host).2 = cell.get host)
    (hnote : ∀ answer, Journal.lines [note answer] = []) : Captures cell (Act.call f note) := by
  intro host
  rw [run_call, hnote, hcell, List.append_nil]

/-- A sequence of actions adds the lines of its parts. -/
def Act.Trait.captures (cell : Cell σ LogCapture) : Act.Trait σ :=
  .tells (fun host ↦ (cell.get host).lines) (fun lines journal ↦ lines ++ journal.lines)
    List.append_nil fun lines first second ↦ by rw [Journal.lines_append, List.append_assoc]

namespace Engine

open Act (Captures)

variable {engine : Engine σ}

/-- A line that is offered is found in the log afterwards. -/
theorem captures_log (h : engine.callbacks.Captures cell) (level : Level) (message : String) :
    Captures cell (engine.log level message) := by
  intro host
  unfold log
  rw [h.sink]
  cases engine.logging with
  | false => exact (List.append_nil _).symm
  | true =>
      show (cell.get (cell.modify (LogCapture.add level message) host)).lines = _
      rw [Cell.get_modify, LogCapture.lines_add]
      rfl

/-- In everything that such an engine does, the log grows by the lines offered. -/
theorem bears_captures (h : engine.callbacks.Captures cell) : engine.Bears (.captures cell) where
  log level message _ := captures_log h level message
  trace _ := fun _ ↦ (List.append_nil _).symm
  offer filter hfilter record := Captures.call (h.filter filter hfilter record) fun _ ↦ rfl
  deliver handler hhandler record := Captures.call (h.handler handler hhandler record) fun _ ↦ rfl
  notify observer hobserver old new := Captures.call (h.observer observer hobserver old new) fun _ ↦ rfl

/-- The log of an engine grows by the lines of the whole run. -/
theorem captures_run (h : engine.callbacks.Captures cell) (ops : List Op) :
    Captures cell (engine.run ops) := (bears_captures h).run ops

end Engine

end EventStaging
