import EventStaging.Shared

/-!
# Pumps

A pump has a shared engine dispatch at regular intervals. Its clock counts milliseconds. The first
tick is due at once; a tick that is handled late by more than a grace of five milliseconds puts the
next one a whole interval after the time of handling, and any other tick leaves the beat as it is.
A pump skips an engine that is not running and ends at the first tick after its engine was closed.
-/

namespace EventStaging

/-- A pump at work: the time between two ticks, when the next one is due, and the number of records
dispatched so far. -/
structure Beat where
  interval : Nat
  due : Nat
  dispatched : Nat := 0
  deriving DecidableEq, Repr

/-- Where a pump stands. It is `beating` while it is at work, it has `ended` after dispatching so
many records, or it is `broken` because it broke down before its first tick. -/
inductive Pump where
  | beating (beat : Beat)
  | ended (dispatched : Nat)
  | broken
  deriving DecidableEq, Repr

/-- How late a tick may be handled without a change of the beat. -/
def lateGrace : Nat := 5

/-- What a tick makes of the engine: nothing if it is closed, and otherwise the number of records
dispatched, which is none unless the engine is running. -/
def Shared.tick {σ : Type} (shared : Shared σ) : Act σ (Option Nat × Shared σ) :=
  match shared.state with
  | none => pure (none, shared)
  | some state =>
    if state.isRunning then do
      let (result, shared) ← shared.processAll
      return (result.toOption, shared)
    else pure (some 0, shared)

namespace Beat

/-- The beat after a tick that is handled at the time `now` and dispatches `count` records. -/
def next (beat : Beat) (now count : Nat) : Beat :=
  { beat with
    due := if now > beat.due + lateGrace then now + beat.interval else beat.due + beat.interval
    dispatched := beat.dispatched + count }

end Beat

namespace Pump

variable {σ : Type}

/-- Whether the pump has come to its end, in whatever way. -/
def isFinished : Pump → Bool
  | .beating _ => false
  | .ended _ | .broken => true

/-- Ends a pump at work. -/
def finish (beat : Beat) (shared : Shared σ) : Act σ Pump := do
  Act.trace (.pumpStopped shared.name beat.dispatched)
  return .ended beat.dispatched

/-- Handles at the time `now` the ticks that are due by then, at most `limit` of them. -/
def catchUp (now : Nat) : Nat → Pump → Shared σ → Act σ (Pump × Shared σ)
  | 0, pump, shared => pure (pump, shared)
  | limit + 1, .beating beat, shared =>
    if beat.due ≤ now then do
      match ← shared.tick with
      | (some count, shared) => catchUp now limit (.beating (beat.next now count)) shared
      | (none, shared) => do
        let pump ← finish beat shared
        return (pump, shared)
    else pure (.beating beat, shared)
  | _ + 1, pump, shared => pure (pump, shared)

/-- Lets the clock jump to the time `now`, and then handles the ticks that are due. -/
def jump (pump : Pump) (shared : Shared σ) (now : Nat) : Act σ (Pump × Shared σ) :=
  catchUp now (lateGrace + 2) pump shared

/-- Handles the ticks that fall due up to the time `now`, each at its own time, at most `limit` of
them. -/
def sleepUpTo (now : Nat) : Nat → Pump → Shared σ → Act σ (Pump × Shared σ)
  | 0, pump, shared => pure (pump, shared)
  | limit + 1, .beating beat, shared =>
    if beat.due ≤ now then do
      let (pump, shared) ← jump (.beating beat) shared beat.due
      sleepUpTo now limit pump shared
    else pure (.beating beat, shared)
  | _ + 1, pump, shared => pure (pump, shared)

/-- Lets the time pass for `span` milliseconds after the time `start`, and handles each tick when it
is due. -/
def sleep (pump : Pump) (shared : Shared σ) (start span : Nat) : Act σ (Pump × Shared σ) :=
  sleepUpTo (start + span) (span + 1) pump shared

/-- Starts a pump at the time `now`. A pump without an interval breaks down. -/
def start (interval now : Nat) (shared : Shared σ) : Act σ (Pump × Shared σ) :=
  if interval = 0 then pure (.broken, shared)
  else jump (.beating { interval, due := now }) shared now

/-- Ends a pump and says how many records it has dispatched. -/
def shutdown (pump : Pump) (shared : Shared σ) : Act σ Nat :=
  match pump with
  | .beating beat => do
    let _ ← finish beat shared
    return beat.dispatched
  | .ended dispatched => pure dispatched
  | .broken => do
    Act.trace .pumpFailed
    return 0

/-- Lets go of a pump, which ends it without an answer. -/
def release (pump : Pump) (shared : Shared σ) : Act σ Unit :=
  match pump with
  | .beating beat => do
    let _ ← finish beat shared
    return ()
  | .ended _ | .broken => pure ()

end Pump

end EventStaging
