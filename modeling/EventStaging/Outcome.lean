/-!
# How a call into the host ends

A host function returns a value, reports an error, or panics. `Outcome.guarded` contains the last
two as a `Failure`, which keeps the text that the host gave.
-/

namespace EventStaging

/-- What a panic carries: a text, or a value that is no text. -/
inductive PanicPayload where
  | text (message : String)
  | other
  deriving DecidableEq, Repr, Inhabited

/-- The text that stands for a panic's payload. -/
def PanicPayload.message : PanicPayload → String
  | .text message => message
  | .other => "non-string panic payload"

/-- How a call into the host ends: with a value, with an error, of which there is only the text, or in
a panic. -/
inductive Outcome (α : Type) where
  | returned (value : α)
  | failed (error : String)
  | panicked (payload : PanicPayload)
  deriving DecidableEq, Repr

/-- A call into the host that did not return a value, contained. -/
inductive Failure where
  | failed (error : String)
  | panicked (message : String)
  deriving DecidableEq, Repr, Inhabited

namespace Failure

/-- The failure in words. -/
def message : Failure → String
  | .failed error => "callback failed: " ++ error
  | .panicked message => "callback panicked: " ++ message

/-- The text of the host's own error, if the failure comes from one. -/
def source? : Failure → Option String
  | .failed error => some error
  | .panicked _ => none

end Failure

namespace Outcome

variable {α : Type}

/-- The value of a call, or the failure that it ended in. -/
def guarded : Outcome α → Except Failure α
  | .returned value => .ok value
  | .failed error => .error (.failed error)
  | .panicked payload => .error (.panicked payload.message)

/-- Whether the call ended in an error or a panic. -/
def isFailure : Outcome α → Bool
  | .returned _ => false
  | .failed _ | .panicked _ => true

/-- A call that may panic but reports no errors. -/
def ofPanic? : Option PanicPayload → Outcome Unit
  | none => .returned ()
  | some payload => .panicked payload

end Outcome

end EventStaging
