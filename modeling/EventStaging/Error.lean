import EventStaging.Text.Quoted

/-!
# Errors

What an engine, a configuration and a registry can refuse, with the wording of each refusal.
-/

namespace EventStaging

/-- Why an engine refused an operation: the queue holds as many items as it may, that many bytes
could not be had for an event, the engine has been closed, or no kind has the wire number. -/
inductive EngineError where
  | queueFull (items : Nat)
  | allocation (bytes : Nat)
  | closed
  | unknownKind (wire : Int32)
  deriving DecidableEq, Repr

/-- The wording of an engine's refusal. -/
def EngineError.message : EngineError → String
  | .queueFull items => s!"queue full ({items} items)"
  | .allocation bytes => s!"failed to allocate {bytes} bytes for event storage"
  | .closed => "engine is closed"
  | .unknownKind wire => s!"unknown event kind: {wire.toInt}"

/-- Why a configuration is not valid: the name is blank, or it holds a zero character. -/
inductive ConfigError where
  | emptyName
  | zeroInName (name : String)
  deriving DecidableEq, Repr

/-- The wording of what is wrong with a configuration. -/
def ConfigError.message : ConfigError → String
  | .emptyName => "engine name must not be empty"
  | .zeroInName name => s!"invalid engine name {Text.quoted name}: contains a NUL byte"

/-- Why a registry could not find an engine: none is registered under the number. -/
inductive RegistryError where
  | unknown (raw : Nat)
  deriving DecidableEq, Repr

/-- The wording of a registry's refusal. -/
def RegistryError.message : RegistryError → String
  | .unknown raw => s!"no live engine registered under id {raw}"

end EventStaging
