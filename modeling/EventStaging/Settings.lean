import EventStaging.Callbacks
import EventStaging.Decimal.Reading
import EventStaging.Decimal.Shortest

/-!
# Settings

The settings of a service, read from named texts such as the variables of an environment. A name
that is not set leaves the default in place; the first text that cannot be read is reported, and
only settings that can all be read are checked for the range of the threshold.
-/

namespace EventStaging

/-- The names under which settings are looked up. -/
inductive SettingKey where
  | name
  | queueSize
  | enableLogging
  | healthThreshold
  deriving DecidableEq, Repr

/-- The text of a name. -/
def SettingKey.text : SettingKey → String
  | .name => "EVSTAGE_NAME"
  | .queueSize => "EVSTAGE_QUEUE_SIZE"
  | .enableLogging => "EVSTAGE_ENABLE_LOGGING"
  | .healthThreshold => "EVSTAGE_HEALTH_THRESHOLD"

/-- What is wrong with settings: the text of one cannot be read, or the threshold is no share of a
capacity. -/
inductive SettingsError where
  | invalid (key : SettingKey) (value : String)
  | thresholdOutOfRange (threshold : Float)
  deriving DecidableEq, Repr

/-- The wording of what is wrong with settings. -/
def SettingsError.message : SettingsError → String
  | .invalid key value => s!"invalid value {Text.quoted value} for {key.text}"
  | .thresholdOutOfRange threshold =>
    s!"health threshold must be in (0, 1], got {Decimal.floatText threshold}"

/-- The settings of a service: the name of the engine, how many records may be queued, where zero
stands for no limit, whether the engine logs, and the share of the capacity that a healthy queue
stays below. -/
structure Settings where
  name : String := "evstage"
  maxQueueSize : Nat := 10000
  enableLogging : Bool := true
  healthThreshold : Float := 0.9
  deriving DecidableEq, Repr

namespace Settings

/-- The truth value that a text stands for, in any case and with blanks around it. -/
def flag? (text : String) : Option Bool :=
  let word := (Text.trim text).toLower
  if ["1", "true", "yes", "on"].contains word then some true
  else if ["0", "false", "no", "off"].contains word then some false
  else none

/-- The value of a setting: the default if it is not set, and otherwise what its text stands for. -/
def read {α : Type} (lookup : SettingKey → Option String) (key : SettingKey)
    (parse? : String → Option α) (fallback : α) : Except SettingsError α :=
  match lookup key with
  | none => .ok fallback
  | some text =>
    match parse? text with
    | some value => .ok value
    | none => .error (.invalid key text)

/-- Refuses a threshold that is not above zero and at most one. -/
def validate (settings : Settings) : Except SettingsError Unit :=
  if settings.healthThreshold > 0 && settings.healthThreshold ≤ 1 then .ok ()
  else .error (.thresholdOutOfRange settings.healthThreshold)

/-- The settings that can be looked up. -/
def ofLookup (lookup : SettingKey → Option String) : Except SettingsError Settings := do
  let defaults : Settings := {}
  let maxQueueSize ← read lookup .queueSize (fun text ↦ Decimal.word? (Text.trim text))
    defaults.maxQueueSize
  let enableLogging ← read lookup .enableLogging flag? defaults.enableLogging
  let healthThreshold ← read lookup .healthThreshold (fun text ↦ Decimal.float? (Text.trim text))
    defaults.healthThreshold
  let name := (lookup .name).getD defaults.name
  let settings : Settings := { name, maxQueueSize, enableLogging, healthThreshold }
  settings.validate
  return settings

/-- The settings that an environment gives, whose values are bytes. A value that is no text counts
as not set. -/
def ofEnvironment (lookup : SettingKey → Option ByteArray) : Except SettingsError Settings :=
  ofLookup fun key ↦ (lookup key).bind String.fromUTF8?

/-- The trace event about settings that were looked up and found valid. -/
def loadedEvent (settings : Settings) : Trace.Event :=
  .settingsLoaded settings.name settings.maxQueueSize settings.enableLogging

/-- The trace events of an attempt to read settings. -/
def traceOf : Except SettingsError Settings → List Trace.Event
  | .ok settings => [settings.loadedEvent]
  | .error _ => []

/-- The configuration of an engine without callbacks. -/
def engineConfig {σ : Type} (settings : Settings) : Config σ where
  name := settings.name
  maxQueueSize := settings.maxQueueSize
  enableLogging := settings.enableLogging

end Settings

end EventStaging
