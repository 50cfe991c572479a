import EventStaging.Proofs.Service.Threshold
import EventStaging.Proofs.Text.Trimming

/-!
# Which settings are accepted

`Settings.SpellsSize`, `Settings.SpellsFlag` and `Settings.SpellsThreshold` are the grammars of the
texts of settings: each says for which value a text stands, if for any. `Settings.Loads` says what is
to become of the texts that can be looked up: the first one that stands for no value is reported, and
if each stands for one, then the settings are loaded unless their threshold is out of range. Main
statement (`Settings.ofLookup_eq_iff_loads`): exactly this becomes of them.
-/

namespace EventStaging

/-! ## The grammar of texts -/

namespace Decimal

/-- Decimal digits, at least one, after an optional plus sign, and the number they stand for. -/
def Spells (cs : List Char) (n : Nat) : Prop :=
  ∃ sign digits, (sign = [] ∨ sign = ['+']) ∧ cs = sign ++ digits ∧ IsRun digits ∧
    valueOf digits = n

/-- What follows an optional plus sign. -/
def unsigned : List Char → List Char
  | '+' :: cs => cs
  | cs => cs

/-- Digits have no sign to be dropped. -/
theorem unsigned_of_isRun {cs : List Char} (h : IsRun cs) : unsigned cs = cs := by
  unfold unsigned
  split
  · exact absurd (h.2 '+' List.mem_cons_self) (by decide)
  · rfl

/-- A text spells a number if it is a run of digits for that number, after a plus sign or without
one. -/
theorem spells_iff {cs : List Char} {n : Nat} :
    Spells cs n ↔ IsRun (unsigned cs) ∧ valueOf (unsigned cs) = n := by
  constructor
  · rintro ⟨_, digits, rfl | rfl, rfl, hrun, hvalue⟩
    · rw [unsigned_of_isRun hrun]
      exact ⟨hrun, hvalue⟩
    · exact ⟨hrun, hvalue⟩
  · intro h
    by_cases hsign : ∃ rest, cs = '+' :: rest
    · obtain ⟨rest, rfl⟩ := hsign
      exact ⟨['+'], rest, .inr rfl, rfl, h⟩
    · have hcs : unsigned cs = cs := by
        unfold unsigned
        split
        · exact absurd ⟨_, rfl⟩ hsign
        · rfl
      rw [hcs] at h
      exact ⟨[], cs, .inl rfl, rfl, h⟩

/-- A word is read from the texts that spell it. -/
theorem word?_eq_some_iff {text : String} {n : Nat} :
    word? text = some n ↔ Spells text.toList n ∧ n < 2 ^ 64 := by
  have hword : word? text =
      if (unsigned text.toList).isEmpty || !(unsigned text.toList).all Char.isDigit then none
      else if valueOf (unsigned text.toList) ≤ wordMax then some (valueOf (unsigned text.toList))
      else none := rfl
  rw [hword, spells_iff]
  generalize unsigned text.toList = digits
  have hrun : IsRun digits ↔ ¬ (digits.isEmpty || !digits.all Char.isDigit) := by simp [IsRun]
  by_cases hdigits : IsRun digits
  · rw [if_neg (hrun.mp hdigits)]
    -- Leading zeros do not matter: the value decides, not the number of digits.
    by_cases hfits : valueOf digits ≤ wordMax
    · rw [if_pos hfits, Option.some.injEq]
      unfold wordMax at hfits
      constructor
      · rintro rfl
        exact ⟨⟨hdigits, rfl⟩, by omega⟩
      · exact fun h ↦ h.1.2
    · rw [if_neg hfits]
      unfold wordMax at hfits
      refine iff_of_false nofun ?_
      rintro ⟨⟨-, rfl⟩, hlt⟩
      omega
  · rw [if_pos (not_not.mp (mt hrun.mpr hdigits))]
    exact iff_of_false nofun fun h ↦ hdigits h.1.1

end Decimal

namespace Settings

/-- The words for a truth value. -/
def flagWords : Bool → List String
  | true => ["1", "true", "yes", "on"]
  | false => ["0", "false", "no", "off"]

/-- A queue size: a number below `2 ^ 64` with blanks around it. -/
def SpellsSize (text : String) (size : Nat) : Prop :=
  ∃ core, Text.Trims text.toList core ∧ Decimal.Spells core size ∧ size < 2 ^ 64

/-- A truth value: one of its words, in letters of either case, with blanks around it. -/
def SpellsFlag (text : String) (value : Bool) : Prop :=
  ∃ core, Text.Trims text.toList core ∧
    String.ofList (core.map Char.toLower) ∈ flagWords value

/-- A threshold: the text of a floating-point number with blanks around it. -/
def SpellsThreshold (text : String) (threshold : Float) : Prop :=
  ∃ core, Text.Trims text.toList core ∧ Decimal.float? (String.ofList core) = some threshold

/-- The one core of a text is its trimmed form. -/
theorem exists_trims_iff {cs : List Char} {p : List Char → Prop} :
    (∃ core, Text.Trims cs core ∧ p core) ↔ p (Text.trimChars cs) := by
  constructor
  · rintro ⟨core, htrims, hcore⟩
    rwa [Text.trims_iff.mp htrims]
  · intro h
    exact ⟨_, Text.trims_trimChars cs, h⟩

/-- A size is read from the texts that spell it, with blanks around it or without. -/
theorem word?_trim_iff (text : String) (size : Nat) :
    Decimal.word? (Text.trim text) = some size ↔ SpellsSize text size := by
  rw [Decimal.word?_eq_some_iff, SpellsSize, exists_trims_iff, Text.trim, String.toList_ofList]

/-- A flag is read from the texts that spell it. -/
theorem flag?_iff (text : String) (value : Bool) :
    flag? text = some value ↔ SpellsFlag text value := by
  have hlower : (Text.trim text).toLower =
      String.ofList ((Text.trimChars text.toList).map Char.toLower) := by
    rw [← String.toList_inj, String.toLower, String.toList_map, Text.trim, String.toList_ofList,
      String.toList_ofList]
  have hflag : flag? text = if (flagWords true).contains (Text.trim text).toLower then some true
      else if (flagWords false).contains (Text.trim text).toLower then some false else none := rfl
  rw [SpellsFlag, exists_trims_iff, ← hlower, hflag]
  generalize (Text.trim text).toLower = word
  -- No word stands for both truth values.
  have happart : word ∈ flagWords true → word ∉ flagWords false := by
    intro hmem
    revert word
    decide
  by_cases htrue : word ∈ flagWords true
  · rw [if_pos (List.contains_iff_mem.mpr htrue)]
    cases value with
    | true => exact iff_of_true rfl htrue
    | false => exact iff_of_false nofun (happart htrue)
  · rw [if_neg (mt List.contains_iff_mem.mp htrue)]
    by_cases hfalse : word ∈ flagWords false
    · rw [if_pos (List.contains_iff_mem.mpr hfalse)]
      cases value with
      | true => exact iff_of_false nofun htrue
      | false => exact iff_of_true rfl hfalse
    · rw [if_neg (mt List.contains_iff_mem.mp hfalse)]
      cases value with
      | true => exact iff_of_false nofun htrue
      | false => exact iff_of_false nofun hfalse

/-- A threshold is read from the texts that spell it, with blanks around it or without. -/
theorem float?_trim_iff (text : String) (threshold : Float) :
    Decimal.float? (Text.trim text) = some threshold ↔ SpellsThreshold text threshold := by
  rw [SpellsThreshold, exists_trims_iff, Text.trim]

/-! ## What is to become of the texts -/

/-- The value of a setting: the default if there is no text, and otherwise what the text stands
for. -/
def Stands {α : Type} (spells : String → α → Prop) (fallback : α) (value : α) :
    Option String → Prop
  | none => value = fallback
  | some text => spells text value

/-- Settings that have the default where there is no text, and what the text stands for where there
is one. A name stands for itself. -/
structure Gives (lookup : SettingKey → Option String) (settings : Settings) : Prop where
  name : Stands Eq "evstage" settings.name (lookup .name)
  maxQueueSize : Stands SpellsSize 10000 settings.maxQueueSize (lookup .queueSize)
  enableLogging : Stands SpellsFlag true settings.enableLogging (lookup .enableLogging)
  healthThreshold : Stands SpellsThreshold 0.9 settings.healthThreshold (lookup .healthThreshold)

/-- The text of a setting stands for no value. -/
def Malformed : SettingKey → String → Prop
  | .name, _ => False
  | .queueSize, text => ∀ size, ¬ SpellsSize text size
  | .enableLogging, text => ∀ value, ¬ SpellsFlag text value
  | .healthThreshold, text => ∀ threshold, ¬ SpellsThreshold text threshold

/-- A setting has a text that stands for no value. -/
def Faulty (lookup : SettingKey → Option String) (key : SettingKey) : Prop :=
  ∃ text, lookup key = some text ∧ Malformed key text

/-- The order in which texts are reported. -/
def place : SettingKey → Nat
  | .name => 0
  | .queueSize => 1
  | .enableLogging => 2
  | .healthThreshold => 3

/-- A text that stands for no value and has none like it before it. -/
structure FirstFault (lookup : SettingKey → Option String) (key : SettingKey) (text : String) :
    Prop where
  present : lookup key = some text
  malformed : Malformed key text
  first : ∀ former, place former < place key → ¬ Faulty lookup former

/-- A threshold above zero and at most one. What is no number is in no range. -/
def InRange (threshold : Float) : Prop := threshold.isNaN = false ∧ 0 < threshold ∧ threshold ≤ 1

/-- What is to become of the texts that can be looked up. -/
inductive Loads (lookup : SettingKey → Option String) : Except SettingsError Settings → Prop where
  | malformed {key : SettingKey} {text : String} :
      FirstFault lookup key text → Loads lookup (.error (.invalid key text))
  | outOfRange {settings : Settings} :
      Gives lookup settings → ¬ InRange settings.healthThreshold →
        Loads lookup (.error (.thresholdOutOfRange settings.healthThreshold))
  | loaded {settings : Settings} :
      Gives lookup settings → InRange settings.healthThreshold → Loads lookup (.ok settings)

/-! ## One setting -/

section Reading

variable {α : Type} {lookup : SettingKey → Option String} {key : SettingKey} {text : String}
  {parse? : String → Option α} {spells : String → α → Prop} {fallback value : α}

/-- Reading a variable gives the value that it stands for, which is the default if it is not set. -/
theorem read_of_stands (h : ∀ text value, parse? text = some value ↔ spells text value)
    (hstands : Stands spells fallback value (lookup key)) :
    read lookup key parse? fallback = .ok value := by
  unfold read
  cases hlookup : lookup key with
  | none =>
      rw [hlookup] at hstands
      exact congrArg Except.ok hstands.symm
  | some text =>
      rw [hlookup] at hstands
      simp only [(h text value).mpr hstands]

/-- A setting that cannot be read is reported with its text as it stands. -/
theorem read_of_malformed (h : ∀ text value, parse? text = some value ↔ spells text value)
    (hlookup : lookup key = some text) (hbad : ∀ value, ¬ spells text value) :
    read lookup key parse? fallback = .error (.invalid key text) := by
  have hnone : parse? text = none :=
    Option.eq_none_iff_forall_ne_some.mpr fun value hvalue ↦ hbad value ((h text value).mp hvalue)
  simp only [read, hlookup, hnone]

/-- A setting has a value unless its text stands for none. -/
theorem exists_stands (fallback : α)
    (h : ¬ ∃ text, lookup key = some text ∧ ∀ value, ¬ spells text value) :
    ∃ value, Stands spells fallback value (lookup key) := by
  cases hlookup : lookup key with
  | none => exact ⟨fallback, rfl⟩
  | some text => exact not_forall_not.mp fun hbad ↦ h ⟨text, hlookup, hbad⟩

end Reading

/-! ## All settings -/

variable {lookup : SettingKey → Option String} {settings : Settings} {key : SettingKey}
  {text : String}

/-- What becomes of the text of the queue size. -/
def readSize (lookup : SettingKey → Option String) : Except SettingsError Nat :=
  read lookup .queueSize (fun text ↦ Decimal.word? (Text.trim text)) 10000

/-- What becomes of the text of the threshold. -/
def readThreshold (lookup : SettingKey → Option String) : Except SettingsError Float :=
  read lookup .healthThreshold (fun text ↦ Decimal.float? (Text.trim text)) 0.9

/-- The settings are read one variable after the other, and the first that cannot be read decides.
-/
theorem ofLookup_eq (lookup : SettingKey → Option String) :
    ofLookup lookup =
      (readSize lookup).bind fun size ↦
      (read lookup .enableLogging flag? true).bind fun logging ↦
      (readThreshold lookup).bind fun threshold ↦
      let settings : Settings := ⟨(lookup .name).getD "evstage", size, logging, threshold⟩
      settings.validate.bind fun _ ↦ .ok settings := rfl

/-- The size is read as the value that its variable stands for. -/
theorem readSize_of_stands {size : Nat} (h : Stands SpellsSize 10000 size (lookup .queueSize)) :
    readSize lookup = .ok size := read_of_stands word?_trim_iff h

/-- The flag is read as the value that its variable stands for. -/
theorem readLogging_of_stands {value : Bool}
    (h : Stands SpellsFlag true value (lookup .enableLogging)) :
    read lookup .enableLogging flag? true = .ok value := read_of_stands flag?_iff h

/-- The threshold is read as the value that its variable stands for. -/
theorem readThreshold_of_stands {threshold : Float}
    (h : Stands SpellsThreshold 0.9 threshold (lookup .healthThreshold)) :
    readThreshold lookup = .ok threshold := read_of_stands float?_trim_iff h

/-- Settings are valid exactly if their threshold is in range. -/
theorem inRange_iff (settings : Settings) :
    InRange settings.healthThreshold ↔ settings.validate = .ok () := by
  rw [validate_eq_ok_iff, InRange, pos_and_le_one_iff]
  exact and_iff_right_of_imp Between.isNaN

/-- A threshold that is out of range is named in the refusal. -/
theorem validate_of_not_inRange (h : ¬ InRange settings.healthThreshold) :
    settings.validate = .error (.thresholdOutOfRange settings.healthThreshold) := by
  rw [inRange_iff] at h
  unfold validate at h ⊢
  split
  · rename_i hok
    rw [if_pos hok] at h
    exact absurd rfl h
  · rfl

/-- Every text is a name. -/
theorem stands_name_iff {name : String} :
    Stands Eq "evstage" name (lookup .name) ↔ (lookup .name).getD "evstage" = name := by
  cases lookup .name with
  | none => exact eq_comm
  | some text => exact Iff.rfl

/-- Settings that can all be read are checked for the range of the threshold. -/
theorem ofLookup_of_gives (h : Gives lookup settings) :
    ofLookup lookup = settings.validate.bind fun _ ↦ .ok settings := by
  have hname : (lookup .name).getD "evstage" = settings.name := stands_name_iff.mp h.name
  rw [ofLookup_eq, readSize_of_stands h.maxQueueSize, readLogging_of_stands h.enableLogging,
    readThreshold_of_stands h.healthThreshold, hname]
  rfl

/-- The first text that stands for no value is reported. -/
theorem ofLookup_of_firstFault (h : FirstFault lookup key text) :
    ofLookup lookup = .error (.invalid key text) := by
  obtain ⟨hlookup, hbad, hfirst⟩ := h
  rw [ofLookup_eq]
  cases key with
  | name => exact hbad.elim
  | queueSize =>
      rw [readSize, read_of_malformed word?_trim_iff hlookup hbad]
      rfl
  | enableLogging =>
      obtain ⟨size, hsize⟩ := exists_stands 10000 (hfirst .queueSize (by decide))
      rw [readSize_of_stands hsize, read_of_malformed flag?_iff hlookup hbad]
      rfl
  | healthThreshold =>
      obtain ⟨size, hsize⟩ := exists_stands 10000 (hfirst .queueSize (by decide))
      obtain ⟨logging, hlogging⟩ := exists_stands true (hfirst .enableLogging (by decide))
      rw [readSize_of_stands hsize, readLogging_of_stands hlogging, readThreshold,
        read_of_malformed float?_trim_iff hlookup hbad]
      rfl

/-- Texts have a first fault, or they give settings. -/
theorem exists_firstFault_or_gives (lookup : SettingKey → Option String) :
    (∃ key text, FirstFault lookup key text) ∨ ∃ settings, Gives lookup settings := by
  by_cases hfaulty : ∃ key, Faulty lookup key
  · obtain ⟨key, ⟨text, hlookup, hbad⟩, hfirst⟩ :=
      (measure place).wf.has_min {key | Faulty lookup key} hfaulty
    exact .inl ⟨key, text, hlookup, hbad, fun former hlt hformer ↦ hfirst former hformer hlt⟩
  · have hnone := not_exists.mp hfaulty
    obtain ⟨size, hsize⟩ := exists_stands 10000 (hnone .queueSize)
    obtain ⟨logging, hlogging⟩ := exists_stands true (hnone .enableLogging)
    obtain ⟨threshold, hthreshold⟩ := exists_stands 0.9 (hnone .healthThreshold)
    exact .inr ⟨⟨_, size, logging, threshold⟩, stands_name_iff.mpr rfl, hsize, hlogging, hthreshold⟩

/-- Whatever the variables load as is what is read from them. -/
theorem ofLookup_of_loads {result : Except SettingsError Settings} (h : Loads lookup result) :
    ofLookup lookup = result := by
  cases h with
  | malformed hfault => exact ofLookup_of_firstFault hfault
  | outOfRange hgives hrange =>
      rw [ofLookup_of_gives hgives, validate_of_not_inRange hrange]
      rfl
  | loaded hgives hrange =>
      rw [ofLookup_of_gives hgives, (inRange_iff _).mp hrange]
      rfl

/-- Variables load as settings or as an error, whatever they hold. -/
theorem exists_loads (lookup : SettingKey → Option String) : ∃ result, Loads lookup result := by
  rcases exists_firstFault_or_gives lookup with ⟨key, text, hfault⟩ | ⟨settings, hgives⟩
  · exact ⟨_, .malformed hfault⟩
  · by_cases hrange : InRange settings.healthThreshold
    · exact ⟨_, .loaded hgives hrange⟩
    · exact ⟨_, .outOfRange hgives hrange⟩

/-! ## Numbers as queue sizes -/

/-- A digit is no blank. -/
theorem isBlank_of_isDigit {c : Char} (h : c.isDigit) : Text.isBlank c = false := by
  have hranges : ∀ range ∈ Text.blanks, range.2 < '0'.toNat ∨ '9'.toNat < range.1 := by decide
  rw [Char.isDigit_iff_toNat] at h
  rw [Bool.eq_false_iff, Text.isBlank, ne_eq, Text.CharClass.holds_iff]
  rintro ⟨range, hmem, hlow, hhigh⟩
  rcases hranges range hmem with hbelow | habove
  · omega
  · omega

/-- Trimming takes nothing from the digits of a number. -/
theorem trims_digitsOf (n : Nat) : Text.Trims (Decimal.digitsOf n) (Decimal.digitsOf n) := by
  have hdigits : ∀ c ∈ Decimal.digitsOf n, Text.isBlank c = false := fun c hc ↦
    isBlank_of_isDigit ((Decimal.isRun_digitsOf n).2 c hc)
  exact ⟨⟨[], [], (List.append_nil _).symm, nofun, nofun⟩,
    fun c hc ↦ hdigits c (List.mem_of_head? hc), fun c hc ↦ hdigits c (List.mem_of_getLast? hc)⟩

/-- The digits of a number spell that number, if it fits into a word. -/
theorem spellsSize_toString_iff {n size : Nat} :
    SpellsSize (toString n) size ↔ size = n ∧ n < 2 ^ 64 := by
  have hrun := Decimal.isRun_digitsOf n
  have htext : (toString n).toList = Decimal.digitsOf n := String.toList_ofList
  rw [SpellsSize, exists_trims_iff, htext, Text.trims_iff.mp (trims_digitsOf n),
    Decimal.spells_iff, Decimal.unsigned_of_isRun hrun, Decimal.valueOf_digitsOf]
  constructor
  · rintro ⟨⟨-, rfl⟩, hlt⟩
    exact ⟨rfl, hlt⟩
  · rintro ⟨rfl, hlt⟩
    exact ⟨⟨hrun, rfl⟩, hlt⟩

/-- Nothing is given but the queue size. -/
def onlySize (text : String) : SettingKey → Option String
  | .queueSize => some text
  | _ => none

/-- Where only a size is set, it is read, or named in the refusal if it does not fit into a word. -/
theorem loads_onlySize (n : Nat) :
    Loads (onlySize (toString n)) (if n < 2 ^ 64 then .ok { maxQueueSize := n }
      else .error (.invalid .queueSize (toString n))) := by
  split
  · rename_i hlt
    have hrange : InRange 0.9 := ⟨by decide +kernel, by decide +kernel, by decide +kernel⟩
    exact .loaded ⟨rfl, spellsSize_toString_iff.mpr ⟨rfl, hlt⟩, rfl, rfl⟩ hrange
  · rename_i hge
    refine .malformed ⟨rfl, fun size hsize ↦ hge (spellsSize_toString_iff.mp hsize).2, ?_⟩
    rintro former hlt ⟨text, hlookup, hbad⟩
    cases former with
    | name => exact hbad
    | queueSize => exact absurd hlt (Nat.lt_irrefl _)
    | enableLogging => cases hlookup
    | healthThreshold => cases hlookup

/-- Settings are loaded exactly as the grammar of their texts and the range of the threshold say,
and the first text outside of its grammar is reported as it stands. A number that is written as the
queue size is loaded if it is below `2 ^ 64`, and reported otherwise. -/
theorem ofLookup_eq_iff_loads :
    (∀ lookup result, ofLookup lookup = result ↔ Loads lookup result) ∧
      ∀ n : Nat, ofLookup (onlySize (toString n)) =
        if n < 2 ^ 64 then .ok { maxQueueSize := n }
        else .error (.invalid .queueSize (toString n)) := by
  refine ⟨fun lookup result ↦ ⟨?_, ofLookup_of_loads⟩, fun n ↦ ofLookup_of_loads (loads_onlySize n)⟩
  rintro rfl
  obtain ⟨result, hloads⟩ := exists_loads lookup
  rwa [ofLookup_of_loads hloads]

/-- The threshold is out of range here, but the word for the truth value comes first. -/
example :
    let lookup : SettingKey → Option String
      | .name => none
      | .queueSize => some " +007 "
      | .enableLogging => some " maybe "
      | .healthThreshold => some "1.5"
    ofLookup lookup = .error (.invalid .enableLogging " maybe ") := by
  decide +kernel

end Settings

end EventStaging
