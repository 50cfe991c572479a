import EventStaging.Proofs.Json.Tokens

/-!
# Reading written values

The grammar reads the compact text of a value back as the value, if the numerals in it are those of
the grammar and its strings have texts (`Json.ofText?_compact`). A value is read back before
whatever stops a numeral, with a limit that its text does not exceed (`Json.ReadsBack`): so are the
simple values, and so are arrays and objects if their parts are.
-/

namespace EventStaging

/-- The text of a numeral begins with a minus sign or a digit. -/
theorem Numeral.Regular.compact_head {n : Numeral} (h : n.Regular) :
    ∃ c cs, n.compact = c :: cs ∧ (c = '-' ∨ c.isDigit) := by
  obtain ⟨hne, hdigits⟩ := h.whole
  obtain ⟨c, digits, hwhole⟩ := List.exists_cons_of_ne_nil hne
  rw [hwhole] at hdigits
  have hcompact := n.compact_append []
  rw [List.append_nil, hwhole] at hcompact
  cases hnegative : n.negative with
  | true =>
      rw [hnegative] at hcompact
      exact ⟨_, _, hcompact, .inl rfl⟩
  | false =>
      rw [hnegative] at hcompact
      exact ⟨_, _, hcompact, .inr (hdigits c List.mem_cons_self)⟩

namespace Json

variable {json : Json} {c : Char} {cs rest : List Char} {limit : Nat} {items : List Json}
  {members : List (Option String × Json)}

/-- A value as the grammar has it: so are the numerals in it, and its strings have texts. -/
inductive Regular : Json → Prop where
  | null : Regular .null
  | bool (value : Bool) : Regular (.bool value)
  | number {n : Numeral} : n.Regular → Regular (.number n)
  | string (text : String) : Regular (.string (some text))
  | array {items : List Json} : (∀ item ∈ items, Regular item) → Regular (.array items)
  | object {members : List (Option String × Json)} :
      (∀ member ∈ members, member.1.isSome) → (∀ member ∈ members, Regular member.2) →
      Regular (.object members)

/-- A value is read back off its text, whatever stops a numeral after it. -/
def ReadsBack (json : Json) : Prop :=
  ∀ limit rest, Numeral.Stops rest → (compact json).length ≤ limit →
    value? limit (compact json ++ rest) = some (json, rest)

/-! ## Beginnings -/

/-- Nothing is skipped before a character that is no blank. -/
theorem skipBlanks_cons (h : isBlank c = false) : skipBlanks (c :: cs) = c :: cs :=
  List.dropWhile_cons_of_neg (by rw [h]; exact Bool.false_ne_true)

/-- A character with which the text of a value may begin. -/
def IsFirst (c : Char) : Prop := isBlank c = false ∧ c ≠ ']'

/-- The first character of a numeral begins a value. -/
theorem isFirst_of_numeral (h : c = '-' ∨ c.isDigit) : IsFirst c := by
  refine ⟨?_, ?_⟩
  · rw [isBlank, decide_eq_false_iff_not]
    rintro (rfl | rfl | rfl | rfl) <;> exact absurd h (by decide)
  · rintro rfl
    exact absurd h (by decide)

/-- The text of a regular value begins as a value does. -/
theorem Regular.compact_head (h : Regular json) :
    ∃ c cs, compact json = c :: cs ∧ IsFirst c := by
  cases h with
  | null => exact ⟨_, _, rfl, by decide, by decide⟩
  | bool value => cases value <;> exact ⟨_, _, rfl, by decide, by decide⟩
  | number hregular =>
      obtain ⟨c, cs, hcompact, hc⟩ := hregular.compact_head
      exact ⟨c, cs, by rw [compact, hcompact], isFirst_of_numeral hc⟩
  | string text => exact ⟨_, _, rfl, by decide, by decide⟩
  | array => exact ⟨_, _, by rw [compact]; rfl, by decide, by decide⟩
  | object => exact ⟨_, _, by rw [compact]; rfl, by decide, by decide⟩

/-- A quoted text is a quote, the escaped characters, and another quote. -/
theorem quote_append (text : String) (rest : List Char) :
    quote text ++ rest = '"' :: (text.toList.flatMap escape ++ '"' :: rest) := by
  rw [quote, List.cons_append, List.cons_append, List.append_assoc, List.singleton_append]

/-! ## What the first character decides -/

/-- What begins with a quote is read as a string. -/
theorem value?_quote (limit : Nat) (cs : List Char) :
    value? (limit + 1) ('"' :: cs) =
      (string? cs).map fun (text, rest) ↦ (.string text, rest) := by
  rw [value?]
  rfl

/-- What begins with a minus sign or a digit is read as a number. -/
theorem value?_numeral (h : c = '-' ∨ c.isDigit) :
    value? (limit + 1) (c :: cs) =
      (numeral? (c :: cs)).map fun (numeral, rest) ↦ (.number numeral, rest) := by
  rw [value?, skipBlanks_cons (isFirst_of_numeral h).1]
  split
  case h_7 => rfl
  -- No other value begins with a minus sign or a digit.
  all_goals
    next heq =>
    cases heq
    exact absurd h (by decide)

/-- What begins with a bracket and does not close it at once is read as a list of items. -/
theorem value?_bracket (h : IsFirst c) :
    value? (limit + 1) ('[' :: c :: cs) =
      (items? limit (c :: cs)).map fun (items, rest) ↦ (.array items, rest) := by
  have hbracket : isBlank '[' = false := rfl
  rw [value?, skipBlanks_cons hbracket]
  split
  case h_5 rest heq =>
    cases heq
    rw [skipBlanks_cons h.1]
    split
    · next heq =>
      cases heq
      exact absurd rfl h.2
    · rfl
  case h_7 hnone _ => exact absurd rfl (hnone _)
  all_goals next heq => cases heq

/-- What begins with a brace and a quote is read as a list of members. -/
theorem value?_brace (limit : Nat) (cs : List Char) :
    value? (limit + 1) ('\x7b' :: '"' :: cs) =
      (members? limit ('"' :: cs)).map fun (members, rest) ↦ (.object members, rest) := by
  rw [value?]
  rfl

/-! ## Lists of values and of members -/

/-- The marks between the parts of a text stop a numeral. -/
theorem stops_mark (h : c = ',' ∨ c = ']' ∨ c = '\x7d') : Numeral.Stops (c :: rest) := by
  rintro _ ⟨⟩
  obtain rfl | rfl | rfl := h <;> decide

/-- Items are separated by commas. -/
theorem compactItems_cons_cons (item other : Json) (items : List Json) :
    compactItems (item :: other :: items) =
      compact item ++ ',' :: compactItems (other :: items) := by
  rw [compactItems]
  exact nofun

/-- Members are separated by commas, and a colon stands between the name and the value of each. -/
theorem compactMembers_cons_cons (key : Option String) (value : Json)
    (other : Option String × Json) (members : List (Option String × Json)) :
    compactMembers ((key, value) :: other :: members) =
      quote (key.getD "") ++ ':' :: compact value ++ ',' :: compactMembers (other :: members) := by
  rw [compactMembers]
  exact nofun

/-- Items are read back if each of them is, by induction on the items: the limit falls by one with
each item, and the text at least by the comma after it. -/
theorem items?_compactItems (hparts : ∀ item ∈ items, ReadsBack item) (hne : items ≠ [])
    (hlimit : (compactItems items).length < limit) :
    items? limit (compactItems items ++ ']' :: rest) = some (items, rest) := by
  induction items generalizing limit with
  | nil => exact absurd rfl hne
  | cons item items ih =>
      obtain ⟨limit, rfl⟩ := Nat.exists_eq_add_one_of_ne_zero (Nat.ne_zero_of_lt hlimit)
      have hitem := hparts item List.mem_cons_self limit
      cases items with
      | nil =>
          rw [compactItems] at hlimit ⊢
          rw [items?, hitem _ (stops_mark (by decide)) (by omega)]
          rfl
      | cons other items =>
          rw [compactItems_cons_cons] at hlimit ⊢
          rw [List.length_append, List.length_cons] at hlimit
          have hitems : items? limit (compactItems (other :: items) ++ ']' :: rest) =
              some (other :: items, rest) :=
            ih (fun item hmem ↦ hparts item (List.mem_cons_of_mem _ hmem)) (List.cons_ne_nil _ _)
              (by omega)
          rw [List.append_assoc, List.cons_append, items?,
            hitem _ (stops_mark (by decide)) (by omega)]
          show (items? limit (compactItems (other :: items) ++ ']' :: rest)).bind _ = _
          rw [hitems]
          rfl

/-- A member begins with its name. -/
theorem members?_quote (limit : Nat) (key : String) (cs : List Char) :
    members? (limit + 1) (quote key ++ ':' :: cs) = (do
      let (value, cs) ← value? limit cs
      match skipBlanks cs with
      | '\x7d' :: rest => return ([(some key, value)], rest)
      | ',' :: rest => do
        let (members, rest) ← members? limit rest
        return ((some key, value) :: members, rest)
      | _ => none) := by
  rw [quote_append, members?]
  show (string? (key.toList.flatMap escape ++ '"' :: ':' :: cs)).bind _ = _
  rw [string?_quote]
  rfl

/-- Members are read back if their values are, in the same way as items. -/
theorem members?_compactMembers (hkeys : ∀ member ∈ members, member.1.isSome)
    (hparts : ∀ member ∈ members, ReadsBack member.2) (hne : members ≠ [])
    (hlimit : (compactMembers members).length < limit) :
    members? limit (compactMembers members ++ '\x7d' :: rest) = some (members, rest) := by
  induction members generalizing limit with
  | nil => exact absurd rfl hne
  | cons member members ih =>
      obtain ⟨limit, rfl⟩ := Nat.exists_eq_add_one_of_ne_zero (Nat.ne_zero_of_lt hlimit)
      obtain ⟨key, hkey⟩ := Option.isSome_iff_exists.mp (hkeys member List.mem_cons_self)
      have hvalue : ReadsBack member.2 := hparts member List.mem_cons_self
      obtain ⟨_, value⟩ := member
      cases hkey
      dsimp only at hvalue
      cases members with
      | nil =>
          rw [compactMembers, List.length_append, List.length_cons] at hlimit
          rw [compactMembers, List.append_assoc, List.cons_append, Option.getD_some,
            members?_quote, hvalue _ _ (stops_mark (by decide)) (by omega)]
          rfl
      | cons other members =>
          rw [compactMembers_cons_cons, List.length_append, List.length_append, List.length_cons,
            List.length_cons] at hlimit
          have hmembers : members? limit (compactMembers (other :: members) ++ '\x7d' :: rest) =
              some (other :: members, rest) :=
            ih (fun member hmem ↦ hkeys member (List.mem_cons_of_mem _ hmem))
              (fun member hmem ↦ hparts member (List.mem_cons_of_mem _ hmem))
              (List.cons_ne_nil _ _) (by omega)
          rw [compactMembers_cons_cons, List.append_assoc, List.append_assoc, List.cons_append,
            List.cons_append, Option.getD_some, members?_quote,
            hvalue _ _ (stops_mark (by decide)) (by omega)]
          show (members? limit (compactMembers (other :: members) ++ '\x7d' :: rest)).bind _ = _
          rw [hmembers]
          rfl

/-! ## Values -/

/-- A regular number is read back. -/
theorem readsBack_number {n : Numeral} (h : n.Regular) : ReadsBack (.number n) := by
  obtain ⟨c, cs, hcompact, hc⟩ := h.compact_head
  rintro (_ | limit) rest hrest hlimit
  · rw [compact, hcompact] at hlimit
    cases hlimit
  · have hread := numeral?_compact h hrest
    rw [hcompact, List.cons_append] at hread
    rw [compact, hcompact, List.cons_append, value?_numeral hc, hread]
    rfl

/-- A string is read back. -/
theorem readsBack_string (text : String) : ReadsBack (.string (some text)) := by
  rintro (_ | limit) rest - hlimit
  · cases hlimit
  · rw [compact, Option.getD_some, quote_append, value?_quote, string?_quote]
    rfl

/-- The text of items begins as a value does. -/
theorem compactItems_head {item : Json} (h : Regular item) (items : List Json) :
    ∃ c cs, compactItems (item :: items) = c :: cs ∧ IsFirst c := by
  obtain ⟨c, cs, hcompact, hc⟩ := h.compact_head
  cases items with
  | nil => exact ⟨c, cs, by rw [compactItems, hcompact], hc⟩
  | cons other items =>
      exact ⟨c, _, by rw [compactItems_cons_cons, hcompact, List.cons_append], hc⟩

/-- An array is read back if its items are. -/
theorem readsBack_array (hitems : ∀ item ∈ items, Regular item)
    (hparts : ∀ item ∈ items, ReadsBack item) : ReadsBack (.array items) := by
  rintro (_ | limit) rest - hlimit
  · rw [compact] at hlimit
    cases hlimit
  · cases items with
    | nil =>
        rw [value?]
        rfl
    | cons item items =>
        rw [compact, List.cons_append, List.length_cons, List.length_append,
          List.length_singleton] at hlimit
        have hread : items? limit (compactItems (item :: items) ++ ']' :: rest) =
            some (item :: items, rest) :=
          items?_compactItems hparts (List.cons_ne_nil _ _) (by omega)
        obtain ⟨c, cs, hcompact, hc⟩ := compactItems_head (hitems item List.mem_cons_self) items
        rw [hcompact, List.cons_append] at hread
        rw [compact, List.cons_append, List.cons_append, List.append_assoc, List.singleton_append,
          hcompact, List.cons_append, value?_bracket hc, hread]
        rfl

/-- The text of members begins with a quote. -/
theorem compactMembers_head (key : Option String) (value : Json)
    (members : List (Option String × Json)) :
    ∃ cs, compactMembers ((key, value) :: members) = '"' :: cs := by
  cases members with
  | nil => exact ⟨_, by rw [compactMembers, quote_append]⟩
  | cons other members =>
      exact ⟨_, by rw [compactMembers_cons_cons, quote_append, List.cons_append]⟩

/-- An object is read back if the values of its members are. -/
theorem readsBack_object (hkeys : ∀ member ∈ members, member.1.isSome)
    (hparts : ∀ member ∈ members, ReadsBack member.2) : ReadsBack (.object members) := by
  rintro (_ | limit) rest - hlimit
  · rw [compact] at hlimit
    cases hlimit
  · cases members with
    | nil =>
        rw [value?]
        rfl
    | cons member members =>
        rw [compact, List.cons_append, List.length_cons, List.length_append,
          List.length_singleton] at hlimit
        have hread : members? limit (compactMembers (member :: members) ++ '\x7d' :: rest) =
            some (member :: members, rest) :=
          members?_compactMembers hkeys hparts (List.cons_ne_nil _ _) (by omega)
        obtain ⟨cs, hcompact⟩ := compactMembers_head member.1 member.2 members
        rw [hcompact, List.cons_append] at hread
        rw [compact, List.cons_append, List.cons_append, List.append_assoc, List.singleton_append,
          hcompact, List.cons_append, value?_brace, hread]
        rfl

/-- Every value as the grammar has it is read back, by induction on the value. -/
theorem Regular.readsBack (h : Regular json) : ReadsBack json := by
  induction h with
  | null =>
      rintro (_ | limit) rest - hlimit
      · cases hlimit
      · rw [value?]
        rfl
  | bool value =>
      rintro (_ | limit) rest - hlimit
      · cases value <;> cases hlimit
      · cases value <;> rw [value?] <;> rfl
  | number hregular => exact readsBack_number hregular
  | string text => exact readsBack_string text
  | array hitems ih => exact readsBack_array hitems ih
  | object hkeys _ ih => exact readsBack_object hkeys ih

/-- A value as the grammar has it is what its text stands for. -/
theorem ofText?_compact (h : Regular json) : ofText? (String.ofList json.compact) = some json := by
  have hread := h.readsBack (2 * json.compact.length + 2) [] nofun (by omega)
  rw [List.append_nil] at hread
  rw [ofText?, String.toList_ofList]
  show (value? (2 * json.compact.length + 2) json.compact).bind _ = _
  rw [hread]
  rfl

end Json

end EventStaging
