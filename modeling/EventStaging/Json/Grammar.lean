import EventStaging.Json.Basic

/-!
# The JSON grammar

Reading a JSON text, strictly: one value with blanks around it, and nothing else. Blanks are the
space, the tab, the line feed and the carriage return. A string may not hold control characters as
they stand, and its escapes name UTF-16 units, of which two may form a pair.
-/

namespace EventStaging.Json

/-- The characters that may stand between the parts of a JSON text. -/
def isBlank (c : Char) : Bool := c = ' ' ∨ c = '\t' ∨ c = '\n' ∨ c = '\r'

/-- What follows the blanks at the beginning. -/
def skipBlanks (cs : List Char) : List Char := cs.dropWhile isBlank

/-- The value of a hexadecimal digit. -/
def hexValue? (c : Char) : Option Nat :=
  if c.isDigit then some (c.toNat - '0'.toNat)
  else if 'a' ≤ c ∧ c ≤ 'f' then some (c.toNat - 'a'.toNat + 10)
  else if 'A' ≤ c ∧ c ≤ 'F' then some (c.toNat - 'A'.toNat + 10)
  else none

/-- The number that four hexadecimal digits stand for. -/
def hexUnit? (a b c d : Char) : Option Nat := do
  let a ← hexValue? a
  let b ← hexValue? b
  let c ← hexValue? c
  let d ← hexValue? d
  return ((a * 16 + b) * 16 + c) * 16 + d

/-- The character that a letter after a backslash stands for. -/
def simpleEscape? : Char → Option Char
  | '"' => some '"'
  | '\\' => some '\\'
  | '/' => some '/'
  | 'b' => some '\x08'
  | 'f' => some '\x0c'
  | 'n' => some '\n'
  | 'r' => some '\r'
  | 't' => some '\t'
  | _ => none

/-- The numbers that the characters of a string stand for, up to the closing quote, and what follows
it. A number is a code point, or a UTF-16 unit that an escape names. -/
def stringUnits? : List Char → Option (List Nat × List Char)
  | [] => none
  | '"' :: rest => some ([], rest)
  | '\\' :: 'u' :: a :: b :: c :: d :: rest => do
    let unit ← hexUnit? a b c d
    let (units, rest) ← stringUnits? rest
    return (unit :: units, rest)
  | '\\' :: c :: rest => do
    let c ← simpleEscape? c
    let (units, rest) ← stringUnits? rest
    return (c.toNat :: units, rest)
  | ['\\'] => none
  | c :: rest =>
    if c.toNat < 0x20 then none
    else do
      let (units, rest) ← stringUnits? rest
      return (c.toNat :: units, rest)

/-- Whether a number is the first half of a surrogate pair. -/
def isHighSurrogate (unit : Nat) : Bool := 0xd800 ≤ unit && unit ≤ 0xdbff

/-- Whether a number is the second half of a surrogate pair. -/
def isLowSurrogate (unit : Nat) : Bool := 0xdc00 ≤ unit && unit ≤ 0xdfff

/-- The characters that numbers stand for. There are none if half of a pair stands alone. -/
def assemble? : List Nat → Option (List Char)
  | [] => some []
  | [unit] =>
    if isHighSurrogate unit || isLowSurrogate unit then none else some [Char.ofNat unit]
  | high :: low :: units =>
    if isLowSurrogate high then none
    else if isHighSurrogate high then
      if isLowSurrogate low then
        (assemble? units).map
          (Char.ofNat (0x10000 + (high - 0xd800) * 0x400 + (low - 0xdc00)) :: ·)
      else none
    else (assemble? (low :: units)).map (Char.ofNat high :: ·)

/-- The text of the string whose opening quote has been read, and what follows the closing one. -/
def string? (cs : List Char) : Option (Option String × List Char) := do
  let (units, rest) ← stringUnits? cs
  return ((assemble? units).map String.ofList, rest)

/-- A nonempty run of digits, and what follows it. -/
def digits? (cs : List Char) : Option (List Char × List Char) :=
  let digits := Decimal.leadingDigits cs
  if digits.isEmpty then none else some (digits, Decimal.afterDigits cs)

/-- The digits before the point, which do not begin with a zero unless it stands alone. -/
def whole? : List Char → Option (List Char × List Char)
  | '0' :: rest =>
    match rest with
    | c :: _ => if c.isDigit then none else some (['0'], rest)
    | [] => some (['0'], rest)
  | cs => digits? cs

/-- The digits after an optional point. -/
def fraction? : List Char → Option (Option (List Char) × List Char)
  | '.' :: rest => (digits? rest).map fun (digits, rest) ↦ (some digits, rest)
  | cs => some (none, cs)

/-- The exponent after an optional letter. -/
def exponent? : List Char → Option (Option (Bool × List Char) × List Char)
  | [] => some (none, [])
  | c :: rest =>
    if c = 'e' ∨ c = 'E' then
      let (negative, rest) := match rest with
        | '-' :: rest => (true, rest)
        | '+' :: rest => (false, rest)
        | rest => (false, rest)
      (digits? rest).map fun (digits, rest) ↦ (some (negative, digits), rest)
    else some (none, c :: rest)

/-- The parts of a numeral behind its sign, and what follows them. -/
def unsigned? (negative : Bool) (cs : List Char) : Option (Numeral × List Char) := do
  let (whole, cs) ← whole? cs
  let (fraction, cs) ← fraction? cs
  let (exponent, cs) ← exponent? cs
  return (⟨negative, whole, fraction, exponent⟩, cs)

/-- The numeral at the beginning, and what follows it. -/
def numeral? : List Char → Option (Numeral × List Char)
  | '-' :: rest => unsigned? true rest
  | cs => unsigned? false cs

mutual

/-- The value at the beginning, and what follows it. -/
def value? : Nat → List Char → Option (Json × List Char)
  | 0, _ => none
  | limit + 1, cs =>
    match skipBlanks cs with
    | 'n' :: 'u' :: 'l' :: 'l' :: rest => some (.null, rest)
    | 't' :: 'r' :: 'u' :: 'e' :: rest => some (.bool true, rest)
    | 'f' :: 'a' :: 'l' :: 's' :: 'e' :: rest => some (.bool false, rest)
    | '"' :: rest => (string? rest).map fun (text, rest) ↦ (.string text, rest)
    | '[' :: rest =>
      match skipBlanks rest with
      | ']' :: rest => some (.array [], rest)
      | rest => (items? limit rest).map fun (items, rest) ↦ (.array items, rest)
    | '\x7b' :: rest =>
      match skipBlanks rest with
      | '\x7d' :: rest => some (.object [], rest)
      | rest => (members? limit rest).map fun (members, rest) ↦ (.object members, rest)
    | cs => (numeral? cs).map fun (numeral, rest) ↦ (.number numeral, rest)

/-- The items of an array up to the closing bracket, at least one, and what follows it. -/
def items? : Nat → List Char → Option (List Json × List Char)
  | 0, _ => none
  | limit + 1, cs => do
    let (item, cs) ← value? limit cs
    match skipBlanks cs with
    | ']' :: rest => return ([item], rest)
    | ',' :: rest => do
      let (items, rest) ← items? limit rest
      return (item :: items, rest)
    | _ => none

/-- The members of an object up to the closing brace, at least one, and what follows it. -/
def members? : Nat → List Char → Option (List (Option String × Json) × List Char)
  | 0, _ => none
  | limit + 1, cs =>
    match skipBlanks cs with
    | '"' :: cs => do
      let (key, cs) ← string? cs
      match skipBlanks cs with
      | ':' :: cs => do
        let (value, cs) ← value? limit cs
        match skipBlanks cs with
        | '\x7d' :: rest => return ([(key, value)], rest)
        | ',' :: rest => do
          let (members, rest) ← members? limit rest
          return ((key, value) :: members, rest)
        | _ => none
      | _ => none
    | _ => none

end

/-- The value that a text stands for. -/
def ofText? (text : String) : Option Json := do
  let cs := text.toList
  let (value, rest) ← value? (2 * cs.length + 2) cs
  if (skipBlanks rest).isEmpty then some value else none

end EventStaging.Json
