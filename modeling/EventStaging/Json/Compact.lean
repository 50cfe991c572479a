import EventStaging.Json.Basic
import EventStaging.Service

/-!
# Compact JSON texts

The text of a JSON value without blanks, and the values of requests. In a string a quote, a
backslash and the control characters are escaped, five of the controls by a letter and the others
by their number; every other character stands for itself.
-/

namespace EventStaging

namespace Json

/-- A hexadecimal digit. -/
def hexDigit (n : Nat) : Char := Nat.digitChar n

/-- A character as it stands in a string. -/
def escape (c : Char) : List Char :=
  if c = '"' then ['\\', '"']
  else if c = '\\' then ['\\', '\\']
  else if c = '\x08' then ['\\', 'b']
  else if c = '\t' then ['\\', 't']
  else if c = '\n' then ['\\', 'n']
  else if c = '\x0c' then ['\\', 'f']
  else if c = '\r' then ['\\', 'r']
  else if c.toNat < 0x20 then
    ['\\', 'u', '0', '0', hexDigit (c.toNat / 16), hexDigit (c.toNat % 16)]
  else [c]

/-- A string in quotes. -/
def quote (text : String) : List Char := '"' :: text.toList.flatMap escape ++ ['"']

end Json

namespace Numeral

/-- The point of a numeral and the digits after it. -/
def fractionText (n : Numeral) : List Char :=
  match n.fraction with
  | none => []
  | some digits => '.' :: digits

/-- The exponent of a numeral. -/
def exponentText (n : Numeral) : List Char :=
  match n.exponent with
  | none => []
  | some (negative, digits) => 'e' :: (if negative then ['-'] else []) ++ digits

/-- A numeral as it is written. -/
def compact (n : Numeral) : List Char :=
  (if n.negative then ['-'] else []) ++ n.whole ++ n.fractionText ++ n.exponentText

end Numeral

namespace Json

mutual

/-- The text of a value. A string without a text is written as an empty one. -/
def compact : Json → List Char
  | .null => "null".toList
  | .bool true => "true".toList
  | .bool false => "false".toList
  | .number n => n.compact
  | .string text => quote (text.getD "")
  | .array items => '[' :: compactItems items ++ [']']
  | .object members => '\x7b' :: compactMembers members ++ ['\x7d']

/-- The texts of values with commas between them. -/
def compactItems : List Json → List Char
  | [] => []
  | [item] => compact item
  | item :: items => compact item ++ ',' :: compactItems items

/-- The texts of members with commas between them. -/
def compactMembers : List (Option String × Json) → List Char
  | [] => []
  | [(key, value)] => quote (key.getD "") ++ ':' :: compact value
  | (key, value) :: members =>
    quote (key.getD "") ++ ':' :: compact value ++ ',' :: compactMembers members

end

/-- The value of an integer. -/
def ofInt (i : Int) : Json := .number (Numeral.ofInt i)

end Json

/-- The JSON value of a request. -/
def Request.toJson (request : Request) : Json :=
  .object [
    (some "kind", .ofInt request.kind.toInt),
    (some "source", .string (some request.source)),
    (some "payload", .array (request.payload.map fun byte ↦ .ofInt byte.toNat))]

/-- The JSON text of a request. -/
def Request.text (request : Request) : String := String.ofList request.toJson.compact

/-- The JSON text of a batch. -/
def Request.batchText (requests : List Request) : String :=
  String.ofList (Json.array (requests.map Request.toJson)).compact

end EventStaging
