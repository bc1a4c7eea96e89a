import SolidScript.Json.Basic

/-!
# Writing JSON

The text of a value in two layouts: `compact` without any space, `pretty` with one item a line, indented by two spaces
for each open bracket. In strings the quote, the backslash and control characters are escaped; all else stands for
itself.
-/

namespace SolidScript.Json

/-- The lower-case hexadecimal digit of a number below sixteen. -/
def hexDigit (n : Nat) : Char := (Nat.toDigits 16 n).headD '0'

/-- One character inside a string. -/
def escapeChar (c : Char) : List Char :=
  if c = '\"' then ['\\', '\"']
  else if c = '\\' then ['\\', '\\']
  else if c = '\n' then ['\\', 'n']
  else if c = '\r' then ['\\', 'r']
  else if c = '\t' then ['\\', 't']
  else if c = '\x08' then ['\\', 'b']
  else if c = '\x0c' then ['\\', 'f']
  else if c.toNat < 0x20 then ['\\', 'u', '0', '0', hexDigit (c.toNat / 16), hexDigit (c.toNat % 16)]
  else [c]

/-- The text of a string. -/
def writeString (s : String) : String := String.ofList ('\"' :: s.toList.flatMap escapeChar ++ ['\"'])

mutual

/-- The text of a value without spaces. -/
def compact : Json → String
  | .null => "null"
  | .bool b => if b then "true" else "false"
  | .number n => n.write
  | .string s => writeString s
  | .array [] => "[]"
  | .array (item :: rest) => "[" ++ compact item ++ compactItems rest ++ "]"
  | .object [] => "\x7b\x7d"
  | .object ((key, value) :: rest) =>
    "\x7b" ++ writeString key ++ ":" ++ compact value ++ compactFields rest ++ "\x7d"
  | .unreadable => "null"

/-- Further items, each behind a comma. -/
def compactItems : List Json → String
  | [] => ""
  | item :: rest => "," ++ compact item ++ compactItems rest

/-- Further fields, each behind a comma. -/
def compactFields : List (String × Json) → String
  | [] => ""
  | (key, value) :: rest => "," ++ writeString key ++ ":" ++ compact value ++ compactFields rest

end

/-- A line end and the indentation of a depth. -/
def lineAt (depth : Nat) : String := String.ofList ('\n' :: List.replicate (2 * depth) ' ')

mutual

/-- The text of a value inside `depth` brackets, one item a line. -/
def prettyAt (depth : Nat) : Json → String
  | .array (item :: rest) =>
    "[" ++ lineAt (depth + 1) ++ prettyAt (depth + 1) item ++ prettyItems (depth + 1) rest ++ lineAt depth ++ "]"
  | .object ((key, value) :: rest) =>
    "\x7b" ++ lineAt (depth + 1) ++ writeString key ++ ": " ++ prettyAt (depth + 1) value
      ++ prettyFields (depth + 1) rest ++ lineAt depth ++ "\x7d"
  | value => compact value

/-- Further items, each on its line. -/
def prettyItems (depth : Nat) : List Json → String
  | [] => ""
  | item :: rest => "," ++ lineAt depth ++ prettyAt depth item ++ prettyItems depth rest

/-- Further fields, each on its line. -/
def prettyFields (depth : Nat) : List (String × Json) → String
  | [] => ""
  | (key, value) :: rest =>
    "," ++ lineAt depth ++ writeString key ++ ": " ++ prettyAt depth value ++ prettyFields depth rest

end

/-- The text of a value, one item a line. -/
def pretty (value : Json) : String := prettyAt 0 value

end SolidScript.Json
