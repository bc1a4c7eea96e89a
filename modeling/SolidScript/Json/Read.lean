import SolidScript.Json.Basic
import SolidScript.Decimal.Read

/-!
# Reading JSON

`parse?` accepts exactly the texts of the grammar and gives their value, in which parts that name nothing are
unreadable; `read?` also wants every part readable and gives the canonical form. The reader descends along the
grammar; its first argument bounds the number of its steps and is computed from the length of the text.
-/

namespace SolidScript.Json

/-- How deep the values of a text may nest. -/
def depthLimit : Nat := 127

/-- The text behind the white space of the grammar. -/
def skipBlank (text : List Char) : List Char :=
  text.dropWhile fun c => c = ' ' || c = '\n' || c = '\t' || c = '\r'

/-! ## Strings -/

/-- The value of a hexadecimal digit. -/
def hexValue? (c : Char) : Option Nat :=
  if c.isDigit then some (c.toNat - '0'.toNat)
  else if 'a' ≤ c ∧ c ≤ 'f' then some (c.toNat - 'a'.toNat + 10)
  else if 'A' ≤ c ∧ c ≤ 'F' then some (c.toNat - 'A'.toNat + 10)
  else none

/-- The value of four hexadecimal digits. -/
def hexQuad? (a b c d : Char) : Option Nat := do
  let a ← hexValue? a
  let b ← hexValue? b
  let c ← hexValue? c
  let d ← hexValue? d
  some (((a * 16 + b) * 16 + c) * 16 + d)

/-- The character that a letter behind a backslash names. -/
def escaped? : Char → Option Char
  | '\"' => some '\"'
  | '\\' => some '\\'
  | '/' => some '/'
  | 'b' => some '\x08'
  | 'f' => some '\x0c'
  | 'n' => some '\n'
  | 'r' => some '\r'
  | 't' => some '\t'
  | _ => none

/-- The code units of a string up to its closing quote, and what follows. A character stands for its code point. -/
def stringUnits? : List Char → Option (List Nat × List Char)
  | [] => none
  | '\"' :: rest => some ([], rest)
  | '\\' :: 'u' :: a :: b :: c :: d :: rest => do
    let unit ← hexQuad? a b c d
    let (units, rest) ← stringUnits? rest
    some (unit :: units, rest)
  | '\\' :: c :: rest => do
    let char ← escaped? c
    let (units, rest) ← stringUnits? rest
    some (char.toNat :: units, rest)
  | c :: rest =>
    if c.toNat < 0x20 then none
    else (stringUnits? rest).map fun (units, rest) => (c.toNat :: units, rest)

/-- The characters of code units; none if half of a surrogate pair stands alone. -/
def charsOfUnits? : List Nat → Option (List Char)
  | [] => some []
  | high :: rest =>
    if 0xD800 ≤ high ∧ high < 0xDC00 then
      match rest with
      | low :: rest =>
        if 0xDC00 ≤ low ∧ low < 0xE000 then
          (charsOfUnits? rest).map (Char.ofNat (0x10000 + (high - 0xD800) * 0x400 + (low - 0xDC00)) :: ·)
        else none
      | [] => none
    else if 0xDC00 ≤ high ∧ high < 0xE000 then none
    else (charsOfUnits? rest).map (Char.ofNat high :: ·)

/-- A string behind its opening quote; its text is absent if it names none. -/
def string? (text : List Char) : Option (Option String × List Char) :=
  (stringUnits? text).map fun (units, rest) => ((charsOfUnits? units).map String.ofList, rest)

/-! ## Numbers -/

/-- The digits behind a point, at least one; none stand there if there is no point. -/
def fraction? : List Char → Option (Option (List Char) × List Char)
  | '.' :: rest =>
    let (digits, rest) := Decimal.Digits.split rest
    if digits.isEmpty then none else some (some digits, rest)
  | rest => some (none, rest)

/-- The exponent behind its mark. -/
def exponent? : List Char → Option (Option Int × List Char)
  | [] => some (none, [])
  | c :: rest =>
    if c = 'e' ∨ c = 'E' then
      let (negative, rest) := Decimal.splitSign rest
      let (digits, rest) := Decimal.Digits.split rest
      if digits.isEmpty then none
      else
        let n : Int := Decimal.Digits.value digits
        some (some (if negative then -n else n), rest)
    else some (none, c :: rest)

/-- The value of a whole number as it is written: an integer if 64 bits hold it, else a double. -/
def wholeNumber (negative : Bool) (n : Nat) : Number :=
  if negative then
    if n = 0 then .double (-0.0)
    else if n ≤ Decimal.Digits.signedReach then .integer (-(n : Int)) else .double (doubleOfInt (-(n : Int)))
  else if n < UInt64.size then .integer n else .double (doubleOfInt n)

/-- A number as a value; one beyond the doubles is unreadable. -/
def ofNumber : Number → Json
  | .integer n => .number (.integer n)
  | .double x => if x.isFinite then .number (.double x) else .unreadable

/-- The digits in front of a number, and what follows. A zero in front stands alone. -/
def wholeDigits : List Char → List Char × List Char
  | '0' :: rest => (['0'], rest)
  | text => Decimal.Digits.split text

/-- A number behind its sign. -/
def magnitude? (negative : Bool) (text : List Char) : Option (Json × List Char) := do
  let (whole, rest) := wholeDigits text
  if whole.isEmpty then none
  let (fraction, rest) ← fraction? rest
  let (exponent, rest) ← exponent? rest
  let number := match fraction, exponent with
    | none, none => wholeNumber negative (Decimal.Digits.value whole)
    | _, _ =>
      let x := Decimal.ofDigits whole (fraction.getD []) (exponent.getD 0)
      .double (if negative then -x else x)
  some (ofNumber number, rest)

/-- A number. -/
def number? : List Char → Option (Json × List Char)
  | '-' :: rest => magnitude? true rest
  | text => magnitude? false text

/-! ## Values -/

/-- A value that may nest `room` deep: nothing that stands deeper can be read. -/
def within (room : Nat) (value : Json) : Json := if room = 0 then .unreadable else value

mutual

/-- A value, and what follows it. -/
def value? : Nat → Nat → List Char → Option (Json × List Char)
  | 0, _, _ => none
  | steps + 1, room, text =>
    match skipBlank text with
    | 'n' :: 'u' :: 'l' :: 'l' :: rest => some (.null, rest)
    | 't' :: 'r' :: 'u' :: 'e' :: rest => some (.bool true, rest)
    | 'f' :: 'a' :: 'l' :: 's' :: 'e' :: rest => some (.bool false, rest)
    | '\"' :: rest => (string? rest).map fun (s, rest) => ((s.map Json.string).getD .unreadable, rest)
    | '[' :: rest =>
      match skipBlank rest with
      | ']' :: rest => some (within room (.array []), rest)
      | rest => (items? steps (room - 1) rest).map fun (items, rest) => (within room (.array items), rest)
    | '{' :: rest =>
      match skipBlank rest with
      | '}' :: rest => some (within room (.object []), rest)
      | rest => (fields? steps (room - 1) rest).map fun (fields, rest) =>
        (within room ((fields.map Json.object).getD .unreadable), rest)
    | rest => number? rest

/-- The items of an array up to its closing bracket. -/
def items? : Nat → Nat → List Char → Option (List Json × List Char)
  | 0, _, _ => none
  | steps + 1, room, text => do
    let (item, rest) ← value? steps room text
    match skipBlank rest with
    | ',' :: rest => (items? steps room rest).map fun (items, rest) => (item :: items, rest)
    | ']' :: rest => some ([item], rest)
    | _ => none

/-- The fields of an object up to its closing brace; absent if a key names no text. -/
def fields? : Nat → Nat → List Char → Option (Option (List (String × Json)) × List Char)
  | 0, _, _ => none
  | steps + 1, room, text =>
    match skipBlank text with
    | '\"' :: rest => do
      let (key, rest) ← string? rest
      match skipBlank rest with
      | ':' :: rest =>
        let (value, rest) ← value? steps room rest
        match skipBlank rest with
        | ',' :: rest => (fields? steps room rest).map fun (fields, rest) =>
          ((do some ((← key, value) :: (← fields))), rest)
        | '}' :: rest => some (key.map fun key => [(key, value)], rest)
        | _ => none
      | _ => none
    | _ => none

end

/-- The value of a text whose containers nest at most `room` deep where they are to be read. -/
def parseWithin? (room : Nat) (text : String) : Option Json :=
  match value? (2 * text.length + 2) room text.toList with
  | some (value, rest) => if (skipBlank rest).isEmpty then some value else none
  | none => none

/-- The value of a text. -/
def parse? (text : String) : Option Json := parseWithin? depthLimit text

/-- The canonical value of a text all of whose parts can be read. -/
def read? (text : String) : Option Json :=
  match parse? text with
  | some value => if value.isReadable then some value.canonical else none
  | none => none

end SolidScript.Json
