import SolidScript.Toml.Scalar

/-!
# Reading TOML

`read?` gives the document of a text, or nothing if the text is no document. The text is first taken apart into lines,
each an entry or a header, and the lines then make up the tables. Values may nest and may go over several lines of
text; the readers of values descend along the grammar with a bound on the number of their steps, which is computed
from the length of the text. How deeply values nest and how many parts a key has is limited by `deepest`.
-/

namespace SolidScript.Toml

/-! ## Blanks and comments -/

/-- The text behind blanks. -/
def skipSpace (text : List Char) : List Char := text.dropWhile fun c => c = ' ' || c = '\t'

/-- Whether a character may stand in a comment or a literal string. -/
def isPrinting (c : Char) : Bool := c = '\t' || (0x20 ≤ c.toNat && c.toNat != 0x7F)

/-- The text behind the end of a line, if it begins with one. -/
def lineEnd? : List Char → Option (List Char)
  | '\n' :: rest => some rest
  | '\r' :: '\n' :: rest => some rest
  | _ => none

/-- The text behind blanks and a comment. -/
def skipComment (text : List Char) : List Char :=
  match skipSpace text with
  | '#' :: rest => rest.dropWhile isPrinting
  | rest => rest

/-- The text behind blanks, comments and ends of lines. -/
def skipLines : Nat → List Char → List Char
  | 0, text => text
  | steps + 1, text =>
    match lineEnd? (skipComment text) with
    | some rest => skipLines steps rest
    | none => skipComment text

/-! ## Strings -/

/-- The character with a code point written in `width` hexadecimal digits, and what follows them. -/
def codePoint? (width : Nat) (text : List Char) : Option (Char × List Char) :=
  let digits := text.take width
  if digits.length = width && digits.all Scalar.isHex then
    let n := Scalar.valueInBase 16 digits
    if n.isValidChar then some (Char.ofNat n, text.drop width) else none
  else none

/-- The character that a letter behind a backslash names. -/
def escaped? : Char → Option Char
  | 'b' => some '\x08'
  | 't' => some '\t'
  | 'n' => some '\n'
  | 'f' => some '\x0c'
  | 'r' => some '\r'
  | '\"' => some '\"'
  | '\\' => some '\\'
  | _ => none

/-- A character behind a backslash, and what follows it. -/
def escape? : List Char → Option (Char × List Char)
  | 'u' :: rest => codePoint? 4 rest
  | 'U' :: rest => codePoint? 8 rest
  | c :: rest => (escaped? c).map fun c => (c, rest)
  | [] => none

/-- A string behind its quote, up to the closing one. -/
def basic? : Nat → List Char → Option (List Char × List Char)
  | 0, _ => none
  | _, [] => none
  | _, '\"' :: rest => some ([], rest)
  | steps + 1, '\\' :: rest => do
    let (c, rest) ← escape? rest
    let (chars, rest) ← basic? steps rest
    some (c :: chars, rest)
  | steps + 1, c :: rest =>
    if isPrinting c then (basic? steps rest).map fun (chars, rest) => (c :: chars, rest) else none

/-- A literal string behind its quote, up to the closing one. -/
def literal? : List Char → Option (List Char × List Char)
  | [] => none
  | '\'' :: rest => some ([], rest)
  | c :: rest => if isPrinting c then (literal? rest).map fun (chars, rest) => (c :: chars, rest) else none

/-- The text without an end of a line in front. -/
def dropLineEnd (text : List Char) : List Char := (lineEnd? text).getD text

/-- Three quotes in front of a text close a string over several lines. Up to two more belong to the string. -/
def closing? (quote : Char) (text : List Char) : Option (List Char × List Char) :=
  let count := min (text.takeWhile (· = quote)).length 5
  if 3 ≤ count then some (List.replicate (count - 3) quote, text.drop count) else none

/-- The text behind blanks and ends of lines. -/
def skipMargin : Nat → List Char → List Char
  | 0, text => text
  | steps + 1, text =>
    match lineEnd? (skipSpace text) with
    | some rest => skipMargin steps rest
    | none => skipSpace text

/-- The text behind a line that ends in a backslash, without the blanks and ends of lines that follow; none if
something else stands behind the backslash. -/
def continued? (text : List Char) : Option (List Char) :=
  (lineEnd? (skipSpace text)).map fun rest => skipMargin rest.length rest

/-- A string over several lines, up to the closing quotes. -/
def longBasic? : Nat → List Char → Option (List Char × List Char)
  | 0, _ => none
  | steps + 1, text =>
    match closing? '\"' text with
    | some closed => some closed
    | none =>
      match lineEnd? text with
      | some rest => (longBasic? steps rest).map fun (chars, rest) => ('\n' :: chars, rest)
      | none =>
        match text with
        | '\\' :: rest =>
          match continued? rest with
          | some rest => longBasic? steps rest
          | none => do
            let (c, rest) ← escape? rest
            let (chars, rest) ← longBasic? steps rest
            some (c :: chars, rest)
        | c :: rest =>
          if isPrinting c then (longBasic? steps rest).map fun (chars, rest) => (c :: chars, rest) else none
        | [] => none

/-- A literal string over several lines, up to the closing quotes. -/
def longLiteral? : Nat → List Char → Option (List Char × List Char)
  | 0, _ => none
  | steps + 1, text =>
    match closing? '\'' text with
    | some closed => some closed
    | none =>
      match lineEnd? text with
      | some rest => (longLiteral? steps rest).map fun (chars, rest) => ('\n' :: chars, rest)
      | none =>
        match text with
        | c :: rest =>
          if isPrinting c then (longLiteral? steps rest).map fun (chars, rest) => (c :: chars, rest) else none
        | [] => none

/-- A string in any of its four forms, and what follows it; none if no quote stands in front. -/
def string? (text : List Char) : Option (List Char × List Char) :=
  match text with
  | '\"' :: '\"' :: '\"' :: rest => longBasic? (rest.length + 1) (dropLineEnd rest)
  | '\"' :: rest => basic? (rest.length + 1) rest
  | '\'' :: '\'' :: '\'' :: rest => longLiteral? (rest.length + 1) (dropLineEnd rest)
  | '\'' :: rest => literal? rest
  | _ => none

/-! ## Keys -/

/-- Whether a character may stand in a key without quotes. -/
def isKeyChar (c : Char) : Bool := c.isAlphanum || c = '_' || c = '-'

/-- One part of a key. -/
def part? (text : List Char) : Option (String × List Char) :=
  match text with
  | '\"' :: rest => (basic? (rest.length + 1) rest).map fun (chars, rest) => (String.ofList chars, rest)
  | '\'' :: rest => (literal? rest).map fun (chars, rest) => (String.ofList chars, rest)
  | _ =>
    let (chars, rest) := text.span isKeyChar
    if chars.isEmpty then none else some (String.ofList chars, rest)

/-- Parts of a key with dots between them: those before the last, and the last. -/
def parts? : Nat → List Char → Option (List String × String × List Char)
  | 0, _ => none
  | steps + 1, text => do
    let (first, rest) ← part? (skipSpace text)
    match skipSpace rest with
    | '.' :: rest => do
      let (path, last, rest) ← parts? steps rest
      some (first :: path, last, rest)
    | rest => some ([], first, rest)

/-- How many lists and inline tables may be open at a time, and how many parts a key may have. -/
def deepest : Nat := 79

/-- A dotted key: the path before the last part, and that part. -/
def key? (steps : Nat) (text : List Char) : Option (List String × String × List Char) :=
  (parts? steps text).filter fun (path, _, _) => decide (path.length < deepest)

/-! ## Values -/

mutual

/-- A value in which lists and inline tables nest at most `depth` deep, and what follows it. -/
def value? : Nat → Nat → List Char → Option (Toml × List Char)
  | 0, _, _ => none
  | steps + 1, depth, text =>
    match text, depth with
    | '[' :: rest, depth + 1 =>
      (elements? steps depth (skipLines steps rest)).map fun (items, rest) => (.array items, rest)
    | '{' :: rest, depth + 1 =>
      match skipSpace rest with
      | '}' :: rest => some (.table .inline [], rest)
      | rest => do
        let (pairs, rest) ← pairs? steps depth rest
        some (.table .inline (← inlineEntries? pairs), rest)
    | '\"' :: _, _ => (string? text).map fun (chars, rest) => (.string (String.ofList chars), rest)
    | '\'' :: _, _ => (string? text).map fun (chars, rest) => (.string (String.ofList chars), rest)
    | _, _ => Scalar.read? text

/-- The items of a list up to its closing bracket; a comma may stand behind the last. -/
def elements? : Nat → Nat → List Char → Option (List Toml × List Char)
  | _, _, ']' :: rest => some ([], rest)
  | 0, _, _ => none
  | steps + 1, depth, text => do
    let (item, rest) ← value? steps depth text
    match skipLines steps rest with
    | ',' :: rest => (elements? steps depth (skipLines steps rest)).map fun (items, rest) => (item :: items, rest)
    | ']' :: rest => some ([item], rest)
    | _ => none

/-- The pairs of an inline table up to its closing brace. -/
def pairs? : Nat → Nat → List Char → Option (List (List String × String × Toml) × List Char)
  | 0, _, _ => none
  | steps + 1, depth, text => do
    let (pair, rest) ← pair? steps depth text
    match skipSpace rest with
    | ',' :: rest => (pairs? steps depth rest).map fun (pairs, rest) => (pair :: pairs, rest)
    | '}' :: rest => some ([pair], rest)
    | _ => none

/-- A key and its value. -/
def pair? : Nat → Nat → List Char → Option ((List String × String × Toml) × List Char)
  | 0, _, _ => none
  | steps + 1, depth, text => do
    let (path, key, rest) ← key? steps text
    match rest with
    | '=' :: rest => do
      let (value, rest) ← value? steps depth (skipSpace rest)
      some ((path, key, value), rest)
    | _ => none

end

/-! ## Documents -/

/-- A line that holds something, and what follows it. -/
def line? (steps : Nat) (text : List Char) : Option (Line × List Char) :=
  match text with
  | '[' :: '[' :: rest => do
    let (path, key, rest) ← key? steps rest
    match rest with
    | ']' :: ']' :: rest => some (.element path key, rest)
    | _ => none
  | '[' :: rest => do
    let (path, key, rest) ← key? steps rest
    match rest with
    | ']' :: rest => some (.header path key, rest)
    | _ => none
  | _ => (pair? steps deepest text).map fun ((path, key, value), rest) => (.entry path key value, rest)

/-- The lines of a document, those without content left out. -/
def lines? : Nat → List Char → Option (List Line)
  | 0, _ => none
  | steps + 1, text =>
    match skipLines (steps + 1) text with
    | [] => some []
    | text => do
      let (line, rest) ← line? (steps + 1) (skipSpace text)
      match skipComment rest with
      | [] => some [line]
      | rest => do
        let lines ← lines? steps (← lineEnd? rest)
        some (line :: lines)

/-- The document of a text. A byte order mark in front does not count. -/
def read? (text : String) : Option Toml :=
  let chars := match text.toList with
    | '\uFEFF' :: rest => rest
    | chars => chars
  (lines? (4 * chars.length + 4) chars).bind ofLines?

end SolidScript.Toml
