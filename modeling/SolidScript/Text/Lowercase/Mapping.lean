import SolidScript.Text.Lowercase.Table
import SolidScript.Text.Basic

/-!
# Lower case

The full lower-case mapping of texts. Each character is mapped by the table, one letter becomes two characters, and
the capital sigma becomes a final sigma at the end of a word: after a cased letter and before none, where characters
that are ignorable for case are passed over.
-/

namespace SolidScript.Text

/-- The lower-case form of a single character, apart from its place in a word. -/
def lowerChar (c : Char) : List Char :=
  let n := c.toNat
  if n < 0x80 then [c.toLower]
  else if n = 0x130 then ['i', '\u0307']
  else
    match lowerRuns.find? fun (first, last, step, _) => first ≤ n && n ≤ last && (n - first) % step == 0 with
    | some (_, _, _, shift) => [Char.ofNat ((n : Int) + shift).toNat]
    | none => [c]

/-- Whether the first character that is not ignorable for case is a cased letter. -/
def meetsCased (text : List Char) : Bool :=
  match text.dropWhile fun c => inRanges ignorableRanges c.toNat with
  | c :: _ => inRanges casedRanges c.toNat
  | [] => false

/-- The lower-case form of a text that stands after `before`, which is given backwards. -/
def lowercaseAfter (before : List Char) : List Char → List Char
  | [] => []
  | c :: rest =>
    let image :=
      if c = 'Σ' then [if meetsCased before && !meetsCased rest then 'ς' else 'σ'] else lowerChar c
    image ++ lowercaseAfter (c :: before) rest

/-- The lower-case form of a text. -/
def lowercase (text : String) : String := String.ofList (lowercaseAfter [] text.toList)

end SolidScript.Text
