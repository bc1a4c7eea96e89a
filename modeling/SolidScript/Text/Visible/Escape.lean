import SolidScript.Text.Basic
import SolidScript.Text.Visible.Table

/-!
# Visible text

A text between quotes in which everything can be seen: quotes and backslashes have a backslash in front, the ends of
lines, tabs and the null character have a name, and what prints nothing of its own is given by its code point. Most
characters stand for themselves, `escape_of_isVisible`.
-/

namespace SolidScript.Text.Visible

/-- Whether a character can be seen where it stands, whatever is in front of it. -/
def isVisible (c : Char) : Bool := !inRanges blindRanges c.toNat && !inRanges extendingRanges c.toNat

/-- The letter that stands for a character behind a backslash. -/
def letter? : Char → Option Char
  | '\x00' => some '0'
  | '\t' => some 't'
  | '\n' => some 'n'
  | '\r' => some 'r'
  | '\"' => some '\"'
  | '\\' => some '\\'
  | _ => none

/-- One character between quotes. -/
def escape (c : Char) : List Char :=
  match letter? c with
  | some letter => ['\\', letter]
  | none => if isVisible c then [c] else ['\\', 'u', '\x7b'] ++ Nat.toDigits 16 c.toNat ++ ['\x7d']

/-- A visible character stands for itself, unless it has a letter. -/
theorem escape_of_isVisible {c : Char} (h : isVisible c) (named : letter? c = none) : escape c = [c] := by
  simp [escape, named, h]

/-- A text between quotes. -/
def quote (text : String) : String := String.ofList ('\"' :: text.toList.flatMap escape ++ ['\"'])

end SolidScript.Text.Visible
