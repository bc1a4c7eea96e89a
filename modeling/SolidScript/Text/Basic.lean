/-!
# Text

What is done with the characters of texts, whatever they are about.

* `inRanges`: sets of characters as lists of ranges of code points.
* `trim`: a text without the characters of the Unicode property White_Space at its ends.
* `Quoted.quote`: the string literals of a script: the text between double quotes, with a backslash in front of quotes
  and backslashes and in the names of line ends and tabs. Every other character stands for itself.
-/

namespace SolidScript.Text

/-! ## Ranges of code points -/

/-- Whether a code point lies in one of the ranges, each given by its first and its last code point. -/
def inRanges (ranges : List (Nat × Nat)) (n : Nat) : Bool :=
  ranges.any fun (first, last) => first ≤ n && n ≤ last

/-- The code points in ranges are those between the ends of one of them. -/
theorem inRanges_iff {ranges : List (Nat × Nat)} {n : Nat} :
    inRanges ranges n ↔ ∃ range ∈ ranges, range.1 ≤ n ∧ n ≤ range.2 := by
  simp [inRanges, List.any_eq_true]

/-! ## Blank space -/

/-- Whether a character has the property White_Space. -/
def isBlank (c : Char) : Bool :=
  let n := c.toNat
  (0x9 ≤ n && n ≤ 0xD) || n == 0x20 || n == 0x85 || n == 0xA0 || n == 0x1680 || (0x2000 ≤ n && n ≤ 0x200A)
    || n == 0x2028 || n == 0x2029 || n == 0x202F || n == 0x205F || n == 0x3000

/-- Every character that core counts as white space is blank. -/
theorem isBlank_of_isWhitespace {c : Char} (h : c.isWhitespace) : isBlank c := by
  simp only [Char.isWhitespace, Bool.or_eq_true, decide_eq_true_eq] at h
  rcases h with ((h | h) | h) | h <;> subst h <;> decide

/-- The text without blank characters at its ends. -/
def trimmed (text : List Char) : List Char :=
  ((text.dropWhile isBlank).reverse.dropWhile isBlank).reverse

/-- The text without blank characters at its ends. -/
def trim (text : String) : String := String.ofList (trimmed text.toList)

/-- Trimming adds no character. -/
theorem mem_of_mem_trim {c : Char} {text : String} (h : c ∈ (trim text).toList) : c ∈ text.toList := by
  rw [trim, String.toList_ofList, trimmed, List.mem_reverse] at h
  have hfront := (List.dropWhile_sublist isBlank).subset h
  rw [List.mem_reverse] at hfront
  exact (List.dropWhile_sublist isBlank).subset hfront

/-- There is nothing to trim off a text without blank characters. -/
theorem trim_of_not_blank {text : String} (h : ∀ c ∈ text.toList, isBlank c = false) : trim text = text := by
  have hkept : ∀ chars : List Char, (∀ c ∈ chars, isBlank c = false) → chars.dropWhile isBlank = chars := by
    intro chars hchars
    cases chars with
    | nil => rfl
    | cons c rest => exact List.dropWhile_cons_of_neg (by simp [hchars c List.mem_cons_self])
  have hreversed : ∀ c ∈ text.toList.reverse, isBlank c = false := fun c hc => h c (List.mem_reverse.1 hc)
  rw [trim, trimmed, hkept _ h, hkept _ hreversed, List.reverse_reverse, String.ofList_toList]

/-! ## Quoted text -/

namespace Quoted

/-- One character inside a literal. -/
def encodeChar : Char → List Char
  | '\\' => ['\\', '\\']
  | '"' => ['\\', '"']
  | '\n' => ['\\', 'n']
  | '\t' => ['\\', 't']
  | c => [c]

/-- The inside of a literal. -/
def encode (text : List Char) : List Char := text.flatMap encodeChar

/-- The literal of a text. -/
def quote (text : String) : String := String.ofList ('"' :: encode text.toList ++ ['"'])

end Quoted
end SolidScript.Text
