import Mathlib.Data.List.Chain
import SolidScript.Overlay.Render
import SolidScript.Proofs.Script.Layout
import SolidScript.Proofs.Script.Numeral

/-!
# Reading the script of an overlay

The script is read without any knowledge of how it was written: line by line, counting braces (`depths?`), and cutting
the headers of loops at their marks (`pass?`).

* `Wordless`, `Tame`, `Entry`: texts that cannot disturb what stands around them, closed under appending. Measures and
  identifiers made of them are such texts.
* `Nested`: lines with the number of braces that are open behind each; the text of such lines is read as these lines
  (`lines_unlines`).
-/

namespace SolidScript.Overlay

open Script (number lines unindented Numerals isNumeral numerals_number)
open Text.Quoted (quote)

/-! ## Reading a script -/

/-- The number of braces that are open behind a text if `depth` are open in front of it. There is none if more are
closed than are open. -/
def braces? : Nat → List Char → Option Nat
  | depth, [] => some depth
  | depth, c :: rest =>
    if c = '\x7b' then braces? (depth + 1) rest
    else if c = '\x7d' then
      match depth with
      | 0 => none
      | outer + 1 => braces? outer rest
    else braces? depth rest

/-- The number of braces that are open behind each line. -/
def depths? : Nat → List (List Char) → Option (List Nat)
  | _, [] => some []
  | depth, line :: rest => do
    let behind ← braces? depth line
    some (behind :: (← depths? behind rest))

/-- The text in front of the first occurrence of a mark, and the text behind it. -/
def cut? (mark : List Char) : List Char → Option (List Char × List Char)
  | [] => none
  | c :: rest =>
    match (c :: rest).dropPrefix? mark with
    | some behind => some ([], behind)
    | none => (cut? mark rest).map fun (front, behind) => (c :: front, behind)

/-- What is known of a row of calls: the number of parentheses that are open, the letters that were read last, and the
names of the calls outside of all parentheses. -/
structure Calls where
  depth : Nat
  word : List Char
  names : List String
deriving DecidableEq

/-- One more character. The letters in front of an opening parenthesis are the name of a call. -/
def Calls.step (s : Calls) (c : Char) : Calls :=
  if c = '(' then ⟨s.depth + 1, [], if s.depth = 0 then s.names ++ [String.ofList s.word] else s.names⟩
  else if c = ')' then ⟨s.depth - 1, [], s.names⟩
  else if s.depth = 0 ∧ c.isAlpha then ⟨0, s.word ++ [c], s.names⟩
  else ⟨s.depth, [], s.names⟩

/-- The names of the calls of a statement, those in the arguments of others left out. -/
def calls (text : List Char) : List String := (text.foldl Calls.step ⟨0, [], []⟩).names

/-- A loop that leaves out a value: its variable and bounds, the variable that is compared with zero, and the calls of
its body. -/
structure Pass where
  var : String
  first : String
  step : String
  last : String
  guard : String
  drawn : List String

/-- The pass on a line. -/
def pass? (line : List Char) : Option Pass := do
  let text ← (unindented line).dropPrefix? "for (".toList
  let (var, text) ← cut? " = [".toList text
  let (first, text) ← cut? ":".toList text
  let (step, text) ← cut? ":".toList text
  let (last, text) ← cut? "]) if (".toList text
  let (guard, text) ← cut? " != 0)".toList text
  let string := String.ofList
  some ⟨string var, string first, string step, string last, string guard, calls text⟩

/-! ### Reading parts -/

theorem braces?_append (depth : Nat) (first second : List Char) :
    braces? depth (first ++ second) = (braces? depth first).bind fun behind => braces? behind second := by
  induction first generalizing depth with
  | nil => rfl
  | cons c rest ih =>
    simp only [List.cons_append, braces?]
    split
    · exact ih _
    · split
      · cases depth with
        | zero => rfl
        | succ outer => exact ih _
      · exact ih _

theorem braces?_of_braceless {text : List Char} (h : ∀ c ∈ text, c ≠ '\x7b' ∧ c ≠ '\x7d') (depth : Nat) :
    braces? depth text = some depth := by
  induction text with
  | nil => rfl
  | cons c rest ih =>
    obtain ⟨hopen, hclose⟩ := h c List.mem_cons_self
    simp only [braces?, if_neg hopen, if_neg hclose]
    exact ih fun d hd => h d (List.mem_cons_of_mem _ hd)

/-- What is known behind more text. -/
def Calls.after (s : Calls) (text : String) : Calls := text.toList.foldl Calls.step s

theorem Calls.after_append (s : Calls) (first second : String) :
    s.after (first ++ second) = (s.after first).after second := by
  rw [after, String.toList_append, List.foldl_append]
  rfl

/-- Names that are known from before play no part. -/
theorem Calls.after_before (before : List String) (s : Calls) (text : String) :
    (⟨s.depth, s.word, before ++ s.names⟩ : Calls).after text =
      ⟨(s.after text).depth, (s.after text).word, before ++ (s.after text).names⟩ := by
  unfold after
  induction text.toList generalizing s with
  | nil => rfl
  | cons c rest ih =>
    have hstep : Calls.step ⟨s.depth, s.word, before ++ s.names⟩ c =
        ⟨(s.step c).depth, (s.step c).word, before ++ (s.step c).names⟩ := by
      simp only [Calls.step]
      split_ifs <;> simp
    simp only [List.foldl_cons, hstep, ih]

/-- Inside of parentheses, a text without any of its own is passed over. -/
theorem foldl_step_inside {text : List Char} (hopen : '(' ∉ text) (hclose : ')' ∉ text) (depth : Nat)
    (names : List String) : text.foldl Calls.step ⟨depth + 1, [], names⟩ = ⟨depth + 1, [], names⟩ := by
  induction text with
  | nil => rfl
  | cons c rest ih =>
    obtain ⟨hopen, hrest⟩ := List.ne_and_not_mem_of_not_mem_cons hopen
    obtain ⟨hclose, hrest'⟩ := List.ne_and_not_mem_of_not_mem_cons hclose
    simp [Calls.step, hopen.symm, hclose.symm, ih hrest hrest']

/-! ## Words -/

/-- A text without the letter `N`, and with no `f` at its front or behind an `n`. No text put together from such texts
contains one of the words for what is no finite number. -/
structure Wordless (text : String) : Prop where
  chars : 'N' ∉ text.toList
  apart : text.toList.IsChain fun a b => ¬ (a = 'n' ∧ b = 'f')
  front : text.toList.head? ≠ some 'f'

namespace Wordless

variable {first second text : String}

instance (text : String) : Decidable (Wordless text) :=
  decidable_of_iff ('N' ∉ text.toList ∧ text.toList.IsChain (fun a b => ¬ (a = 'n' ∧ b = 'f')) ∧
    text.toList.head? ≠ some 'f')
    ⟨fun ⟨chars, apart, front⟩ => ⟨chars, apart, front⟩, fun h => ⟨h.chars, h.apart, h.front⟩⟩

theorem append (hfirst : Wordless first) (hsecond : Wordless second) : Wordless (first ++ second) := by
  constructor
  all_goals rw [String.toList_append]
  · exact fun hc => (List.mem_append.1 hc).elim hfirst.chars hsecond.chars
  · refine List.isChain_append.2 ⟨hfirst.apart, hsecond.apart, ?_⟩
    rintro a - b hb ⟨-, rfl⟩
    exact hsecond.front hb
  · cases htext : first.toList with
    | nil => exact hsecond.front
    | cons c rest =>
      have hfront := hfirst.front
      rwa [htext] at hfront

theorem of_chars (hN : 'N' ∉ text.toList) (hf : 'f' ∉ text.toList) : Wordless text := by
  refine ⟨hN, ?_, fun h => hf (List.mem_of_mem_head? h)⟩
  rw [List.isChain_iff_getElem]
  rintro i hi ⟨-, h⟩
  exact hf (h ▸ List.getElem_mem hi)

end Wordless

/-- A text without words, on a single line, and without braces. -/
structure Tame (text : String) : Prop extends Wordless text where
  single : '\n' ∉ text.toList
  unopened : '\x7b' ∉ text.toList
  unclosed : '\x7d' ∉ text.toList

namespace Tame

variable {first second text : String}

instance (text : String) : Decidable (Tame text) :=
  decidable_of_iff (Wordless text ∧ '\n' ∉ text.toList ∧ '\x7b' ∉ text.toList ∧ '\x7d' ∉ text.toList)
    ⟨fun ⟨words, single, unopened, unclosed⟩ => ⟨words, single, unopened, unclosed⟩,
      fun h => ⟨h.toWordless, h.single, h.unopened, h.unclosed⟩⟩

theorem append (hfirst : Tame first) (hsecond : Tame second) : Tame (first ++ second) := by
  refine ⟨hfirst.toWordless.append hsecond.toWordless, ?_, ?_, ?_⟩
  all_goals rw [String.toList_append, List.mem_append, not_or]
  · exact ⟨hfirst.single, hsecond.single⟩
  · exact ⟨hfirst.unopened, hsecond.unopened⟩
  · exact ⟨hfirst.unclosed, hsecond.unclosed⟩

theorem baseUnit (u : UnitSystem) : Tame u.baseUnit := by
  cases u <;> decide

theorem labelUnit (u : UnitSystem) : Tame u.labelUnit := by
  cases u <;> decide

theorem describeStep (u : UnitSystem) : ∀ step ∈ u.tiers.toList, Tame (u.describeStep step) := by
  cases u <;> decide +kernel

end Tame

/-- The characters that the entries of a statement are kept free of. -/
def reserved : List Char := ['N', 'f', '\n', '\x7b', '\x7d', '(', ')']

/-- A tame text without parentheses. -/
structure Entry (text : String) : Prop extends Tame text where
  unparted : '(' ∉ text.toList ∧ ')' ∉ text.toList

namespace Entry

variable {first second text : String}

instance (text : String) : Decidable (Entry text) :=
  decidable_of_iff (Tame text ∧ '(' ∉ text.toList ∧ ')' ∉ text.toList)
    ⟨fun ⟨tame, unparted⟩ => ⟨tame, unparted⟩, fun h => ⟨h.toTame, h.unparted⟩⟩

theorem append (hfirst : Entry first) (hsecond : Entry second) : Entry (first ++ second) := by
  refine ⟨hfirst.toTame.append hsecond.toTame, ?_⟩
  rw [String.toList_append, List.mem_append, not_or, List.mem_append, not_or]
  exact ⟨⟨hfirst.unparted.1, hsecond.unparted.1⟩, hfirst.unparted.2, hsecond.unparted.2⟩

theorem of_absent (h : ∀ c ∈ reserved, c ∉ text.toList) : Entry text :=
  ⟨⟨.of_chars (h _ (by decide)) (h _ (by decide)), h _ (by decide), h _ (by decide), h _ (by decide)⟩,
    h _ (by decide), h _ (by decide)⟩

theorem of_numerals (h : Numerals text) : Entry text := by
  have hother : reserved.all (fun c => !isNumeral c) = true := by decide
  refine of_absent fun c hc hmem => ?_
  have hfalse := List.all_eq_true.1 hother c hc
  simp [h c hmem] at hfalse

theorem number (x : Float) : Entry (number x) := of_numerals (numerals_number x)

theorem triple {a b c : String} (ha : Entry a) (hb : Entry b) (hc : Entry c) : Entry (triple a b c) := by
  have hcomma : Entry ", " := by decide
  exact (Entry.append (by decide) ha).append hcomma |>.append hb |>.append hcomma |>.append hc |>.append (by decide)

/-- Inside of parentheses, an entry is passed over. -/
theorem after (h : Entry text) (depth : Nat) (names : List String) :
    (⟨depth + 1, [], names⟩ : Calls).after text = ⟨depth + 1, [], names⟩ :=
  foldl_step_inside h.unparted.1 h.unparted.2 depth names

/-- A minus is written with letters that are not reserved, and so is a point. -/
theorem identifierNumber {text : String} (h : Numerals text) : Entry (identifierNumber text) := by
  have hother : reserved.all (fun c => !isNumeral c && !(['n', 'e', 'g', 'p'].contains c)) = true := by decide
  refine of_absent fun c hc hmem => ?_
  have hfalse := List.all_eq_true.1 hother c hc
  rw [Overlay.identifierNumber, String.toList_ofList, List.mem_flatMap] at hmem
  obtain ⟨d, hd, hcd⟩ := hmem
  unfold identifierChar at hcd
  split at hcd
  · simp only [List.mem_cons, List.not_mem_nil, or_false] at hcd
    rcases hcd with rfl | rfl | rfl <;> cases hfalse
  · split at hcd
    · rw [List.mem_singleton.1 hcd] at hfalse
      cases hfalse
    · rw [List.mem_singleton.1 hcd, h d hd] at hfalse
      cases hfalse

end Entry

/-! ## Lines -/

/-- A line with the number of braces that are open in front of it and behind it. -/
structure Line (depth : Nat) (line : String) (behind : Nat) : Prop where
  words : Wordless line
  single : '\n' ∉ line.toList
  filled : line.toList ≠ []
  braces : braces? depth line.toList = some behind

/-- Lines with the number of braces that are open behind each. -/
inductive Nested : Nat → List String → List Nat → Prop where
  | nil (depth : Nat) : Nested depth [] []
  | cons {depth behind : Nat} {line : String} {rest : List String} {depths : List Nat} :
    Line depth line behind → Nested behind rest depths → Nested depth (line :: rest) (behind :: depths)

section Lines

variable {depth behind : Nat} {line : String} {ls ls' : List String} {depths depths' : List Nat}

theorem Tame.braces (h : Tame line) (depth : Nat) : braces? depth line.toList = some depth :=
  braces?_of_braceless (fun _ hc => ⟨ne_of_mem_of_not_mem hc h.unopened, ne_of_mem_of_not_mem hc h.unclosed⟩) depth

/-- A line that opens a block. -/
theorem Tame.opening (h : Tame line) (depth : Nat) : Line depth (line ++ "\x7b") (depth + 1) := by
  refine ⟨h.toWordless.append (by decide), ?_, ?_, ?_⟩
  · simpa using h.single
  · simp
  · rw [String.toList_append, braces?_append, h.braces]
    rfl

namespace Nested

/-- Lines are read with the braces that the lines in front of them leave open. -/
theorem append (h : Nested depth ls depths) (h' : Nested (depths.getLastD depth) ls' depths') :
    Nested depth (ls ++ ls') (depths ++ depths') := by
  induction h with
  | nil depth => exact h'
  | cons hline _ ih =>
    rw [List.getLastD_cons] at h'
    exact .cons hline (ih h')

theorem length_eq (h : Nested depth ls depths) : ls.length = depths.length := by
  induction h with
  | nil => rfl
  | cons _ _ ih => rw [List.length_cons, ih, List.length_cons]

end Nested

end Lines

end SolidScript.Overlay
