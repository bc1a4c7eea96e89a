import SolidScript.Overlay.Normalize
import SolidScript.Text.Basic

/-!
# Rendering of overlays

The script of an overlay is one module. For each axis it draws tick marks at the four grid spacings, then labels at the
coarsest one; nothing is drawn at the coordinate zero, where the axes meet. The name of the module tells its theme,
extents, unit and, if that is not the origin, where it starts.
-/

namespace SolidScript.Overlay

open Script (number)
open Text.Quoted (quote)

/-- The size of a tick mark. -/
structure Tick where
  length : Float
  thickness : Float
deriving BEq, Repr

/-- The dimensions of what an overlay draws, in units. -/
structure Style where
  ticks : Tiers Tick
  labelSize : Float
  labelOffset : Float

/-- The dimensions that suit a unit system. -/
def Style.ofUnit : UnitSystem → Style
  | .metric => ⟨⟨⟨8, 0.6⟩, ⟨6, 0.5⟩, ⟨4, 0.4⟩, ⟨2, 0.3⟩⟩, 4, 10⟩
  | .imperial => ⟨⟨⟨0.4, 0.03⟩, ⟨0.3, 0.025⟩, ⟨0.2, 0.02⟩, ⟨0.1, 0.015⟩⟩, 0.2, 0.5⟩

/-- A rendered overlay and what is told about it. -/
structure Rendered where
  script : String
  moduleName : String
  /-- The statement that draws the overlay. -/
  invocation : String
  /-- The volume of the bounds in the smaller unit. -/
  volumeLinear : Float
  /-- The volume of the bounds in the larger unit. -/
  volumeScaled : Float

/-- The text of an extent: in the imperial system, in whole inches. -/
def extentLabel (u : UnitSystem) (r : Range Float) : String :=
  match u with
  | .metric => number r.extent
  | .imperial => number (Length.wholeUnits r.extent)

/-- One character of a number inside an identifier. -/
def identifierChar (c : Char) : List Char :=
  if c = '-' then ['n', 'e', 'g'] else if c = '.' then ['p'] else [c]

/-- A number inside an identifier: `neg` is a minus and `p` a point. -/
def identifierNumber (text : String) : String := String.ofList (text.toList.flatMap identifierChar)

/-- The name of the module. -/
def moduleName (b : Bounds Float) (u : UnitSystem) (theme : Theme) : String :=
  let extent := fun r => identifierNumber (extentLabel u r)
  let name := "axis_" ++ theme.name ++ "_" ++ extent b.x ++ "x" ++ extent b.y ++ "x" ++ extent b.z ++ "_" ++ u.baseUnit
  if b.originIsZero then name
  else name ++ "_at_" ++ "_".intercalate (b.origin.map fun a => identifierNumber (number a))

/-- The volume of the bounds in both units of the system. -/
def volumes (b : Bounds Float) (u : UnitSystem) : Float × Float :=
  let raw := b.x.extent * b.y.extent * b.z.extent
  match u with
  | .metric =>
    let cubicCm := Length.cubicCmOfCubicMm raw
    (cubicCm, Length.cubicMOfCubicCm cubicCm)
  | .imperial => (raw, Length.cubicFtOfCubicIn raw)

/-- A loop along an axis that leaves out zero. -/
def loopHeader (axis : Axis) (r : Range Float) (step : Float) : String :=
  "for (" ++ axis.var ++ " = [" ++ number r.min ++ ":" ++ number step ++ ":" ++ number r.max ++ "]) if (" ++ axis.var
    ++ " != 0)"

/-- Three entries between square brackets. -/
def triple (a b c : String) : String := "[" ++ a ++ ", " ++ b ++ ", " ++ c ++ "]"

/-- The statement that draws the tick marks of one spacing along an axis. -/
def tickPass (axis : Axis) (r : Range Float) (step : Float) (tick : Tick) : String :=
  let length := number tick.length
  let thickness := number tick.thickness
  let (position, size) := match axis with
    | .x => (triple axis.var "0" "0", triple thickness length thickness)
    | .y => (triple "0" axis.var "0", triple length thickness thickness)
    | .z => (triple "0" "0" axis.var, triple length thickness thickness)
  loopHeader axis r step ++ " translate(" ++ position ++ ") cube(" ++ size ++ ", center=true);"

/-- The statement that draws the labels along an axis. -/
def labelPass (axis : Axis) (r : Range Float) (step : Float) (style : Style) : String :=
  let offset := number (-style.labelOffset)
  let (placement, halign, valign) := match axis with
    | .x => ("translate(" ++ triple axis.var offset "0" ++ ")", "center", "top")
    | .y => ("translate(" ++ triple offset axis.var "0" ++ ")", "right", "center")
    | .z => ("translate(" ++ triple offset "0" axis.var ++ ") rotate([90, 0, 0])", "right", "center")
  loopHeader axis r step ++ " " ++ placement ++ " text(str(" ++ axis.var ++ " * label_scale), size="
    ++ number style.labelSize ++ ", halign=" ++ quote halign ++ ", valign=" ++ quote valign ++ ");"

/-- The lines that draw the tick marks of an axis. -/
def tickLines (u : UnitSystem) (style : Style) (axis : Axis) (r : Range Float) : List String :=
  (u.tiers.toList.zip style.ticks.toList).flatMap fun (step, tick) =>
    ["        // " ++ axis.label ++ " ticks every " ++ u.describeStep step,
     "        " ++ tickPass axis r step tick]

/-- The lines that draw the labels of an axis. -/
def labelLines (u : UnitSystem) (style : Style) (axis : Axis) (r : Range Float) : List String :=
  ["        // " ++ axis.label ++ " labels in " ++ u.labelUnit,
   "        " ++ labelPass axis r u.tiers.first style]

/-- The lines of the script. -/
def scriptLines (style : Style) (u : UnitSystem) (theme : Theme) (b : Bounds Float) : List String :=
  let name := moduleName b u theme
  let (linear, scaled) := volumes b u
  ["module " ++ name ++ "() \x7b",
   "    unit = " ++ quote u.baseUnit ++ ";",
   "    label_scale = " ++ number u.labelScale ++ "; // " ++ u.baseUnit ++ " -> " ++ u.labelUnit,
   "    color(" ++ quote theme.inkColor ++ ") \x7b"]
    ++ b.axes.flatMap (fun (axis, r) => tickLines u style axis r)
    ++ b.axes.flatMap (fun (axis, r) => labelLines u style axis r)
    ++ ["    \x7d",
        "\x7d",
        "// " ++ name ++ ": " ++ number linear ++ " " ++ u.volumeUnits.1 ++ " (" ++ number scaled ++ " "
          ++ u.volumeUnits.2 ++ ")"]

/-- Lines, each with its end. -/
def unlines (lines : List String) : String := String.join (lines.map fun line => line ++ "\n")

/-- The overlay of bounds as they are. -/
def render (style : Style) (u : UnitSystem) (theme : Theme) (b : Bounds Float) : Rendered :=
  let name := moduleName b u theme
  let (linear, scaled) := volumes b u
  ⟨unlines (scriptLines style u theme b), name, name ++ "();", linear, scaled⟩

end SolidScript.Overlay
