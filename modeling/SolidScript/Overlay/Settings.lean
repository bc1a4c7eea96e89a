import SolidScript.Overlay.Length
import SolidScript.Script.Number
import SolidScript.Text.Basic
import SolidScript.Text.Lowercase.Mapping

/-!
# Settings of an overlay

The unit system with its four nested grid spacings, the background theme, and the bounds of the three axes. Names of
unit systems and themes are read without regard to case and surrounding blanks.
-/

namespace SolidScript.Overlay

/-- One entry for each grid spacing, from the coarsest to the finest. -/
structure Tiers (α : Type) where
  first : α
  second : α
  third : α
  fourth : α
deriving DecidableEq, Repr

namespace Tiers

variable {α : Type}

/-- The entries in order. -/
def toList (t : Tiers α) : List α := [t.first, t.second, t.third, t.fourth]

/-- Four entries in order. -/
def ofList? : List α → Option (Tiers α)
  | [a, b, c, d] => some ⟨a, b, c, d⟩
  | _ => none

theorem ofList?_toList (t : Tiers α) : ofList? t.toList = some t := rfl

end Tiers

/-- The units that an overlay is measured in. -/
inductive UnitSystem where
  | metric
  | imperial
deriving DecidableEq, Repr

/-- The grid of the imperial system is made of steps of `1/32` inch. -/
def imperialDenominator : UInt32 := 32

namespace UnitSystem

/-- The name of the unit system. -/
def name : UnitSystem → String
  | .metric => "metric"
  | .imperial => "imperial"

/-- The unit of coordinates. -/
def baseUnit : UnitSystem → String
  | .metric => "mm"
  | .imperial => "in"

/-- The unit that labels are shown in. -/
def labelUnit : UnitSystem → String
  | .metric => "cm"
  | .imperial => "in"

/-- What a coordinate is multiplied by to be shown on a label. -/
def labelScale : UnitSystem → Float
  | .metric => Length.cmOfMm 1
  | .imperial => 1

/-- The units of the two volumes that are reported. -/
def volumeUnits : UnitSystem → String × String
  | .metric => ("cm^3", "m^3")
  | .imperial => ("in^3", "ft^3")

section Grid

variable {α : Type} [Scalar α]

/-- Grid steps in a unit. -/
def precision : UnitSystem → α
  | .metric => 1
  | .imperial => Scalar.ofNat imperialDenominator.toNat

/-- The spacings of the grid, in units. -/
def tiers : UnitSystem → Tiers α
  | .metric => ⟨20, 10, 5, 1⟩
  | .imperial => ⟨1 / 4, 1 / 8, 1 / 16, 1 / 32⟩

/-- The coarsest spacing in grid steps. -/
def increment (u : UnitSystem) : α := u.tiers.first * u.precision

end Grid

/-- A grid spacing with its unit. -/
def describeStep (u : UnitSystem) (step : Float) : String :=
  match u with
  | .metric => Script.number step ++ " mm"
  | .imperial => Length.inchFraction step imperialDenominator ++ " in"

end UnitSystem

/-- The background that an overlay is seen against. -/
inductive Theme where
  | light
  | dark
deriving DecidableEq, Repr

namespace Theme

/-- The name of the theme. -/
def name : Theme → String
  | .light => "light"
  | .dark => "dark"

/-- A colour that stands out from the background. -/
def inkColor : Theme → String
  | .light => "DimGray"
  | .dark => "Gainsboro"

end Theme

/-! ## Names -/

/-- The form in which a written name is compared. -/
def normalName (written : String) : String := Text.lowercase (Text.trim written)

/-- A name that means nothing here. -/
inductive NameError where
  | unitSystem (name : String)
  | theme (name : String)
deriving DecidableEq, Repr

/-- The text of the error. -/
def NameError.message : NameError → String
  | .unitSystem name => "unknown unit system '" ++ name ++ "'"
  | .theme name => "unknown background theme '" ++ name ++ "'"

/-- The unit system that a written name means. -/
def UnitSystem.ofName (written : String) : Except NameError UnitSystem :=
  let name := normalName written
  if name = "metric" ∨ name = "mm" then .ok .metric
  else if name = "imperial" ∨ name = "in" ∨ name = "inch" then .ok .imperial
  else .error (.unitSystem name)

/-- The theme that a written name means. -/
def Theme.ofName (written : String) : Except NameError Theme :=
  let name := normalName written
  if name = "light" then .ok .light
  else if name = "dark" then .ok .dark
  else .error (.theme name)

/-- The unit system with exactly this name. -/
def UnitSystem.ofExactName? (name : String) : Option UnitSystem :=
  if name = "metric" then some .metric else if name = "imperial" then some .imperial else none

/-- The theme with exactly this name. -/
def Theme.ofExactName? (name : String) : Option Theme :=
  if name = "light" then some .light else if name = "dark" then some .dark else none

/-! ## Bounds -/

/-- The least and the greatest coordinate along an axis. -/
structure Range (α : Type) where
  min : α
  max : α
deriving DecidableEq, Repr

/-- The length of a range. -/
def Range.extent {α : Type} [Sub α] (r : Range α) : α := r.max - r.min

/-- One of the three axes. -/
inductive Axis where
  | x
  | y
  | z
deriving DecidableEq, Repr

namespace Axis

/-- The variable that runs along the axis in a script. -/
def var : Axis → String
  | .x => "x"
  | .y => "y"
  | .z => "z"

/-- What the axis is called in comments of a script. -/
def label : Axis → String
  | .x => "X"
  | .y => "Y"
  | .z => "Z"

end Axis

/-- The ranges of the three axes. -/
structure Bounds (α : Type) where
  x : Range α
  y : Range α
  z : Range α
deriving DecidableEq, Repr

namespace Bounds

variable {α β : Type}

/-- The axes with their ranges. -/
def axes (b : Bounds α) : List (Axis × Range α) := [(.x, b.x), (.y, b.y), (.z, b.z)]

/-- Every range changed. -/
def map (f : Range α → Range β) (b : Bounds α) : Bounds β := ⟨f b.x, f b.y, f b.z⟩

/-- The least coordinates. -/
def origin (b : Bounds α) : List α := [b.x.min, b.y.min, b.z.min]

/-- Whether all least coordinates are zero. -/
def originIsZero [Scalar α] (b : Bounds α) : Bool := b.origin.all fun a => Scalar.eq a 0

end Bounds
end SolidScript.Overlay
