import SolidScript.Decimal.Layout
import SolidScript.Geometry.Vector

/-!
# Numbers of a script

Measures are written with at most six decimal places, digits and a point only. What is no finite number is written as
zero, and so is the negative zero.
-/

namespace SolidScript.Script

/-- Decimal places that are kept. -/
def places : Int := 6

/-- The measure that is written in place of a finite one: rounded to the places, unless scaling it overflows. So large
a number has no fraction to round. -/
def rounded {α : Type} [Scalar α] (x : α) : α :=
  if Scalar.isFinite (x * Scalar.tenTo places) then Scalar.roundTo x places else x

/-- The text of a measure. -/
def number (x : Float) : String :=
  if x.isFinite then
    let r := rounded x
    if r == 0.0 then "0" else Decimal.plain.write r
  else "0"

/-- Items between square brackets, separated by commas. -/
def bracketed (items : List String) : String := "[" ++ ",".intercalate items ++ "]"

/-- The text of a vector of the plane. -/
def vec2 (v : Vec2 Float) : String := bracketed (v.toList.map number)

/-- The text of a vector of space. -/
def vec3 (v : Vec3 Float) : String := bracketed (v.toList.map number)

/-- The text of lists of point numbers. -/
def indices (lists : List (List UInt64)) : String :=
  bracketed (lists.map fun list => bracketed (list.map fun i => Decimal.Digits.write i.toNat))

/-- The text of a matrix, row by row. -/
def matrix (m : Matrix4 Float) : String := bracketed (m.rows.map fun row => bracketed (row.map number))

/-- The text of a truth value. -/
def flag (b : Bool) : String := if b then "true" else "false"

end SolidScript.Script
