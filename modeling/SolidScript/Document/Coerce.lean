import SolidScript.Decimal.Read
import SolidScript.Document.Schema

/-!
# Coercion

The values of the parameter types, read generously from JSON: a number may be written as a string, a truth value as a
word or as 0 or 1, one entry may stand for all entries of a vector. Lists have exactly the length that their type asks
for.
-/

namespace SolidScript.Coerce

open Json (Number)

/-- A number, or a string that writes a finite one between blanks. -/
def number? : Json → Option Float
  | .number n => some n.toDouble
  | .string s => (Decimal.float? (Text.trim s)).filter Float.isFinite
  | _ => none

/-- The greatest 32-bit count. -/
def maxCount : Float := 4294967295

/-- A number that is a 32-bit count. -/
def integer? (value : Json) : Option UInt32 :=
  match number? value with
  | some x => if 0.0 ≤ x ∧ Double.isWhole x ∧ x ≤ maxCount then some x.toUInt32 else none
  | none => none

/-- A truth value, its name in any case between blanks, or one of the numbers 0 and 1. -/
def boolean? : Json → Option Bool
  | .bool b => some b
  | .string s =>
    let word := Text.lowercase (Text.trim s)
    if word = "true" then some true else if word = "false" then some false else none
  | .number n => if n.toDouble == 0.0 then some false else if n.toDouble == 1.0 then some true else none
  | _ => none

/-- A string, or the text of a number. -/
def text? : Json → Option String
  | .string s => some s
  | .number n => some n.write
  | _ => none

/-- The items of a list. -/
def items? : Json → Option (List Json)
  | .array items => some items
  | _ => none

/-- A list of numbers. -/
def numbers? (value : Json) : Option (List Float) := do (← items? value).mapM number?

/-- A list of two numbers. -/
def point2? (value : Json) : Option (Vec2 Float) := do Vec2.ofList? (← numbers? value)

/-- A list of three numbers. -/
def point3? (value : Json) : Option (Vec3 Float) := do Vec3.ofList? (← numbers? value)

/-- A list of two numbers, or one for both axes. -/
def vector2? (value : Json) : Option (Vec2 Float) := ((number? value).map Vec2.all).or (point2? value)

/-- A list of three numbers, or one for all axes. -/
def vector3? (value : Json) : Option (Vec3 Float) := ((number? value).map Vec3.all).or (point3? value)

/-- A list of three truth values, or one for all axes. -/
def flags3? (value : Json) : Option (Vec3 Bool) :=
  ((boolean? value).map Vec3.all).or do Vec3.ofList? (← (← items? value).mapM boolean?)

/-- One angle, or a list of three. -/
def turn? (value : Json) : Option Turn :=
  ((number? value).map Turn.single).or ((point3? value).map Turn.euler)

/-- A list of points of the plane. -/
def points2? (value : Json) : Option (List (Vec2 Float)) := do (← items? value).mapM point2?

/-- A list of points of space. -/
def points3? (value : Json) : Option (List (Vec3 Float)) := do (← items? value).mapM point3?

/-- A list of lists of point numbers. -/
def indices? (value : Json) : Option (List (List UInt64)) := do
  (← items? value).mapM fun list => do (← items? list).mapM fun i => (integer? i).map UInt32.toUInt64

/-- A row of a matrix. -/
def row? (value : Json) : Option (Fin 4 → Float) := do Matrix4.cells? (← numbers? value)

/-- A matrix as a list of rows; the last row may be left out. -/
def matrix? (value : Json) : Option (Matrix4 Float) := do Matrix4.ofRows? (← (← items? value).mapM row?)

/-- A value of a type other than the node lists. -/
def value? : (t : ParamType) → Json → Option t.Carrier
  | .number => number?
  | .integer => integer?
  | .boolean => boolean?
  | .text => text?
  | .vector2 => vector2?
  | .vector3 => vector3?
  | .flags3 => flags3?
  | .angle => turn?
  | .points2 => points2?
  | .points3 => points3?
  | .indices => indices?
  | .matrix => matrix?
  | .nodes => fun _ => none

end SolidScript.Coerce
