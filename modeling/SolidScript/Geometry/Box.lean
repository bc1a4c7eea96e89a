import SolidScript.Geometry.Vector

/-!
# Bounding boxes

The least box with sides along the axes around a list of points. A coordinate that is no number leaves the box as it
is; a side that no number bounds is infinite and inverted, as all sides of the empty box are.
-/

namespace SolidScript

/-- A box with sides along the axes. -/
structure Box (α : Type) where
  min : Vec3 α
  max : Vec3 α
deriving DecidableEq, Repr

namespace Box

/-- The box without points. -/
def empty : Box Float := ⟨Vec3.all (1.0 / 0.0), Vec3.all (-1.0 / 0.0)⟩

variable {α : Type} [Scalar α]

/-- The box grown to hold a point. -/
def grow (box : Box α) (p : Vec3 α) : Box α :=
  ⟨Vec3.zipWith Scalar.least box.min p, Vec3.zipWith Scalar.greatest box.max p⟩

/-- The box of one point. -/
def single (p : Vec3 α) : Box α :=
  ⟨p.map fun a => if Scalar.eq a a then a else 1 / 0, p.map fun a => if Scalar.eq a a then a else -(1 / 0)⟩

/-- The box of a list of points that holds at least one. -/
def ofPoints? : List (Vec3 α) → Option (Box α)
  | [] => none
  | p :: rest => some (rest.foldl grow (single p))

/-- The point half way between the corners. -/
def center (box : Box α) : Vec3 α := Vec3.zipWith (fun a b => (a + b) * (1 / 2)) box.min box.max

/-- The extent along each axis. -/
def size (box : Box α) : Vec3 α := Vec3.zipWith (fun a b => b - a) box.min box.max

end Box
end SolidScript
