import SolidScript.Geometry.Box
import SolidScript.Scalar.Double
import SolidScript.Shape.Tree

/-!
# Expansion of derived shapes

The node that a derived shape stands for. A line is the hull of two round caps, an arc is a polygon along its outer and
inner rim. The scripting language has no fillet, so a rounded solid is the Minkowski sum of a smaller base and a flat
cylinder, the tool: along X and Y the base loses twice the radius, as far as that leaves anything, and the tool gives it
back. An expansion holds no derived shape of its own, `Derived.derivedCount_expand`. `Node.lower` expands every derived
shape of a tree.
-/

namespace SolidScript

variable {α : Type}

section Rounded

variable [Scalar α]

namespace Rounding

/-- The rounding with negative measures raised to zero. -/
def clamped (rounding : Rounding α) : Rounding α :=
  ⟨Scalar.nonNegative rounding.radius, Scalar.nonNegative rounding.toolHeight⟩

/-- The flat cylinder that rounds a solid. -/
def tool (rounding : Rounding α) (resolution : UInt32) : Primitive α :=
  let rounding := rounding.clamped
  .cylinder rounding.toolHeight rounding.radius rounding.radius true resolution

end Rounding

/-- The length less twice the radius, or zero. -/
def shrinkLength (radius length : α) : α := Scalar.nonNegative (length - 2 * radius)

/-- The factor that takes a length to the shrunk one; one for what has no length. -/
def shrinkFactor (radius length : α) : α :=
  if 0 < length then shrinkLength radius length / length else 1

/-- A size shrunk along X and Y. -/
def shrinkSize (radius : α) (size : Vec3 α) : Vec3 α :=
  ⟨shrinkLength radius size.x, shrinkLength radius size.y, size.z⟩

/-- Points scaled about the middle of their bounding box so that its extents along X and Y shrink. -/
def shrinkPoints (radius : α) (points : List (Vec3 α)) : List (Vec3 α) :=
  match Box.ofPoints? points with
  | none => []
  | some box =>
    let center := box.center
    let extent := box.size
    points.map fun p =>
      ⟨center.x + (p.x - center.x) * shrinkFactor radius extent.x,
       center.y + (p.y - center.y) * shrinkFactor radius extent.y, p.z⟩

/-- The base of a rounded solid, smaller by a radius that is not negative. -/
def RoundedBase.shrink (radius : α) (resolution : UInt32) : RoundedBase α → Node α
  | .cube size center => .drawn (.cube (shrinkSize radius size) center)
  | .cylinder h r1 r2 center =>
    .drawn (.cylinder h (Scalar.nonNegative (r1 - radius)) (Scalar.nonNegative (r2 - radius)) center resolution)
  | .sphere r =>
    let factor := shrinkFactor radius (2 * r)
    .apply (.scale ⟨factor, factor, 1⟩) [Node.drawn (.sphere r resolution)]
  | .polyhedron points faces convexity => .drawn (.polyhedron (shrinkPoints radius points) faces convexity)
  | .surface file size center invert convexity =>
    .apply (.resize (shrinkSize radius size) (Vec3.all false)) [Node.drawn (.surface file center invert convexity)]

/-- A rounded solid: the shrunk base, swept by the tool. -/
def RoundedBase.expand (base : RoundedBase α) (rounding : Rounding α) (resolution : UInt32) : Node α :=
  .apply .minkowski [base.shrink rounding.clamped.radius resolution, Node.drawn (rounding.clamped.tool resolution)]

end Rounded

namespace Arc

/-- The greatest number of segments of an arc. -/
def maxSegments : Nat := 4096

section Division

variable [Scalar α]

/-- The number of segments of an arc: the share of the resolution that the sweep takes of the full circle, at least one
and at most `maxSegments`. -/
def segments (sweep : α) (resolution : UInt32) : Nat :=
  let share := Scalar.ceil (Scalar.ofNat (max resolution.toNat 1) * Scalar.abs sweep / 360)
  Scalar.toNat (Scalar.least (Scalar.greatest share 1) (Scalar.ofNat maxSegments))

/-- The angle at the end of segment `i` of `n`, in degrees. -/
def angleAt (start sweep : α) (n i : Nat) : α := start + sweep * Scalar.ofNat i / Scalar.ofNat n

end Division

/-- The point of a circle about the origin at an angle in degrees. -/
def pointAt [Angular α] (radius degrees : α) : Vec2 α :=
  ⟨radius * Angular.cos (radians degrees), radius * Angular.sin (radians degrees)⟩

/-- The outline of an arc: along the outer rim, and back along the inner one or through the origin. -/
def outline [Angular α] (r startAngle endAngle width : α) (resolution : UInt32) : List (Vec2 α) :=
  let outer := r + width / 2
  let inner := Scalar.nonNegative (r - width / 2)
  let sweep := endAngle - startAngle
  let n := segments sweep resolution
  let rim := fun radius => (List.range (n + 1)).map fun i => pointAt radius (angleAt startAngle sweep n i)
  rim outer ++ (if 0 < inner then (rim inner).reverse else [⟨0, 0⟩])

end Arc

/-- The convexity of the outlines that curves expand to. -/
def defaultConvexity : UInt32 := 10

/-- The node of a curve. -/
def Curve.expand [Angular α] (resolution : UInt32) : Curve α → Node α
  | .line start stop width =>
    let cap := fun (p : Vec2 α) =>
      Tree.apply (.translate ⟨p.x, p.y, 0⟩) [Node.drawn (.circle (width / 2) resolution)]
    .apply .hull [cap start, cap stop]
  | .arc r startAngle endAngle width =>
    .drawn (.polygon (Arc.outline r startAngle endAngle width resolution) none defaultConvexity)

/-- The node of a derived shape. -/
def Derived.expand [Angular α] : Derived α → Node α
  | .curve c resolution => c.expand resolution
  | .rounded base rounding resolution => base.expand rounding resolution

/-- One step of expansion is enough: it leaves no derived shape. -/
theorem Derived.derivedCount_expand [Angular α] (d : Derived α) : Node.derivedCount d.expand = 0 := by
  rcases d with ⟨_ | _, _⟩ | ⟨_ | _ | _ | _ | _, _, _⟩ <;> rfl

namespace Node

/-- The expansion of a node that is a derived shape. -/
def expansion? [Angular α] : Node α → Option (Node α)
  | .leaf (.derived d) => some d.expand
  | _ => none

/-- The node in the place of a shape: its expansion, or else the shape itself. -/
def lowered [Angular α] (shape : Shape α) : Node α := (expansion? (.leaf shape)).getD (.leaf shape)

/-- The tree with every derived shape expanded. -/
def lower [Angular α] : Node α → Node α := Tree.graft lowered

/-- Every tree of a list with every derived shape expanded. -/
def lowerList [Angular α] : List (Node α) → List (Node α) := Tree.graftList lowered

end Node
end SolidScript
