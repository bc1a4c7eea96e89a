import SolidScript.Geometry.Vector
import SolidScript.Shape.Kind

/-!
# Shape trees

A tree of operations over shapes. `Tree α ι` has measures in `α` and shapes of type `ι` at its leaves; an operation is
applied to any number of subtrees in order. The scripting language has a call for each `Primitive`; curves and rounded
solids are `Derived` and stand for a tree of primitives. A `Node` is a tree over both. `Tree.graft` puts a tree in the
place of each leaf.
-/

namespace SolidScript

/-- A label drawn as text. -/
structure Label (α : Type) where
  text : String
  size : α
  font : String
  halign : String
  valign : String
  spacing : α
  direction : String
  language : String
  script : String
  resolution : UInt32

/-- A shape that the scripting language draws by one call. -/
inductive Primitive (α : Type) where
  | cube (size : Vec3 α) (center : Bool)
  | cylinder (h r1 r2 : α) (center : Bool) (resolution : UInt32)
  | sphere (r : α) (resolution : UInt32)
  | polyhedron (points : List (Vec3 α)) (faces : List (List UInt64)) (convexity : UInt32)
  | surface (file : String) (center invert : Bool) (convexity : UInt32)
  | square (size : Vec2 α) (center : Bool)
  | circle (r : α) (resolution : UInt32)
  | polygon (points : List (Vec2 α)) (paths : Option (List (List UInt64))) (convexity : UInt32)
  | text (label : Label α)
  | imported (file : String) (convexity : UInt32) (center : Bool)

/-- The fillet of a rounded solid: the radius and the height of the tool that rounds it. -/
structure Rounding (α : Type) where
  radius : α
  toolHeight : α
deriving DecidableEq, Repr

/-- A solid that is rounded, in its requested dimensions. -/
inductive RoundedBase (α : Type) where
  | cube (size : Vec3 α) (center : Bool)
  | cylinder (h r1 r2 : α) (center : Bool)
  | sphere (r : α)
  | polyhedron (points : List (Vec3 α)) (faces : List (List UInt64)) (convexity : UInt32)
  | surface (file : String) (size : Vec3 α) (center invert : Bool) (convexity : UInt32)

/-- A plane curve with a width. -/
inductive Curve (α : Type) where
  | line (start stop : Vec2 α) (width : α)
  | arc (r startAngle endAngle width : α)

/-- A shape that stands for a tree of primitives. -/
inductive Derived (α : Type) where
  | curve (c : Curve α) (resolution : UInt32)
  | rounded (base : RoundedBase α) (rounding : Rounding α) (resolution : UInt32)

/-- A shape: drawn as it is, or expanded first. -/
inductive Shape (α : Type) where
  | primitive (p : Primitive α)
  | derived (d : Derived α)

/-- A rotation by three angles in turn, or by one angle about an axis. -/
inductive Rotation (α : Type) where
  | euler (angles : Vec3 α)
  | about (angle : α) (axis : Vec3 α)

/-- What is done with a list of subtrees. -/
inductive Operation (α : Type) where
  | translate (v : Vec3 α)
  | resize (size : Vec3 α) (auto : Vec3 Bool)
  | transform (matrix : Matrix4 α)
  | rotate (rotation : Rotation α)
  | scale (v : Vec3 α)
  | mirror (v : Vec3 α)
  | union
  | difference
  | intersection
  | minkowski
  | hull
  | loop (expression : String)

/-- A tree of operations over leaves. -/
inductive Tree (α ι : Type) where
  | leaf (shape : ι)
  | apply (op : Operation α) (children : List (Tree α ι))

/-- The tree of a design. -/
abbrev Node (α : Type) := Tree α (Shape α)

namespace Tree

variable {α ι κ : Type}

/-- The direct subtrees, in order. -/
def children : Tree α ι → List (Tree α ι)
  | .leaf _ => []
  | .apply _ children => children

mutual

/-- The number of leaves and operations. -/
def count : Tree α ι → Nat
  | .leaf _ => 1
  | .apply _ children => 1 + countList children

/-- The number of leaves and operations in a list of trees. -/
def countList : List (Tree α ι) → Nat
  | [] => 0
  | tree :: rest => count tree + countList rest

end

mutual

/-- The tree with a tree in the place of each leaf. -/
def graft (f : ι → Tree α κ) : Tree α ι → Tree α κ
  | .leaf shape => f shape
  | .apply op children => .apply op (graftList f children)

/-- Every tree of a list with a tree in the place of each leaf. -/
def graftList (f : ι → Tree α κ) : List (Tree α ι) → List (Tree α κ)
  | [] => []
  | tree :: rest => graft f tree :: graftList f rest

end

end Tree

namespace Node

variable {α : Type}

/-- The node that a single call draws. -/
abbrev drawn (p : Primitive α) : Node α := .leaf (.primitive p)

mutual

/-- The number of derived shapes at any depth. -/
def derivedCount : Node α → Nat
  | .leaf (.primitive _) => 0
  | .leaf (.derived _) => 1
  | .apply _ children => derivedCountList children

/-- The number of derived shapes in a list of nodes. -/
def derivedCountList : List (Node α) → Nat
  | [] => 0
  | node :: rest => derivedCount node + derivedCountList rest

end

end Node

/-- The kind of a primitive. -/
def Primitive.kind {α : Type} : Primitive α → Kind
  | .cube .. => .cube
  | .cylinder .. => .cylinder
  | .sphere .. => .sphere
  | .polyhedron .. => .polyhedron
  | .surface .. => .surface
  | .square .. => .square
  | .circle .. => .circle
  | .polygon .. => .polygon
  | .text .. => .text
  | .imported .. => .imported

/-- The kind of a derived shape. -/
def Derived.kind {α : Type} : Derived α → Kind
  | .curve (.line ..) _ => .line
  | .curve (.arc ..) _ => .arc
  | .rounded (.cube ..) _ _ => .roundedCube
  | .rounded (.cylinder ..) _ _ => .roundedCylinder
  | .rounded (.sphere ..) _ _ => .roundedSphere
  | .rounded (.polyhedron ..) _ _ => .roundedPolyhedron
  | .rounded (.surface ..) _ _ => .roundedSurface

/-- The kind of an operation. -/
def Operation.kind {α : Type} : Operation α → Kind
  | .translate .. => .translate
  | .resize .. => .resize
  | .transform .. => .composeMatrix
  | .rotate .. => .rotate
  | .scale .. => .scale
  | .mirror .. => .mirror
  | .union => .union
  | .difference => .difference
  | .intersection => .intersection
  | .minkowski => .minkowski
  | .hull => .hull
  | .loop .. => .forLoop

/-- The kind of a node. -/
def Node.kind {α : Type} : Node α → Kind
  | .leaf (.primitive p) => p.kind
  | .leaf (.derived d) => d.kind
  | .apply op _ => op.kind

end SolidScript
