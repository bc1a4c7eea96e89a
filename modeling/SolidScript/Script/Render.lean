import SolidScript.Script.Number
import SolidScript.Script.Statement
import SolidScript.Shape.Expand
import SolidScript.Text.Basic

/-!
# Rendering of shape trees

The script of a tree: a primitive is a call, an operation a block over the scripts of its subtrees. A derived shape has
no form of its own in a script; it is rendered as its expansion, wherever it stands, and that again in whatever form it
has. So every node has a form, `Node.isSome_form?`.
-/

namespace SolidScript

open Script Text.Quoted

/-- The argument that centres a shape; the default is left out. -/
def Script.centerArgument (center : Bool) : String := if center then ", center=true" else ""

/-- The text of a 32-bit count. -/
def Script.count (n : UInt32) : String := Decimal.Digits.write n.toNat

/-- Two radii within this distance are written as one. -/
def Script.radiusTolerance : Float := 1e-9

/-- The arguments for the two radii of a cylinder. -/
def Script.radii (r1 r2 : Float) : String :=
  if Scalar.near r1 r2 radiusTolerance then "r=" ++ number r1 else "r1=" ++ number r1 ++ ", r2=" ++ number r2

/-- The argument for the paths of a polygon. -/
def Script.pathsArgument : Option (List (List UInt64)) → String
  | some paths => ", paths=" ++ indices paths
  | none => ""

/-- The call that draws a label. -/
def Label.call (l : Label Float) : String :=
  "text(text=" ++ quote l.text ++ ", size=" ++ number l.size ++ ", font=" ++ quote l.font ++ ", halign="
    ++ quote l.halign ++ ", valign=" ++ quote l.valign ++ ", spacing=" ++ number l.spacing ++ ", direction="
    ++ quote l.direction ++ ", language=" ++ quote l.language ++ ", script=" ++ quote l.script ++ ", $fn="
    ++ count l.resolution ++ ")"

/-- The call that draws a primitive. -/
def Primitive.call : Primitive Float → String
  | .cube size center => "cube(" ++ vec3 size ++ centerArgument center ++ ")"
  | .cylinder h r1 r2 center resolution =>
    "cylinder(" ++ radii r1 r2 ++ ", h=" ++ number h ++ centerArgument center ++ ", $fn=" ++ count resolution ++ ")"
  | .sphere r resolution => "sphere(r=" ++ number r ++ ", $fn=" ++ count resolution ++ ")"
  | .polyhedron points faces convexity =>
    "polyhedron(points=" ++ bracketed (points.map vec3) ++ ", faces=" ++ indices faces ++ ", convexity="
      ++ count convexity ++ ")"
  | .surface file center invert convexity =>
    "surface(file=" ++ quote file ++ ", center=" ++ flag center ++ ", invert=" ++ flag invert ++ ", convexity="
      ++ count convexity ++ ")"
  | .square size center => "square(" ++ vec2 size ++ centerArgument center ++ ")"
  | .circle r resolution => "circle(r=" ++ number r ++ ", $fn=" ++ count resolution ++ ")"
  | .polygon points paths convexity =>
    "polygon(points=" ++ bracketed (points.map vec2) ++ pathsArgument paths ++ ", convexity=" ++ count convexity ++ ")"
  | .text label => label.call
  | .imported file convexity center =>
    "import(file=" ++ quote file ++ ", convexity=" ++ count convexity ++ centerArgument center ++ ")"

/-- The header of the block that an operation governs. -/
def Operation.header : Operation Float → String
  | .translate v => "translate(" ++ vec3 v ++ ")"
  | .resize size auto => "resize(" ++ vec3 size ++ ", auto=" ++ bracketed (auto.toList.map flag) ++ ")"
  | .transform m => "multmatrix(" ++ matrix m ++ ")"
  | .rotate (.euler angles) => "rotate(" ++ vec3 angles ++ ")"
  | .rotate (.about angle axis) => "rotate(a=" ++ number angle ++ ", v=" ++ vec3 axis ++ ")"
  | .scale v => "scale(" ++ vec3 v ++ ")"
  | .mirror v => "mirror(" ++ vec3 v ++ ")"
  | .union => "union()"
  | .difference => "difference()"
  | .intersection => "intersection()"
  | .minkowski => "minkowski()"
  | .hull => "hull()"
  | .loop expression => "for (" ++ Text.trim expression ++ ")"

/-- What is written in the place of a node. -/
inductive Form where
  | call (text : String)
  | block (header : String) (children : List (Node Float))
  /-- Another node, which the node stands for. -/
  | derived (expansion : Node Float)

namespace Node

/-- The form that a node has itself. A derived shape has none. -/
def ownForm? : Node Float → Option Form
  | .leaf (.primitive p) => some (.call p.call)
  | .leaf (.derived _) => none
  | .apply op children => some (.block op.header children)

/-- The form of a node: its expansion if it has one, and else its own form. -/
def form? (node : Node Float) : Option Form :=
  match expansion? node with
  | some expansion => some (.derived expansion)
  | none => ownForm? node

/-- Every node has a form: what has none of its own has an expansion. -/
theorem isSome_form? : ∀ node : Node Float, (form? node).isSome
  | .leaf (.primitive _) => rfl
  | .leaf (.derived _) => rfl
  | .apply _ _ => rfl

/-- The form of a node. -/
def form (node : Node Float) : Form := (form? node).get (isSome_form? node)

/-- An expansion may be larger than the node it stands for, but holds fewer derived shapes. -/
theorem derivedCount_of_form {expansion : Node Float} : ∀ {node : Node Float},
    form node = .derived expansion → derivedCount expansion < derivedCount node
  | .leaf (.derived d), h => by
    cases h
    rw [Derived.derivedCount_expand]
    exact Nat.zero_lt_one

theorem eq_of_form {header : String} {children : List (Node Float)} : ∀ {node : Node Float},
    form node = .block header children → ∃ op, node = .apply op children
  | .apply op _, h => by
    cases h
    exact ⟨op, rfl⟩

mutual

/-- The statement of a node. -/
def statement (node : Node Float) : Statement :=
  match _ : form node with
  | .call text => .call text
  | .block header children => .block header (statements children)
  | .derived expansion => statement expansion
termination_by (derivedCount node, sizeOf node)
decreasing_by
  · obtain ⟨op, rfl⟩ := eq_of_form ‹_›
    exact Prod.Lex.right _ (by simp only [Tree.apply.sizeOf_spec]; omega)
  · exact Prod.Lex.left _ _ (derivedCount_of_form ‹_›)

/-- The statements of a list of nodes. -/
def statements : List (Node Float) → List Statement
  | [] => []
  | node :: rest => statement node :: statements rest
termination_by nodes => (derivedCountList nodes, sizeOf nodes)
decreasing_by
  · exact Prod.Lex.right' _ (Nat.le_add_right _ _) (by simp only [List.cons.sizeOf_spec]; omega)
  · exact Prod.Lex.right' _ (Nat.le_add_left _ _) (by simp only [List.cons.sizeOf_spec]; omega)

end

@[simp] theorem statement_drawn (p : Primitive Float) : statement (.leaf (.primitive p)) = .call p.call := by
  rw [statement]
  rfl

@[simp] theorem statement_derived (d : Derived Float) : statement (.leaf (.derived d)) = statement d.expand := by
  rw [statement]
  rfl

@[simp] theorem statement_apply (op : Operation Float) (children : List (Node Float)) :
    statement (.apply op children) = .block op.header (statements children) := by
  rw [statement]
  rfl

/-- The script of a node. -/
def render (style : Style) (node : Node Float) : String := (statement node).layout style

end Node
end SolidScript
