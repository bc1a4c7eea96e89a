import SolidScript.Proofs.Shape.Parts

/-!
# The measures of a tree

Every number that a node holds, but for counts: lengths, angles, factors and cells. `Node.Finite` says that all of
them are finite; it holds of an operation over children if it holds of the operation and of every child.
-/

namespace SolidScript

section Measures

variable {α : Type}

/-- The measures of a primitive. -/
def Primitive.measures : Primitive α → List α
  | .cube size _ => size.toList
  | .cylinder h r1 r2 _ _ => [h, r1, r2]
  | .sphere r _ => [r]
  | .polyhedron points _ _ => points.flatMap Vec3.toList
  | .surface .. => []
  | .square size _ => size.toList
  | .circle r _ => [r]
  | .polygon points _ _ => points.flatMap Vec2.toList
  | .text label => [label.size, label.spacing]
  | .imported .. => []

/-- The measures of a rounding. -/
def Rounding.measures (rounding : Rounding α) : List α := [rounding.radius, rounding.toolHeight]

/-- The measures of a solid that is rounded. -/
def RoundedBase.measures : RoundedBase α → List α
  | .cube size _ => size.toList
  | .cylinder h r1 r2 _ => [h, r1, r2]
  | .sphere r => [r]
  | .polyhedron points _ _ => points.flatMap Vec3.toList
  | .surface _ size _ _ _ => size.toList

/-- The measures of a curve. -/
def Curve.measures : Curve α → List α
  | .line start stop width => start.toList ++ stop.toList ++ [width]
  | .arc r startAngle endAngle width => [r, startAngle, endAngle, width]

/-- The measures of a shape. -/
def Shape.measures : Shape α → List α
  | .primitive p => p.measures
  | .derived (.curve c _) => c.measures
  | .derived (.rounded base rounding _) => base.measures ++ rounding.measures

/-- The measures of a rotation. -/
def Rotation.measures : Rotation α → List α
  | .euler angles => angles.toList
  | .about angle axis => angle :: axis.toList

/-- The measures of an operation. -/
def Operation.measures : Operation α → List α
  | .translate v => v.toList
  | .resize size _ => size.toList
  | .transform matrix => matrix.columnMajor
  | .rotate rotation => rotation.measures
  | .scale v => v.toList
  | .mirror v => v.toList
  | .union | .difference | .intersection | .minkowski | .hull | .loop _ => []

/-- The measures of a node, at any depth. -/
def Node.measures (node : Node α) : List α :=
  node.operations.flatMap Operation.measures ++ node.leaves.flatMap Shape.measures

end Measures

/-- Whether all of some measures are finite. -/
def AllFinite (xs : List Float) : Prop := ∀ x ∈ xs, x.isFinite = true

instance (xs : List Float) : Decidable (AllFinite xs) := inferInstanceAs (Decidable (∀ x ∈ xs, x.isFinite = true))

/-- Whether every measure of a node is finite. -/
def Node.Finite (node : Node Float) : Prop := AllFinite node.measures

instance (node : Node Float) : Decidable node.Finite := inferInstanceAs (Decidable (AllFinite node.measures))

theorem allFinite_nil : AllFinite [] := nofun

theorem allFinite_cons {x : Float} {xs : List Float} : AllFinite (x :: xs) ↔ x.isFinite = true ∧ AllFinite xs :=
  List.forall_mem_cons

theorem allFinite_append {xs ys : List Float} : AllFinite (xs ++ ys) ↔ AllFinite xs ∧ AllFinite ys :=
  List.forall_mem_append

theorem allFinite_flatMap {ι : Type} {items : List ι} {f : ι → List Float} :
    AllFinite (items.flatMap f) ↔ ∀ item ∈ items, AllFinite (f item) := by
  unfold AllFinite
  simp only [List.mem_flatMap]
  grind

theorem allFinite_flatMap_reverse {ι : Type} {items : List ι} {f : ι → List Float} :
    AllFinite (items.reverse.flatMap f) ↔ AllFinite (items.flatMap f) := by
  simp only [allFinite_flatMap, List.mem_reverse]

namespace Node

theorem finite_leaf {shape : Shape Float} : Finite (.leaf shape) ↔ AllFinite shape.measures := by
  simp [Finite, measures, Tree.operations, Tree.leaves]

theorem finite_apply {op : Operation Float} {children : List (Node Float)} :
    Finite (.apply op children) ↔ AllFinite op.measures ∧ ∀ child ∈ children, Finite child := by
  simp only [Finite, measures, Tree.operations, Tree.leaves, Tree.operationsList_eq_flatMap,
    Tree.leavesList_eq_flatMap, List.flatMap_cons, allFinite_append, allFinite_flatMap, List.mem_flatMap]
  grind

end Node
end SolidScript
