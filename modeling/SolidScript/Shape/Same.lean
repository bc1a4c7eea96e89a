import SolidScript.Shape.Tree

/-!
# Numeric equality of trees

Two trees are the same if they have the same form and equal measures, where the two zeros are equal and what is no
number equals nothing. Such trees are of the same kind (`Node.kind_of_same`) and as large (`Node.count_of_same`).
-/

namespace SolidScript

deriving instance BEq for Vec2, Vec3, Label, Primitive, Rounding, RoundedBase, Curve, Derived, Shape, Rotation

instance {α : Type} [BEq α] : BEq (Matrix4 α) := ⟨fun m n => m.rows == n.rows⟩

deriving instance BEq for Operation

namespace Node

mutual

/-- Whether two trees are the same. -/
def same : Node Float → Node Float → Bool
  | .leaf shape, .leaf shape' => shape == shape'
  | .apply op children, .apply op' children' => op == op' && sameList children children'
  | _, _ => false

/-- Whether two lists of trees are the same. -/
def sameList : List (Node Float) → List (Node Float) → Bool
  | [], [] => true
  | tree :: rest, tree' :: rest' => same tree tree' && sameList rest rest'
  | _, _ => false

end

end Node

/-! ## The form of trees that are the same -/

theorem Primitive.kind_of_beq {p p' : Primitive Float} (h : (p == p') = true) : p.kind = p'.kind := by
  cases p <;> cases p' <;> first | rfl | cases h

theorem Derived.kind_of_beq {d d' : Derived Float} (h : (d == d') = true) : d.kind = d'.kind := by
  rcases d with ⟨_ | _, _⟩ | ⟨_ | _ | _ | _ | _, _, _⟩ <;> rcases d' with ⟨_ | _, _⟩ | ⟨_ | _ | _ | _ | _, _, _⟩ <;>
    first | rfl | cases h

theorem Operation.kind_of_beq {op op' : Operation Float} (h : (op == op') = true) : op.kind = op'.kind := by
  cases op <;> cases op' <;> first | rfl | cases h

namespace Node

/-- Trees that are the same are of the same kind. -/
theorem kind_of_same : ∀ {node node' : Node Float}, same node node' = true → node.kind = node'.kind
  | .leaf (.primitive _), .leaf (.primitive _), h => Primitive.kind_of_beq h
  | .leaf (.derived _), .leaf (.derived _), h => Derived.kind_of_beq h
  | .apply _ _, .apply _ _, h => by
    rw [same, Bool.and_eq_true] at h
    exact Operation.kind_of_beq h.1

mutual

/-- Trees that are the same have as many leaves and operations. -/
theorem count_of_same : ∀ {node node' : Node Float}, same node node' = true → node.count = node'.count
  | .leaf _, .leaf _, _ => rfl
  | .apply _ _, .apply _ _, h => by
    rw [same, Bool.and_eq_true] at h
    rw [Tree.count, Tree.count, countList_of_sameList h.2]

theorem countList_of_sameList : ∀ {nodes nodes' : List (Node Float)}, sameList nodes nodes' = true →
    Tree.countList nodes = Tree.countList nodes'
  | [], [], _ => rfl
  | _ :: _, _ :: _, h => by
    rw [sameList, Bool.and_eq_true] at h
    rw [Tree.countList, Tree.countList, count_of_same h.1, countList_of_sameList h.2]

end

end Node
end SolidScript
