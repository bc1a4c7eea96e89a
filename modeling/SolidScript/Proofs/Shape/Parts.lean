import SolidScript.Shape.Expand

/-!
# The parts of a tree

The shapes at the leaves of a tree and the operations above them, each in the order in which a reader meets them. An
expansion has no loop, `loop_notMem_expand`.
-/

namespace SolidScript

namespace Tree

variable {α ι : Type}

mutual

/-- The shapes at the leaves. -/
def leaves : Tree α ι → List ι
  | .leaf shape => [shape]
  | .apply _ children => leavesList children

/-- The shapes at the leaves of trees. -/
def leavesList : List (Tree α ι) → List ι
  | [] => []
  | tree :: rest => leaves tree ++ leavesList rest

end

mutual

/-- The operations of a tree. -/
def operations : Tree α ι → List (Operation α)
  | .leaf _ => []
  | .apply op children => op :: operationsList children

/-- The operations of trees. -/
def operationsList : List (Tree α ι) → List (Operation α)
  | [] => []
  | tree :: rest => operations tree ++ operationsList rest

end

theorem leavesList_eq_flatMap (trees : List (Tree α ι)) : leavesList trees = trees.flatMap leaves := by
  induction trees with
  | nil => rfl
  | cons tree rest ih => rw [leavesList, List.flatMap_cons, ih]

theorem operationsList_eq_flatMap (trees : List (Tree α ι)) : operationsList trees = trees.flatMap operations := by
  induction trees with
  | nil => rfl
  | cons tree rest ih => rw [operationsList, List.flatMap_cons, ih]

end Tree

/-- There is no loop in an expansion. -/
theorem Derived.loop_notMem_expand {α : Type} [Angular α] (d : Derived α) (expression : String) :
    .loop expression ∉ d.expand.operations := by
  rcases d with ⟨_ | _, _⟩ | ⟨_ | _ | _ | _ | _, _, _⟩ <;>
    simp [Derived.expand, Curve.expand, RoundedBase.expand, RoundedBase.shrink, Tree.operations, Tree.operationsList]

end SolidScript
