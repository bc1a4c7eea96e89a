import SolidScript.Script.Render

/-!
# Lowering a tree

`Node.lower` expands every derived shape of a tree, in one pass.

* `derivedCount_lower`: no derived shape is left, since an expansion holds none (`derivedCount_of_expansion`).
* `lower_of_derivedCount`: a tree without derived shapes stays as it is, so lowering twice is lowering once.
* `statement_lower`: the statement of the lowered tree is the one of the tree, and with it the script in either layout.
-/

namespace SolidScript.Node

open Script

/-! ## Expansions -/

/-- The kinds of derived shapes. -/
def derivedKinds : List Kind :=
  [.line, .arc, .roundedCube, .roundedCylinder, .roundedSphere, .roundedPolyhedron, .roundedSurface]

section Expansion

variable {α : Type}

theorem primitive_kind_notMem (p : Primitive α) : p.kind ∉ derivedKinds := by
  cases p <;> simp [Primitive.kind, derivedKinds]

theorem derived_kind_mem (d : Derived α) : d.kind ∈ derivedKinds := by
  rcases d with ⟨_ | _, _⟩ | ⟨_ | _ | _ | _ | _, _, _⟩ <;> simp [Derived.kind, derivedKinds]

theorem operation_kind_notMem (op : Operation α) : op.kind ∉ derivedKinds := by
  cases op <;> simp [Operation.kind, derivedKinds]

variable [Angular α]

/-- Exactly the nodes of these kinds have an expansion. -/
theorem isSome_expansion? : ∀ node : Node α, (expansion? node).isSome ↔ kind node ∈ derivedKinds
  | .leaf (.primitive p) => iff_of_false Bool.false_ne_true (primitive_kind_notMem p)
  | .leaf (.derived d) => iff_of_true rfl (derived_kind_mem d)
  | .apply op _ => iff_of_false Bool.false_ne_true (operation_kind_notMem op)

/-- An expansion holds no derived shape at any depth. -/
theorem derivedCount_of_expansion {expansion : Node α} : ∀ {node : Node α},
    expansion? node = some expansion → derivedCount expansion = 0
  | .leaf (.derived d), h => by
    cases h
    exact d.derivedCount_expand

end Expansion

/-! ## Lowered trees -/

section Lower

variable {α : Type} [Angular α]

@[simp] theorem lower_drawn (p : Primitive α) : lower (drawn p) = drawn p := rfl

@[simp] theorem lower_derived (d : Derived α) : lower (.leaf (.derived d)) = d.expand := rfl

@[simp] theorem lower_apply (op : Operation α) (children : List (Node α)) :
    lower (.apply op children) = .apply op (lowerList children) := rfl

@[simp] theorem lowerList_nil : lowerList ([] : List (Node α)) = [] := rfl

@[simp] theorem lowerList_cons (node : Node α) (rest : List (Node α)) :
    lowerList (node :: rest) = lower node :: lowerList rest := rfl

mutual

/-- **No derived shape is left** at any depth. -/
theorem derivedCount_lower : ∀ node : Node α, derivedCount (lower node) = 0
  | .leaf (.primitive _) => rfl
  | .leaf (.derived d) => d.derivedCount_expand
  | .apply _ children => derivedCount_lowerList children

theorem derivedCount_lowerList : ∀ nodes : List (Node α), derivedCountList (lowerList nodes) = 0
  | [] => rfl
  | node :: rest => by
    rw [lowerList_cons, derivedCountList, derivedCount_lower node, derivedCount_lowerList rest]

end

mutual

/-- What holds no derived shape stays as it is. -/
theorem lower_of_derivedCount : ∀ {node : Node α}, derivedCount node = 0 → lower node = node
  | .leaf (.primitive _), _ => rfl
  | .apply op children, h => by
    have hchildren : derivedCountList children = 0 := h
    rw [lower_apply, lowerList_of_derivedCount hchildren]

theorem lowerList_of_derivedCount : ∀ {nodes : List (Node α)}, derivedCountList nodes = 0 → lowerList nodes = nodes
  | [], _ => rfl
  | node :: rest, h => by
    obtain ⟨hnode, hrest⟩ := Nat.add_eq_zero_iff.1 h
    rw [lowerList_cons, lower_of_derivedCount hnode, lowerList_of_derivedCount hrest]

end

/-- Lowering twice is lowering once. -/
theorem lower_lower (node : Node α) : lower (lower node) = lower node :=
  lower_of_derivedCount (derivedCount_lower node)

end Lower

/-! ## Lowered scripts -/

mutual

/-- **The statement of the lowered tree is the statement of the tree.** -/
theorem statement_lower : ∀ node : Node Float, statement (lower node) = statement node
  | .leaf (.primitive _) => rfl
  | .leaf (.derived d) => by rw [lower_derived, statement_derived]
  | .apply op children => by rw [lower_apply, statement_apply, statement_apply, statements_lower children]

theorem statements_lower : ∀ nodes : List (Node Float), statements (lowerList nodes) = statements nodes
  | [] => rfl
  | node :: rest => by rw [lowerList_cons, statements, statements, statement_lower node, statements_lower rest]

end

/-- **Lowering commutes with rendering.** Exactly the derived kinds have an expansion, one step of expansion leaves no
derived shape, and neither layout tells a tree from the lowered one. Every node has a form, so the arm of a derived
shape that has neither an expansion nor a form of its own is never met. -/
theorem render_lower (node : Node Float) (style : Style) :
    ((expansion? node).isSome ↔ kind node ∈ derivedKinds) ∧
      (∀ expansion, expansion? node = some expansion → derivedCount expansion = 0) ∧
      derivedCount (lower node) = 0 ∧ lower (lower node) = lower node ∧
      render style (lower node) = render style node ∧ (form? node).isSome := by
  refine ⟨isSome_expansion? node, fun _ => derivedCount_of_expansion, derivedCount_lower node, lower_lower node, ?_,
    isSome_form? node⟩
  rw [render, render, statement_lower]

end SolidScript.Node
