import SolidScript.Proofs.Shape.Range.Curve
import SolidScript.Proofs.Shape.Range.Rounded

/-!
# Expansions within the range of the doubles

The expansion of a derived shape of finite measures is finite if and only if its critical results are
(`Derived.critical`). No measures up to `2 ^ 1000` are too large for that, but there are finite ones that are
(`expansion?_finite`, `expansion?_sphere_not_finite`).
-/

namespace SolidScript

open Double

/-- The results on which it depends whether an expansion stays within the range. -/
def Derived.critical : Derived Float → List Float
  | .curve c resolution => c.critical resolution
  | .rounded base _ _ => base.critical

/-- An expansion is finite just where its critical results are. -/
theorem Derived.finite_expand_iff {sin cos : Float → Float} (hsin : Circular sin) (hcos : Circular cos)
    {d : Derived Float} (hd : AllFinite (Shape.derived d).measures) :
    letI := angular sin cos
    Node.Finite d.expand ↔ AllFinite d.critical := by
  let _ := angular sin cos
  cases d with
  | curve c resolution => exact Curve.finite_expand_iff hsin hcos hd resolution
  | rounded base rounding resolution =>
    obtain ⟨hbase, hrounding⟩ := allFinite_append.1 hd
    obtain ⟨hradius, -⟩ := allFinite_cons.1 hrounding
    obtain ⟨hρ, hvalue⟩ := isFinite_nonNegative hradius
    have hshrink := RoundedBase.finite_shrink_iff hρ (hvalue ▸ le_max_right _ _) hbase resolution
    have hchildren : (∀ child ∈ [base.shrink rounding.clamped.radius resolution,
        Node.drawn (rounding.clamped.tool resolution)], Node.Finite child) ↔
        Node.Finite (base.shrink rounding.clamped.radius resolution) := by
      rw [List.forall_mem_cons, List.forall_mem_singleton, and_iff_left (finite_tool hrounding resolution)]
    exact Node.finite_apply.trans ((and_iff_right allFinite_nil).trans (hchildren.trans hshrink))

/-- Moderate measures have finite critical results. -/
theorem Derived.finite_critical {d : Derived Float} (hd : ∀ x ∈ (Shape.derived d).measures, Within 1000 x) :
    AllFinite d.critical := by
  cases d with
  | curve c resolution => exact Curve.finite_critical hd resolution
  | rounded base rounding resolution =>
    exact RoundedBase.finite_critical fun x hx => hd x (List.mem_append_left _ hx)

/-- **When an expansion stays within the range.** The expansion of a derived shape of finite measures is finite just
where its critical results are. These are finite if no measure is beyond `2 ^ 1000`. -/
theorem expansion?_finite {sin cos : Float → Float} (hsin : Circular sin) (hcos : Circular cos) {d : Derived Float}
    (hd : AllFinite (Shape.derived d).measures) :
    letI := angular sin cos
    ∃ node, Node.expansion? (.leaf (.derived d)) = some node ∧ (node.Finite ↔ AllFinite d.critical) ∧
      ((∀ x ∈ (Shape.derived d).measures, |value x| ≤ 2 ^ 1000) → node.Finite) := by
  let _ := angular sin cos
  have hiff := Derived.finite_expand_iff hsin hcos hd
  refine ⟨d.expand, rfl, hiff, fun hsmall => hiff.2 (Derived.finite_critical fun x hx => ⟨hd x hx, ?_⟩)⟩
  rw [unit]
  exact_mod_cast hsmall x hx

/-- An arc without a sweep, where sine and cosine are needed at zero only. -/
theorem expansion?_finite_unswept :
    let sin := fun x : Float => if x.isFinite then 0 else nan
    let cos := fun x : Float => if x.isFinite then 1 else nan
    let d := Derived.curve (.arc 5 0 0 2) 32
    letI := angular sin cos
    Circular sin ∧ Circular cos ∧ AllFinite (Shape.derived d).measures ∧
      ∃ node, Node.expansion? (.leaf (.derived d)) = some node ∧ node.Finite := by
  intro sin cos d
  have hsin : Circular sin := .const (by decide +kernel) (by decide +kernel)
  have hcos : Circular cos := .const (by decide +kernel) (by decide +kernel)
  have hd : AllFinite (Shape.derived d).measures := by decide +kernel
  obtain ⟨node, hnode, hiff, -⟩ := expansion?_finite hsin hcos hd
  exact ⟨hsin, hcos, hd, node, hnode, hiff.2 (by decide +kernel)⟩

/-- Twice the radius of a large sphere is beyond the range, and the sphere is scaled by factors that are no numbers. -/
theorem expansion?_sphere_not_finite :
    ¬ ∀ d : Derived Float, AllFinite (Shape.derived d).measures →
      ∃ node, Node.expansion? (.leaf (.derived d)) = some node ∧ node.Finite := by
  intro hall
  obtain ⟨node, hnode, hfinite⟩ := hall (.rounded (.sphere 1e308) ⟨0.5, 0.001⟩ 32) (by decide +kernel)
  cases hnode
  revert hfinite
  decide +kernel

end SolidScript
