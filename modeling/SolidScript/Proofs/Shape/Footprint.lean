import Mathlib.Tactic.Linarith
import Mathlib.Tactic.Ring
import SolidScript.Shape.Expand

/-!
# The footprint of rounded solids

A rounded solid is asked for with measures along X and along Y, its footprint (`RoundedBase.footprint?`). It is expanded
to a base and a tool that sweeps it. Over the rationals:

* The encodings of the base agree: a length less the diameter of the tool (`shrinkLength_eq`), twice a radius less its
  radius (`two_mul_nonNegative`) and a length times a factor (`shrinkFactor_mul`) are the same measure, `leftOver`.
* The base is the solid that was asked for but for its footprint (`Remade`, `RoundedBase.exists_leaves`).
* So base and tool together have the footprint that was asked for, unless the tool alone has more, and a greater radius
  never leaves a greater base (`expansion?_footprint`).
-/

namespace SolidScript

/-! ## Measures of the base -/

/-- What a tool of radius `ρ` leaves of a measure. -/
def leftOver (ρ m : Rat) : Rat := max (m - 2 * ρ) 0

/-- A base measures `s` where `m` was asked for: the tool takes its diameter as far as that leaves anything, and gives
it back. -/
structure Shrunk (ρ m s : Rat) : Prop where
  eq : s = max (m - 2 * ρ) 0
  nonneg : 0 ≤ s
  restored : 2 * ρ ≤ m → s + 2 * ρ = m

section Measures

variable {ρ ρ' m : Rat}

theorem shrunk_leftOver (ρ m : Rat) : Shrunk ρ m (leftOver ρ m) := by
  refine ⟨rfl, le_max_right _ _, fun hfits => ?_⟩
  rw [leftOver, max_eq_left (by linarith)]
  ring

theorem leftOver_antitone (h : ρ ≤ ρ') (m : Rat) : leftOver ρ' m ≤ leftOver ρ m :=
  max_le_max (by linarith) le_rfl

theorem nonNegative_eq (a : Rat) : Scalar.nonNegative a = max a 0 := by
  show (if a < 0 then (0 : Rat) else a) = max a 0
  split
  · next hneg => exact (max_eq_right hneg.le).symm
  · next hpos => exact (max_eq_left (not_lt.1 hpos)).symm

theorem shrinkLength_eq (ρ m : Rat) : shrinkLength ρ m = leftOver ρ m := nonNegative_eq _

theorem shrinkSize_eq (ρ : Rat) (size : Vec3 Rat) :
    shrinkSize ρ size = ⟨leftOver ρ size.x, leftOver ρ size.y, size.z⟩ := by
  rw [shrinkSize, shrinkLength_eq, shrinkLength_eq]

theorem two_mul_nonNegative (ρ r : Rat) : 2 * Scalar.nonNegative (r - ρ) = leftOver ρ (2 * r) := by
  rw [nonNegative_eq, leftOver, mul_max_of_nonneg _ _ zero_le_two, mul_zero, mul_sub]

theorem shrinkFactor_eq (ρ m : Rat) : shrinkFactor ρ m = if 0 < m then leftOver ρ m / m else 1 := by
  rw [← shrinkLength_eq]
  rfl

/-- What has no length is not scaled, and has none left. -/
theorem shrinkFactor_mul (hρ : 0 ≤ ρ) (hm : 0 ≤ m) : shrinkFactor ρ m * m = leftOver ρ m := by
  rw [shrinkFactor_eq]
  rcases hm.eq_or_lt with rfl | hpos
  · rw [mul_zero, leftOver, max_eq_right (by linarith)]
  · rw [if_pos hpos, div_mul_cancel₀ _ hpos.ne']

theorem shrinkFactor_mul_antitone (h : ρ ≤ ρ') (m : Rat) : shrinkFactor ρ' m * m ≤ shrinkFactor ρ m * m := by
  rw [shrinkFactor_eq, shrinkFactor_eq]
  split
  · next hpos =>
    rw [div_mul_cancel₀ _ hpos.ne', div_mul_cancel₀ _ hpos.ne']
    exact leftOver_antitone h m
  · exact le_rfl

end Measures

/-! ## Footprints -/

/-- The measures along X and Y that a rounded solid is asked for with: sizes and diameters. Those of a polyhedron are
not asked for but come from its points. -/
def RoundedBase.footprint? : RoundedBase Rat → Option (Vec2 Rat)
  | .cube size _ => some ⟨size.x, size.y⟩
  | .cylinder _ r1 r2 _ => some ⟨2 * r1, 2 * r2⟩
  | .sphere r => some ⟨2 * r, 2 * r⟩
  | .surface _ size _ _ _ => some ⟨size.x, size.y⟩
  | .polyhedron .. => none

/-- A node that draws the solid that is asked for with another footprint. All else is as it is asked for. -/
inductive Remade (resolution : UInt32) : RoundedBase Rat → Vec2 Rat → Node Rat → Prop where
  | cube (size : Vec3 Rat) (center : Bool) (x y : Rat) :
    Remade resolution (.cube size center) ⟨x, y⟩ (Node.drawn (.cube ⟨x, y, size.z⟩ center))
  | cylinder (h r1 r2 : Rat) (center : Bool) (s1 s2 : Rat) :
    Remade resolution (.cylinder h r1 r2 center) ⟨2 * s1, 2 * s2⟩ (Node.drawn (.cylinder h s1 s2 center resolution))
  | sphere (r fx fy : Rat) :
    Remade resolution (.sphere r) ⟨fx * (2 * r), fy * (2 * r)⟩
      (.apply (.scale ⟨fx, fy, 1⟩) [Node.drawn (.sphere r resolution)])
  | surface (file : String) (size : Vec3 Rat) (center invert : Bool) (convexity : UInt32) (x y : Rat) :
    Remade resolution (.surface file size center invert convexity) ⟨x, y⟩
      (.apply (.resize ⟨x, y, size.z⟩ ⟨false, false, false⟩) [Node.drawn (.surface file center invert convexity)])

/-- The footprint that tools leave of a footprint, by their radius. -/
structure Leaves (m : Vec2 Rat) (rest : Rat → Vec2 Rat) : Prop where
  along : ∀ ρ, 0 ≤ ρ → 0 ≤ m.x → Shrunk ρ m.x (rest ρ).x
  across : ∀ ρ, 0 ≤ ρ → 0 ≤ m.y → Shrunk ρ m.y (rest ρ).y
  antitone : ∀ ρ ρ', ρ ≤ ρ' → (rest ρ').x ≤ (rest ρ).x ∧ (rest ρ').y ≤ (rest ρ).y

theorem leaves_leftOver (m : Vec2 Rat) : Leaves m fun ρ => ⟨leftOver ρ m.x, leftOver ρ m.y⟩ where
  along ρ _ _ := shrunk_leftOver ρ m.x
  across ρ _ _ := shrunk_leftOver ρ m.y
  antitone _ _ h := ⟨leftOver_antitone h _, leftOver_antitone h _⟩

theorem leaves_scaled (m : Vec2 Rat) : Leaves m fun ρ => ⟨shrinkFactor ρ m.x * m.x, shrinkFactor ρ m.y * m.y⟩ where
  along ρ hρ hm := shrinkFactor_mul hρ hm ▸ shrunk_leftOver ρ m.x
  across ρ hρ hm := shrinkFactor_mul hρ hm ▸ shrunk_leftOver ρ m.y
  antitone _ _ h := ⟨shrinkFactor_mul_antitone h _, shrinkFactor_mul_antitone h _⟩

/-- The base is the solid that is asked for with the footprint that the tool leaves. -/
theorem RoundedBase.exists_leaves (resolution : UInt32) {base : RoundedBase Rat} {m : Vec2 Rat}
    (hm : base.footprint? = some m) :
    ∃ rest, Leaves m rest ∧ ∀ ρ, Remade resolution base (rest ρ) (base.shrink ρ resolution) := by
  cases base with
  | cube size center =>
    cases hm
    refine ⟨_, leaves_leftOver _, fun ρ => ?_⟩
    rw [shrink, shrinkSize_eq]
    exact .cube size center _ _
  | cylinder h r1 r2 center =>
    cases hm
    refine ⟨_, leaves_leftOver _, fun ρ => ?_⟩
    rw [← two_mul_nonNegative, ← two_mul_nonNegative]
    exact .cylinder h r1 r2 center _ _
  | sphere r =>
    cases hm
    exact ⟨_, leaves_scaled _, fun ρ => .sphere r _ _⟩
  | polyhedron points faces convexity => cases hm
  | surface file size center invert convexity =>
    cases hm
    refine ⟨_, leaves_leftOver _, fun ρ => ?_⟩
    rw [shrink, shrinkSize_eq]
    exact .surface file size center invert convexity _ _

/-! ## Expansions -/

/-- The rationals with any functions in the place of the circular ones, which no rounded solid uses. -/
@[reducible] def Rational.angular (pi : Rat) (sin cos : Rat → Rat) : Angular Rat where
  pi := pi
  sin := sin
  cos := cos

theorem Rounding.clamped_eq (rounding : Rounding Rat) :
    rounding.clamped = ⟨max rounding.radius 0, max rounding.toolHeight 0⟩ := by
  rw [clamped, nonNegative_eq, nonNegative_eq]

/-- Measures that are clamped twice are clamped once. -/
theorem Rounding.tool_clamped (rounding : Rounding Rat) (resolution : UInt32) :
    rounding.clamped.tool resolution =
      .cylinder (max rounding.toolHeight 0) (max rounding.radius 0) (max rounding.radius 0) true resolution := by
  rw [tool, clamped_eq, clamped_eq, max_eq_left (le_max_right _ _), max_eq_left (le_max_right _ _)]

/-- **Rounding keeps the footprint that is asked for.** A rounded solid is the Minkowski sum of exactly two nodes, a
base and a tool. The tool is a centred cylinder of the height and the radius of the rounding, neither of them below
zero. The base is the solid that is asked for with what the tool leaves of its footprint, and a greater radius never
leaves more. -/
theorem expansion?_footprint (pi : Rat) (sin cos : Rat → Rat) {base : RoundedBase Rat} {m : Vec2 Rat}
    (hm : base.footprint? = some m) (resolution : UInt32) :
    letI := Rational.angular pi sin cos
    ∃ rest : Rat → Vec2 Rat,
      (∀ rounding : Rounding Rat, ∃ node,
        Node.expansion? (.leaf (.derived (.rounded base rounding resolution))) =
          some (.apply .minkowski [node, Node.drawn (.cylinder (max rounding.toolHeight 0)
            (max rounding.radius 0) (max rounding.radius 0) true resolution)]) ∧
        Remade resolution base (rest (max rounding.radius 0)) node) ∧
      (∀ ρ, 0 ≤ ρ → (0 ≤ m.x → Shrunk ρ m.x (rest ρ).x) ∧ (0 ≤ m.y → Shrunk ρ m.y (rest ρ).y)) ∧
      (∀ ρ ρ', ρ ≤ ρ' → (rest ρ').x ≤ (rest ρ).x ∧ (rest ρ').y ≤ (rest ρ).y) := by
  obtain ⟨rest, hrest, hremade⟩ := base.exists_leaves resolution hm
  refine ⟨rest, fun rounding => ?_, fun ρ hρ => ⟨hrest.along ρ hρ, hrest.across ρ hρ⟩, hrest.antitone⟩
  refine ⟨base.shrink rounding.clamped.radius resolution, ?_, ?_⟩
  · rw [← rounding.tool_clamped]
    rfl
  · rw [rounding.clamped_eq]
    exact hremade _

/-- A sphere of diameter 4 under a tool of radius 1, whose height is below zero. -/
theorem expansion?_footprint_sphere :
    letI := Rational.angular 3 id id
    (RoundedBase.sphere (2 : Rat)).footprint? = some ⟨4, 4⟩ ∧
    ∃ node x y,
      Node.expansion? (.leaf (.derived (.rounded (.sphere 2) ⟨1, -1⟩ 8))) =
        some (.apply .minkowski [node, Node.drawn (.cylinder 0 1 1 true 8)]) ∧
      Remade 8 (.sphere 2) ⟨x, y⟩ node ∧ x = 2 ∧ y = 2 := by
  have hm : (RoundedBase.sphere (2 : Rat)).footprint? = some ⟨4, 4⟩ := by
    norm_num [RoundedBase.footprint?]
  obtain ⟨rest, hexpansion, hshrunk, -⟩ := expansion?_footprint 3 id id hm 8
  obtain ⟨node, hnode, hremade⟩ := hexpansion ⟨1, -1⟩
  have hradius : max (1 : Rat) 0 = 1 := by norm_num
  have hheight : max (-1 : Rat) 0 = 0 := by norm_num
  simp only [hradius, hheight] at hnode hremade
  obtain ⟨hx, hy⟩ := hshrunk 1 zero_le_one
  refine ⟨hm, node, _, _, hnode, hremade, ?_, ?_⟩
  · rw [(hx (by norm_num)).eq]
    norm_num
  · rw [(hy (by norm_num)).eq]
    norm_num

end SolidScript
