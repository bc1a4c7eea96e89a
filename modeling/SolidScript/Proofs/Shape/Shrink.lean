import SolidScript.Proofs.Geometry.Box
import SolidScript.Proofs.Shape.Footprint

/-!
# Shrinking polyhedra

The base of a rounded polyhedron is the polyhedron with its points moved, along X and along Y, towards the middle of
their bounding box. Over the rationals:

* Numbers that are scaled about the middle of what they span keep that middle, and do not pass each other. Their span
  loses the diameter of the tool as far as that leaves anything; a span of no length stays as it is (`Shrunken`,
  `shrunken_map`).
* So along X and Y the points of the base are those that were given, shrunken, and along Z they are unchanged
  (`expansion?_polyhedron`).
-/

namespace SolidScript

/-! ## Factors -/

section Factors

variable {ρ m : Rat}

theorem shrinkFactor_zero : shrinkFactor ρ 0 = 1 := by
  rw [shrinkFactor_eq, if_neg (lt_irrefl _)]

theorem shrinkFactor_nonneg (ρ : Rat) (hm : 0 ≤ m) : 0 ≤ shrinkFactor ρ m := by
  rw [shrinkFactor_eq]
  split
  · exact div_nonneg (le_max_right _ _) hm
  · exact zero_le_one

theorem shrinkFactor_le_one (hρ : 0 ≤ ρ) (hm : 0 ≤ m) : shrinkFactor ρ m ≤ 1 := by
  rw [shrinkFactor_eq]
  split
  · next hpos =>
    rw [div_le_one hpos]
    exact max_le (by linarith) hm
  · exact le_rfl

end Factors

/-! ## Coordinates about their middle -/

/-- A coordinate scaled about the middle of `lo` and `hi` so that what lies between them shrinks. -/
def towardMiddle {α : Type} [Scalar α] (ρ lo hi x : α) : α :=
  (lo + hi) * (1 / 2) + (x - (lo + hi) * (1 / 2)) * shrinkFactor ρ (hi - lo)

/-- Along each axis the points are moved towards the middle of the box. -/
theorem shrinkPoints_eq {α : Type} [Scalar α] {ρ : α} {points : List (Vec3 α)} {box : Box α}
    (h : Box.ofPoints? points = some box) : shrinkPoints ρ points = points.map fun p =>
      ⟨towardMiddle ρ box.min.x box.max.x p.x, towardMiddle ρ box.min.y box.max.y p.y, p.z⟩ := by
  rw [shrinkPoints, h]
  rfl

theorem towardMiddle_eq (ρ lo hi x : Rat) : towardMiddle ρ lo hi x =
    (lo + hi) * (1 / 2) + (x - (lo + hi) * (1 / 2)) * shrinkFactor ρ (hi - lo) := rfl

/-- Numbers `ys` that are the numbers `xs` moved towards the middle of their span, one by one and without passing each
other. The span loses the diameter of a tool of radius `ρ`, as far as that leaves anything. -/
structure Shrunken (ρ : Rat) (xs ys : List Rat) : Prop where
  ordered : ∃ f, Monotone f ∧ ys = xs.map f
  spans : xs ≠ [] → ∃ lo hi lo' hi', Spans xs lo hi ∧ Spans ys lo' hi' ∧ lo ≤ lo' ∧ hi' ≤ hi ∧
    (lo' + hi') / 2 = (lo + hi) / 2 ∧ (lo < hi → hi' - lo' = max (hi - lo - 2 * ρ) 0) ∧ (lo = hi → ys = xs)

section Middle

variable {ρ lo hi : Rat}

theorem towardMiddle_monotone (ρ : Rat) (h : lo ≤ hi) : Monotone (towardMiddle ρ lo hi) := by
  intro x y hxy
  have hfactor := shrinkFactor_nonneg ρ (sub_nonneg.2 h)
  have hmul := mul_le_mul_of_nonneg_right (sub_le_sub_right hxy ((lo + hi) * (1 / 2))) hfactor
  rw [towardMiddle_eq, towardMiddle_eq]
  linarith

/-- The ends move by the same amount. -/
theorem towardMiddle_ends (hρ : 0 ≤ ρ) (h : lo ≤ hi) :
    ∃ d, 0 ≤ d ∧ towardMiddle ρ lo hi lo = lo + d ∧ towardMiddle ρ lo hi hi = hi - d ∧
      hi - lo - 2 * d = leftOver ρ (hi - lo) := by
  have hextent := sub_nonneg.2 h
  have hmul := shrinkFactor_mul hρ hextent
  have hfactor := shrinkFactor_le_one hρ hextent
  refine ⟨(hi - lo) * (1 - shrinkFactor ρ (hi - lo)) / 2, ?_, ?_, ?_, ?_⟩
  · have hrest : 0 ≤ 1 - shrinkFactor ρ (hi - lo) := sub_nonneg.2 hfactor
    positivity
  · rw [towardMiddle_eq]
    ring
  · rw [towardMiddle_eq]
    ring
  · rw [← hmul]
    ring

end Middle

/-- **Numbers that are scaled about the middle of their span are shrunken.** -/
theorem shrunken_map {ρ lo hi : Rat} (hρ : 0 ≤ ρ) {xs : List Rat} (hxs : Spans xs lo hi) :
    Shrunken ρ xs (xs.map (towardMiddle ρ lo hi)) := by
  have hmonotone := towardMiddle_monotone ρ hxs.le
  obtain ⟨d, hd, hlo, hhi, hextent⟩ := towardMiddle_ends hρ hxs.le
  refine ⟨⟨_, hmonotone, rfl⟩, fun _ => ⟨lo, hi, _, _, hxs, hxs.map hmonotone, ?_, ?_, ?_, fun _ => ?_, ?_⟩⟩
  · linarith
  · linarith
  · rw [hlo, hhi]
    ring
  · rw [hlo, hhi]
    exact Eq.trans (by ring) hextent
  · rintro rfl
    refine List.map_id'' (fun x => ?_) xs
    rw [towardMiddle_eq, sub_self, shrinkFactor_zero]
    ring

/-! ## Polyhedra -/

theorem shrunken_shrinkPoints {ρ : Rat} (hρ : 0 ≤ ρ) (points : List (Vec3 Rat)) :
    Shrunken ρ (points.map Vec3.x) ((shrinkPoints ρ points).map Vec3.x) ∧
      Shrunken ρ (points.map Vec3.y) ((shrinkPoints ρ points).map Vec3.y) ∧
      (shrinkPoints ρ points).map Vec3.z = points.map Vec3.z := by
  cases hbox : Box.ofPoints? points with
  | none =>
    obtain rfl := Box.ofPoints?_eq_none.1 hbox
    have hnil : Shrunken ρ [] [] := ⟨⟨id, monotone_id, rfl⟩, fun h => absurd rfl h⟩
    exact ⟨hnil, hnil, rfl⟩
  | some box =>
    have hx := (Box.fits_ofPoints? (r := Rational.reading) (c := .x) hbox fun _ _ => trivial).spans
    have hy := (Box.fits_ofPoints? (r := Rational.reading) (c := .y) hbox fun _ _ => trivial).spans
    rw [shrinkPoints_eq hbox, List.map_map, List.map_map, List.map_map]
    refine ⟨?_, ?_, rfl⟩
    · have hshrunken := shrunken_map hρ hx
      rwa [List.map_map] at hshrunken
    · have hshrunken := shrunken_map hρ hy
      rwa [List.map_map] at hshrunken

/-- **Rounding shrinks a polyhedron about the middle of its footprint.** A rounded polyhedron is the Minkowski sum of
the polyhedron with other points and of the tool. There are as many points as were given and in the same order, with the
same coordinates along Z; along X and along Y they are shrunken by the radius of the tool. -/
theorem expansion?_polyhedron (pi : Rat) (sin cos : Rat → Rat) (points : List (Vec3 Rat))
    (faces : List (List UInt64)) (convexity : UInt32) (rounding : Rounding Rat) (resolution : UInt32) :
    letI := Rational.angular pi sin cos
    ∃ moved,
      Node.expansion? (.leaf (.derived (.rounded (.polyhedron points faces convexity) rounding resolution))) =
        some (.apply .minkowski [Node.drawn (.polyhedron moved faces convexity), Node.drawn
          (.cylinder (max rounding.toolHeight 0) (max rounding.radius 0) (max rounding.radius 0) true resolution)]) ∧
      moved.length = points.length ∧ moved.map Vec3.z = points.map Vec3.z ∧
      Shrunken (max rounding.radius 0) (points.map Vec3.x) (moved.map Vec3.x) ∧
      Shrunken (max rounding.radius 0) (points.map Vec3.y) (moved.map Vec3.y) := by
  obtain ⟨hx, hy, hz⟩ := shrunken_shrinkPoints (le_max_right rounding.radius 0) points
  refine ⟨_, ?_, ?_, hz, hx, hy⟩
  · rw [← rounding.tool_clamped, ← nonNegative_eq]
    rfl
  · have hlength := congrArg List.length hz
    rwa [List.length_map, List.length_map] at hlength

end SolidScript
