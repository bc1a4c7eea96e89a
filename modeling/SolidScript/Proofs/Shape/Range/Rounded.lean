import SolidScript.Proofs.Double.Overflow
import SolidScript.Proofs.Shape.Measures
import SolidScript.Proofs.Shape.Shrink

/-!
# Rounded solids within the range of the doubles

The base of a rounded solid is computed from finite measures. Where may a result be beyond the range of the doubles?

* A length less the diameter of the tool is finite, also where the diameter is not (`isFinite_shrinkLength`). The factor
  of a length is finite just where the length is (`isFinite_shrinkFactor`, `shrinkFactor_infinity`).
* The points of a polyhedron are moved within their box, by less than what rounding allows for beyond it
  (`isFinite_towardMiddle`); they are no numbers where the sum or the difference of the ends of the box is beyond the
  range (`of_isFinite_towardMiddle`).
* So it depends on a few results only whether the base is finite (`RoundedBase.critical`,
  `RoundedBase.finite_shrink_iff`), and these are finite for moderate measures (`RoundedBase.finite_critical`).
-/

namespace SolidScript

open Double

/-! ## Lengths and factors -/

section Shrink

variable {ρ m : Float} (hρ : ρ.isFinite = true) (hρ0 : 0 ≤ value ρ)
include hρ hρ0

/-- Twice a radius, which may be beyond the range. -/
theorem two_mul_radius : ((2 * ρ).isFinite = true ∧ 0 ≤ value (2 * ρ)) ∨ 2 * ρ = infinity .positive := by
  have hrounds := mul_roundsEven two_spec.1 hρ
  have hnonneg : 0 ≤ value 2 * value ρ := by
    rw [two_spec.2]
    linarith
  cases hfinite : (2 * ρ).isFinite with
  | true => exact .inl ⟨rfl, (hrounds.roundsTo.nearest hfinite).le_of_le .zero hnonneg⟩
  | false => exact .inr (hrounds.eq_infinity hfinite hnonneg)

theorem isFinite_shrinkLength (hm : m.isFinite = true) : (shrinkLength ρ m).isFinite = true ∧
    0 ≤ value (shrinkLength ρ m) ∧ value (shrinkLength ρ m) ≤ max (value m) 0 := by
  rcases two_mul_radius hρ hρ0 with ⟨hdiameter, hnonneg⟩ | hdiameter
  · exact nonNegative_sub hm hdiameter hnonneg
  · have hlength : shrinkLength ρ m = 0 := by
      show Scalar.nonNegative (m - 2 * ρ) = 0
      rw [hdiameter, sub_infinity hm, nonNegative_infinities.1]
    obtain ⟨hzero, hvalue⟩ := value_zero
    rw [hlength]
    exact ⟨hzero, hvalue.ge, hvalue.le.trans (le_max_right _ _)⟩

theorem isFinite_shrinkFactor (hm : m.isFinite = true) : (shrinkFactor ρ m).isFinite = true ∧
    0 ≤ value (shrinkFactor ρ m) ∧ value (shrinkFactor ρ m) ≤ 1 := by
  obtain ⟨hzero, hvalue⟩ := value_zero
  rw [shrinkFactor]
  split
  · next hpos =>
    have hmpos : 0 < value m := by
      have hlt := (lt_iff hzero hm).1 hpos
      rwa [hvalue] at hlt
    obtain ⟨hlength, hnonneg, hle⟩ := isFinite_shrinkLength hρ hρ0 hm
    rw [max_eq_left hmpos.le] at hle
    have hlow : 0 ≤ value (shrinkLength ρ m) / value m := div_nonneg hnonneg hmpos.le
    have hhigh : value (shrinkLength ρ m) / value m ≤ 1 := (div_le_one hmpos).2 hle
    obtain ⟨hfinite, hmagnitude⟩ := (div_rounds hlength hm hmpos.ne').within (k := 0) (by omega) (by omega) <| by
      rw [abs_of_nonneg hlow, unit_zero]
      exact hhigh
    rw [unit_zero] at hmagnitude
    exact ⟨hfinite, ((div_rounds hlength hm hmpos.ne').nearest hfinite).le_of_le .zero hlow, (abs_le.1 hmagnitude).2⟩
  · decide +kernel

end Shrink

/-- The factor of an extent beyond the range is no number, whatever is taken from the extent. -/
theorem shrinkFactor_infinity (ρ : Float) : (shrinkFactor ρ (infinity .positive)).isFinite = false := by
  have hlength : shrinkLength ρ (infinity .positive) = infinity .positive - 2 * ρ :=
    if_neg (not_infinity_sub_lt (2 * ρ))
  rw [shrinkFactor, if_pos zero_between_infinities.2, hlength]
  refine Bool.eq_false_iff.2 fun hquotient => ?_
  have hinfinity := (isFinite_of_sub (isFinite_of_div hquotient)).1
  rw [isFinite_infinity] at hinfinity
  cases hinfinity

/-- A product with a factor between zero and one lies between zero and the other factor. -/
theorem mul_factor_spec {d f : Float} (hd : d.isFinite = true) (hf : f.isFinite = true) (h0 : 0 ≤ value f)
    (h1 : value f ≤ 1) : (d * f).isFinite = true ∧ value (d * f) ∈ Set.uIcc 0 (value d) := by
  have hrounds := mul_rounds hd hf
  have hsize : |value d * value f| ≤ |value d| := by
    rw [abs_mul, abs_of_nonneg h0]
    exact mul_le_of_le_one_right (abs_nonneg _) h1
  have hfinite := hrounds.isFinite_of_le (representable_value d).abs (abs_value_lt d) hsize
  have hnearest := hrounds.nearest hfinite
  refine ⟨hfinite, Set.mem_uIcc.2 ?_⟩
  rcases le_total 0 (value d) with hpos | hneg
  · exact .inl ⟨hnearest.le_of_le .zero (mul_nonneg hpos h0),
      hnearest.ge_of_ge (representable_value d) (mul_le_of_le_one_right hpos h1)⟩
  · exact .inr ⟨hnearest.le_of_le (representable_value d) (le_mul_of_le_one_right hneg h1),
      hnearest.ge_of_ge .zero (mul_nonpos_of_nonpos_of_nonneg hneg h0)⟩

/-! ## Coordinates about their middle -/

/-- Half of a double, as a product with one half: it is finite and rounded once. -/
theorem mul_half_spec {x : Float} (hx : x.isFinite = true) :
    (x * (1 / 2)).isFinite = true ∧ Nearest (value x / 2) (value (x * (1 / 2))) := by
  have hhalf : (1 / 2 : Float).isFinite = true ∧ value (1 / 2) = 1 / 2 := by decide +kernel
  have hrounds := mul_rounds hx hhalf.1
  rw [hhalf.2, mul_one_div] at hrounds
  have hsize : |value x / 2| ≤ |value x| := by
    rw [abs_div, abs_two]
    exact half_le_self (abs_nonneg _)
  have hfinite := hrounds.isFinite_of_le (representable_value x).abs (abs_value_lt x) hsize
  exact ⟨hfinite, hrounds.nearest hfinite⟩

section Middle

variable {ρ lo hi p : Float} (hlo : lo.isFinite = true) (hhi : hi.isFinite = true)
include hlo hhi

/-- The middle lies between the ends, where their sum is within the range. -/
theorem middle_between (hle : value lo ≤ value hi) (hsum : (lo + hi).isFinite = true) :
    value lo ≤ value ((lo + hi) * (1 / 2)) ∧ value ((lo + hi) * (1 / 2)) ≤ value hi := by
  have hsumnearest := (add_roundsEven hlo hhi).roundsTo.nearest hsum
  obtain ⟨-, hmiddle⟩ := mul_half_spec hsum
  -- twice an end is representable, so the sum is not rounded past it
  have htwice_lo : value lo * 2 ≤ value (lo + hi) :=
    hsumnearest.le_of_le ((representable_value lo).mul_two_pow 1) (by linarith)
  have htwice_hi : value (lo + hi) ≤ value hi * 2 :=
    hsumnearest.ge_of_ge ((representable_value hi).mul_two_pow 1) (by linarith)
  constructor
  · exact hmiddle.le_of_le (representable_value lo) (by linarith)
  · exact hmiddle.ge_of_ge (representable_value hi) (by linarith)

/-- The middle is not far from where it is exactly: the sum and its half are each rounded once. -/
theorem middle_error (hsum : (lo + hi).isFinite = true) :
    |value ((lo + hi) * (1 / 2)) - (value lo + value hi) / 2| ≤ unit 970 := by
  have hsumnearest := (add_roundsEven hlo hhi).roundsTo.nearest hsum
  obtain ⟨-, hmiddle⟩ := mul_half_spec hsum
  have hlimit : unit 1024 = 2 ^ 53 * unit 971 := unit_add_natCast 971 53
  have hunit : unit 971 = 2 * unit 970 := unit_succ 970
  have hrange := abs_value_lt (lo + hi)
  have hsumerror : |value (lo + hi) - (value lo + value hi)| ≤ unit 971 / 2 :=
    hsumnearest.half_unit_of_lt (by omega) (by linarith)
  have hmiddleerror : |value ((lo + hi) * (1 / 2)) - value (lo + hi) / 2| ≤ unit 970 / 2 := by
    refine hmiddle.half_unit (by omega) ?_
    rw [abs_div, abs_two]
    linarith
  obtain ⟨hsumlow, hsumhigh⟩ := abs_le.1 hsumerror
  obtain ⟨hmiddlelow, hmiddlehigh⟩ := abs_le.1 hmiddleerror
  refine abs_le.2 ⟨?_, ?_⟩ <;> linarith

/-- The distance of a point from the middle, where the extent is within the range: it is within the range, and not
rounded far. -/
theorem distance_spec {c : Float} (hc : c.isFinite = true) (hp : p.isFinite = true)
    (hextent : (hi - lo).isFinite = true) (hplo : value lo ≤ value p) (hphi : value p ≤ value hi)
    (hclo : value lo ≤ value c) (hchi : value c ≤ value hi)
    (hmiddle : |value c - (value lo + value hi) / 2| ≤ unit 970) :
    (p - c).isFinite = true ∧ |value (p - c) - (value p - value c)| ≤ unit 969 := by
  have hlimit : limit + unit 970 = unit 1024 := limit_add
  have hunit : unit 970 = 2 * unit 969 := unit_succ 969
  have hhalf : unit 1024 = 2 * unit 1023 := unit_succ 1023
  have hbinade : unit 1023 = 2 ^ 53 * unit 970 := unit_add_natCast 970 53
  have hsmall : value hi - value lo < limit :=
    lt_of_le_of_lt (le_abs_self _) ((sub_roundsEven hhi hlo).isFinite_iff.1 hextent)
  have hrounds := sub_roundsEven hp hc
  have hfinite : (p - c).isFinite = true := by
    refine hrounds.isFinite_iff.2 (lt_of_le_of_lt (abs_le.2 ⟨?_, ?_⟩) hsmall) <;> linarith
  have hnearest := hrounds.roundsTo.nearest hfinite
  refine ⟨hfinite, ?_⟩
  rcases le_or_gt |value p - value c| (unit 1023) with hnear | hfar
  · have herror := hnearest.half_unit (by omega : (-1074 : Int) ≤ 970) (by linarith)
    linarith
  · -- no point is farther from the middle than half of the extent and the error of the middle
    have herror := hnearest.abs_sub_le_of_le (.of_unit (by omega : (-1074 : Int) ≤ 1023)) hfar.le
    obtain ⟨hmlow, hmhigh⟩ := abs_le.1 hmiddle
    have hdistance : |value p - value c| ≤ unit 1023 + unit 969 := by
      refine abs_le.2 ⟨?_, ?_⟩ <;> linarith
    linarith

/-- **A coordinate is moved to a finite one**, if the sum and the difference of the ends are within the range. -/
theorem isFinite_towardMiddle (hρ : ρ.isFinite = true) (hρ0 : 0 ≤ value ρ) (hp : p.isFinite = true)
    (hplo : value lo ≤ value p) (hphi : value p ≤ value hi) (hsum : (lo + hi).isFinite = true)
    (hextent : (hi - lo).isFinite = true) : (towardMiddle ρ lo hi p).isFinite = true := by
  obtain ⟨hc, -⟩ := mul_half_spec hsum
  obtain ⟨hclo, hchi⟩ := middle_between hlo hhi (hplo.trans hphi) hsum
  have hmiddle := middle_error hlo hhi hsum
  show ((lo + hi) * (1 / 2) + (p - (lo + hi) * (1 / 2)) * shrinkFactor ρ (hi - lo)).isFinite = true
  obtain ⟨c, hcdef⟩ : ∃ c, c = (lo + hi) * (1 / 2) := ⟨_, rfl⟩
  rw [← hcdef] at hc hclo hchi hmiddle ⊢
  obtain ⟨hd, herror⟩ := distance_spec hlo hhi hc hp hextent hplo hphi hclo hchi hmiddle
  obtain ⟨hf, hf0, hf1⟩ := isFinite_shrinkFactor hρ hρ0 hextent
  obtain ⟨hg, hbetween⟩ := mul_factor_spec hd hf hf0 hf1
  -- the sum lies between the middle and the point that was given, but for the error of the distance
  have hlimit : greatest + unit 969 < limit := by
    have hunit : unit 970 = 2 * unit 969 := unit_succ 969
    have hpos := unit_pos 969
    rw [limit]
    linarith
  obtain ⟨hclow, hchigh⟩ := abs_le.1 (abs_value_le_greatest hc)
  obtain ⟨hplow, hphigh⟩ := abs_le.1 (abs_value_le_greatest hp)
  obtain ⟨helow, hehigh⟩ := abs_le.1 herror
  have hpos := unit_pos 969
  refine (add_roundsEven hc hg).isFinite_iff.2 (lt_of_le_of_lt (abs_le.2 ?_) hlimit)
  rcases Set.mem_uIcc.1 hbetween with ⟨hglow, hghigh⟩ | ⟨hglow, hghigh⟩
  · constructor <;> linarith
  · constructor <;> linarith

/-- A coordinate is moved to a finite one only if the sum and the difference of the ends are within the range. -/
theorem of_isFinite_towardMiddle (hle : value lo ≤ value hi) (h : (towardMiddle ρ lo hi p).isFinite = true) :
    (lo + hi).isFinite = true ∧ (hi - lo).isFinite = true := by
  obtain ⟨hc, hg⟩ := isFinite_of_add h
  refine ⟨(isFinite_of_mul hc).1, ?_⟩
  have hfactor := (isFinite_of_mul hg).2
  cases hextent : (hi - lo).isFinite with
  | true => rfl
  | false =>
    have hinfinity := (sub_roundsEven hhi hlo).eq_infinity hextent (by linarith)
    rw [hinfinity, shrinkFactor_infinity] at hfactor
    cases hfactor

end Middle

/-! ## Bases -/

/-- The sum and the difference of the ends of the box of some points, along X and along Y. -/
def criticalEnds (points : List (Vec3 Float)) : List Float :=
  match Box.ofPoints? points with
  | some box => [box.min.x + box.max.x, box.max.x - box.min.x, box.min.y + box.max.y, box.max.y - box.min.y]
  | none => []

/-- The results on which it depends whether a base stays within the range: twice the radius of a sphere, and the sum and
the difference of the ends of a polyhedron along X and Y. -/
def RoundedBase.critical : RoundedBase Float → List Float
  | .sphere r => [Scalar.nonNegative (2 * r)]
  | .polyhedron points _ _ => criticalEnds points
  | .cube .. | .cylinder .. | .surface .. => []

section Rounded

variable {ρ : Float} (hρ : ρ.isFinite = true) (hρ0 : 0 ≤ value ρ)
include hρ hρ0

theorem isFinite_sphere_iff {r : Float} (hr : r.isFinite = true) :
    (shrinkFactor ρ (2 * r)).isFinite = true ↔ (Scalar.nonNegative (2 * r)).isFinite = true := by
  cases hfinite : (2 * r).isFinite with
  | true => exact iff_of_true (isFinite_shrinkFactor hρ hρ0 hfinite).1 (isFinite_nonNegative hfinite).1
  | false =>
    obtain ⟨s, -, -, hinfinity⟩ := (mul_roundsEven two_spec.1 hr).exists_infinity hfinite
    have hdiameter : 2 * r = infinity s := hinfinity
    rw [hdiameter]
    cases s with
    | positive =>
      rw [nonNegative_infinities.2, isFinite_infinity, shrinkFactor_infinity]
    | negative =>
      rw [nonNegative_infinities.1, shrinkFactor, if_neg (by decide +kernel)]
      decide +kernel

/-- Along an axis the points are moved to finite coordinates just where the sum and the difference of the ends of the
box are within the range. -/
theorem isFinite_moved_iff {c : Coordinate Float} {points : List (Vec3 Float)} {box : Box Float}
    (hbox : Box.ofPoints? points = some box) (hpoints : ∀ p ∈ points, (c.entry p).isFinite = true) :
    (∀ p ∈ points, (towardMiddle ρ (c.entry box.min) (c.entry box.max) (c.entry p)).isFinite = true) ↔
      (c.entry box.min + c.entry box.max).isFinite = true ∧ (c.entry box.max - c.entry box.min).isFinite = true := by
  obtain ⟨hmin, hmax, hspans⟩ := Box.fits_ofPoints? (r := reading) hbox hpoints
  constructor
  · intro hmoved
    obtain ⟨p, hp, -⟩ := List.mem_map.1 hspans.lo_mem
    exact of_isFinite_towardMiddle hmin hmax hspans.le (hmoved p hp)
  · rintro ⟨hsum, hextent⟩ p hp
    have hvalue : value (c.entry p) ∈ points.map fun p => value (c.entry p) := List.mem_map_of_mem hp
    exact isFinite_towardMiddle hmin hmax hρ hρ0 (hpoints p hp) (hspans.lo_le _ hvalue) (hspans.le_hi _ hvalue) hsum
      hextent

theorem finite_shrinkPoints_iff {points : List (Vec3 Float)} (hpoints : AllFinite (points.flatMap Vec3.toList)) :
    AllFinite ((shrinkPoints ρ points).flatMap Vec3.toList) ↔ AllFinite (criticalEnds points) := by
  have hentries : ∀ p ∈ points, p.x.isFinite = true ∧ p.y.isFinite = true ∧ p.z.isFinite = true := by
    simpa [allFinite_flatMap, Vec3.toList, allFinite_cons, allFinite_nil] using hpoints
  cases hbox : Box.ofPoints? points with
  | none =>
    rw [shrinkPoints, criticalEnds, hbox]
    exact Iff.rfl
  | some box =>
    have hx := isFinite_moved_iff hρ hρ0 (c := .x) hbox fun p hp => (hentries p hp).1
    have hy := isFinite_moved_iff hρ hρ0 (c := .y) hbox fun p hp => (hentries p hp).2.1
    simp only [Coordinate.x, Coordinate.y] at hx hy
    have hmoved : AllFinite ((shrinkPoints ρ points).flatMap Vec3.toList) ↔
        (∀ p ∈ points, (towardMiddle ρ box.min.x box.max.x p.x).isFinite = true) ∧
          (∀ p ∈ points, (towardMiddle ρ box.min.y box.max.y p.y).isFinite = true) := by
      rw [shrinkPoints_eq hbox, allFinite_flatMap]
      simp only [List.forall_mem_map, Vec3.toList, allFinite_cons, allFinite_nil, and_true]
      exact ⟨fun h => ⟨fun p hp => (h p hp).1, fun p hp => (h p hp).2.1⟩,
        fun h p hp => ⟨h.1 p hp, h.2 p hp, (hentries p hp).2.2⟩⟩
    rw [hmoved, hx, hy, criticalEnds, hbox]
    simp only [allFinite_cons, allFinite_nil, and_true]
    tauto

/-- **A base is finite just where its critical results are.** -/
theorem RoundedBase.finite_shrink_iff {base : RoundedBase Float} (hbase : AllFinite base.measures)
    (resolution : UInt32) : Node.Finite (base.shrink ρ resolution) ↔ AllFinite base.critical := by
  cases base with
  | cube size center =>
    simp only [RoundedBase.measures, Vec3.toList, allFinite_cons, allFinite_nil, and_true] at hbase
    refine iff_of_true (Node.finite_leaf.2 ?_) allFinite_nil
    simp only [Shape.measures, Primitive.measures, shrinkSize, Vec3.toList, allFinite_cons, allFinite_nil, and_true]
    exact ⟨(isFinite_shrinkLength hρ hρ0 hbase.1).1, (isFinite_shrinkLength hρ hρ0 hbase.2.1).1, hbase.2.2⟩
  | cylinder h r1 r2 center =>
    simp only [RoundedBase.measures, allFinite_cons, allFinite_nil, and_true] at hbase
    refine iff_of_true (Node.finite_leaf.2 ?_) allFinite_nil
    simp only [Shape.measures, Primitive.measures, allFinite_cons, allFinite_nil, and_true]
    exact ⟨hbase.1, (nonNegative_sub hbase.2.1 hρ hρ0).1, (nonNegative_sub hbase.2.2 hρ hρ0).1⟩
  | sphere r =>
    simp only [RoundedBase.measures, allFinite_cons, allFinite_nil, and_true] at hbase
    have hfactor := isFinite_sphere_iff hρ hρ0 hbase
    have hone : (1 : Float).isFinite = true := by decide +kernel
    have hscale : AllFinite (Operation.scale ⟨shrinkFactor ρ (2 * r), shrinkFactor ρ (2 * r), 1⟩).measures ↔
        (shrinkFactor ρ (2 * r)).isFinite = true := by
      simp only [Operation.measures, Vec3.toList, allFinite_cons, allFinite_nil, and_true, hone, and_self]
    have hsphere : Node.Finite (Node.drawn (.sphere r resolution)) :=
      Node.finite_leaf.2 (allFinite_cons.2 ⟨hbase, allFinite_nil⟩)
    have hcritical : AllFinite [Scalar.nonNegative (2 * r)] ↔ (Scalar.nonNegative (2 * r)).isFinite = true := by
      rw [allFinite_cons, and_iff_left allFinite_nil]
    refine Node.finite_apply.trans ?_
    rw [and_iff_left (List.forall_mem_singleton.2 hsphere)]
    exact hscale.trans (hfactor.trans hcritical.symm)
  | polyhedron points faces convexity =>
    refine Node.finite_leaf.trans ?_
    exact finite_shrinkPoints_iff hρ hρ0 hbase
  | surface file size center invert convexity =>
    simp only [RoundedBase.measures, Vec3.toList, allFinite_cons, allFinite_nil, and_true] at hbase
    refine iff_of_true (Node.finite_apply.2 ⟨?_, ?_⟩) allFinite_nil
    · simp only [Operation.measures, shrinkSize, Vec3.toList, allFinite_cons, allFinite_nil, and_true]
      exact ⟨(isFinite_shrinkLength hρ hρ0 hbase.1).1, (isFinite_shrinkLength hρ hρ0 hbase.2.1).1, hbase.2.2⟩
    · exact List.forall_mem_singleton.2 (Node.finite_leaf.2 allFinite_nil)

end Rounded

/-- The tool of a rounding is finite. -/
theorem finite_tool {rounding : Rounding Float} (h : AllFinite rounding.measures) (resolution : UInt32) :
    Node.Finite (.drawn (rounding.clamped.tool resolution)) := by
  simp only [Rounding.measures, allFinite_cons, allFinite_nil, and_true] at h
  obtain ⟨hradius, hheight⟩ := h
  have hradius' := (isFinite_nonNegative (isFinite_nonNegative hradius).1).1
  have hheight' := (isFinite_nonNegative (isFinite_nonNegative hheight).1).1
  refine Node.finite_leaf.2 ?_
  simp only [Shape.measures, Rounding.tool, Rounding.clamped, Primitive.measures, allFinite_cons, allFinite_nil,
    and_true]
  exact ⟨hheight', hradius', hradius'⟩

/-! ## Moderate measures -/

/-- The ends of a box are not greater than the coordinates of its points. -/
theorem within_ends {k : Int} {c : Coordinate Float} {points : List (Vec3 Float)} {box : Box Float}
    (hbox : Box.ofPoints? points = some box) (hpoints : ∀ p ∈ points, Within k (c.entry p)) :
    Within k (c.entry box.min) ∧ Within k (c.entry box.max) := by
  obtain ⟨hmin, hmax, hspans⟩ := Box.fits_ofPoints? (r := reading) hbox fun p hp => (hpoints p hp).finite
  obtain ⟨p, hp, hpmin⟩ := List.mem_map.1 hspans.lo_mem
  obtain ⟨q, hq, hqmax⟩ := List.mem_map.1 hspans.hi_mem
  refine ⟨⟨hmin, ?_⟩, ⟨hmax, ?_⟩⟩
  · have hvalue : value (c.entry p) = value (c.entry box.min) := hpmin
    rw [← hvalue]
    exact (hpoints p hp).le
  · have hvalue : value (c.entry q) = value (c.entry box.max) := hqmax
    rw [← hvalue]
    exact (hpoints q hq).le

theorem finite_criticalEnds {points : List (Vec3 Float)} (hpoints : ∀ p ∈ points, ∀ x ∈ p.toList, Within 1000 x) :
    AllFinite (criticalEnds points) := by
  rw [criticalEnds]
  cases hbox : Box.ofPoints? points with
  | none => exact allFinite_nil
  | some box =>
    obtain ⟨hxmin, hxmax⟩ := within_ends (c := .x) hbox fun p hp => hpoints p hp p.x (by simp [Vec3.toList])
    obtain ⟨hymin, hymax⟩ := within_ends (c := .y) hbox fun p hp => hpoints p hp p.y (by simp [Vec3.toList])
    simp only [allFinite_cons, allFinite_nil, and_true]
    exact ⟨(hxmin.add hxmax (by omega) (by omega)).finite, (hxmax.sub hxmin (by omega) (by omega)).finite,
      (hymin.add hymax (by omega) (by omega)).finite, (hymax.sub hymin (by omega) (by omega)).finite⟩

/-- **Moderate measures have finite critical results.** -/
theorem RoundedBase.finite_critical {base : RoundedBase Float} (hbase : ∀ x ∈ base.measures, Within 1000 x) :
    AllFinite base.critical := by
  cases base with
  | sphere r =>
    have hr : Within 1000 r := hbase r List.mem_cons_self
    have hdiameter : Within (1 + 1000) (2 * r) := Within.two.mul hr (by omega) (by omega)
    exact allFinite_cons.2 ⟨(isFinite_nonNegative hdiameter.finite).1, allFinite_nil⟩
  | polyhedron points faces convexity =>
    exact finite_criticalEnds fun p hp x hx => hbase x (List.mem_flatMap_of_mem hp hx)
  | cube | cylinder | surface => exact allFinite_nil

end SolidScript
