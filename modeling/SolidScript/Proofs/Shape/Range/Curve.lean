import SolidScript.Proofs.Double.Overflow
import SolidScript.Proofs.Shape.Measures
import SolidScript.Proofs.Shape.Outline

/-!
# Curves within the range of the doubles

* An angle between two angles of an arc is finite if these are: rounding is monotone, so every step of its computation
  stays between theirs (`isFinite_angle`).
* A point of a circle is finite just where the radius and the angle are (`finite_onCircle`), so it depends on the two
  radii and on the first and the last angle of an arc whether its outline is finite (`Curve.critical`,
  `Curve.finite_expand_iff`).
* These are finite for moderate measures (`Curve.finite_critical`).

Sine and cosine are any functions that stay between -1 and 1 and give a finite result just for finite angles
(`Double.Circular`).
-/

namespace SolidScript

open Double

/-! ## Angles -/

theorem mul_mem_uIcc {a b x : Rat} (h : x ∈ Set.uIcc a b) (c : Rat) : x * c ∈ Set.uIcc (a * c) (b * c) := by
  rcases le_total 0 c with hc | hc
  · exact (monotone_mul_right_of_nonneg hc).mapsTo_uIcc h
  · exact (antitone_mul_right hc).mapsTo_uIcc h

/-- The degrees of half a turn. -/
theorem halfTurn_spec : (180 : Float).isFinite = true ∧ 1 ≤ |value 180| := by decide +kernel

section Angles

variable {start sweep pi : Float} {n : Nat}

/-- An angle in radians is finite only if each step of its computation is. -/
theorem of_isFinite_angle {i : Nat} (h : (Arc.angleAt start sweep n i * pi / 180).isFinite = true) :
    sweep.isFinite = true ∧ (sweep * Float.ofNat i).isFinite = true ∧
      (sweep * Float.ofNat i / Float.ofNat n).isFinite = true ∧ (Arc.angleAt start sweep n i).isFinite = true ∧
      (Arc.angleAt start sweep n i * pi).isFinite = true := by
  have hturn := isFinite_of_div h
  have hangle := (isFinite_of_mul hturn).1
  have hquotient := (isFinite_of_add hangle).2
  have hproduct := isFinite_of_div hquotient
  exact ⟨(isFinite_of_mul hproduct).1, hproduct, hquotient, hangle, hturn⟩

/-- **The angles between two finite ones are finite.** -/
theorem isFinite_angle (hstart : start.isFinite = true) (hpi : pi.isFinite = true) (hpos : 1 ≤ n) (hmost : n ≤ 4096)
    (hfirst : (Arc.angleAt start sweep n 0 * pi / 180).isFinite = true)
    (hlast : (Arc.angleAt start sweep n n * pi / 180).isFinite = true) {i : Nat} (hi : i ≤ n) :
    (Arc.angleAt start sweep n i * pi / 180).isFinite = true := by
  have hcount {k : Nat} (hk : k ≤ 4096) : (Float.ofNat k).isFinite = true := isFinite_ofNat (by omega)
  have hvalue {k : Nat} (hk : k ≤ 4096) : value (Float.ofNat k) = k := value_ofNat (by omega)
  have hn : 1 ≤ value (Float.ofNat n) := by
    rw [hvalue hmost]
    exact_mod_cast hpos
  have hn0 : value (Float.ofNat n) ≠ 0 := by linarith
  obtain ⟨hsweep, hproduct₀, hquotient₀, hangle₀, hturn₀⟩ := of_isFinite_angle hfirst
  obtain ⟨-, hproduct₁, hquotient₁, hangle₁, hturn₁⟩ := of_isFinite_angle hlast
  -- rounding keeps each step between those of the first and the last angle
  have hcounts : value sweep * value (Float.ofNat i) ∈
      Set.uIcc (value sweep * value (Float.ofNat 0)) (value sweep * value (Float.ofNat n)) := by
    have hbetween : (i : Rat) ∈ Set.uIcc ((0 : Nat) : Rat) n :=
      Set.mem_uIcc.2 (.inl ⟨by exact_mod_cast Nat.zero_le i, by exact_mod_cast hi⟩)
    rw [hvalue (hi.trans hmost), hvalue (Nat.zero_le _), hvalue hmost]
    simp only [mul_comm (value sweep)]
    exact mul_mem_uIcc hbetween _
  have hproduct := (mul_roundsEven hsweep (hcount (hi.trans hmost))).between
    (mul_roundsEven hsweep (hcount (Nat.zero_le _))) (mul_roundsEven hsweep (hcount hmost)) hcounts hproduct₀ hproduct₁
  have hquotients := mul_mem_uIcc hproduct.2 (value (Float.ofNat n))⁻¹
  simp only [← div_eq_mul_inv] at hquotients
  have hquotient := (div_roundsEven hproduct.1 (hcount hmost) hn0).between (div_roundsEven hproduct₀ (hcount hmost) hn0)
    (div_roundsEven hproduct₁ (hcount hmost) hn0) hquotients hquotient₀ hquotient₁
  have hangles := (monotone_id.const_add (value start)).mapsTo_uIcc hquotient.2
  have hangle := (add_roundsEven hstart hquotient.1).between (add_roundsEven hstart hquotient₀)
    (add_roundsEven hstart hquotient₁) hangles hangle₀ hangle₁
  have hturn := (mul_roundsEven hangle.1 hpi).between (mul_roundsEven hangle₀ hpi) (mul_roundsEven hangle₁ hpi)
    (mul_mem_uIcc hangle.2 _) hturn₀ hturn₁
  exact isFinite_div hturn.1 halfTurn_spec.1 halfTurn_spec.2

end Angles

/-! ## Outlines -/

namespace Double

/-- A circular function of doubles: the result is finite just where the angle is, and not beyond one. -/
def Circular (f : Float → Float) : Prop := ∀ x, (f x).isFinite = x.isFinite ∧ |value (f x)| ≤ 1

/-- The doubles with any functions in the place of the circular ones. -/
@[reducible] def angular (sin cos : Float → Float) : Angular Float where
  pi := 3.141592653589793
  sin := sin
  cos := cos

/-- What is the same for all angles that are numbers. -/
theorem Circular.const {y : Float} (hy : y.isFinite = true) (hvalue : |value y| ≤ 1) :
    Circular fun x => if x.isFinite then y else nan := by
  intro x
  have hnan : nan.isFinite = false ∧ |value nan| ≤ 1 := by decide +kernel
  cases hx : x.isFinite with
  | true => simpa [hx] using ⟨hy, hvalue⟩
  | false => simpa [hx] using hnan

/-- A radius times the value of a circular function. -/
theorem Circular.isFinite_mul_iff {f : Float → Float} (hf : Circular f) {radius angle : Float} :
    (radius * f angle).isFinite = true ↔ radius.isFinite = true ∧ angle.isFinite = true := by
  obtain ⟨hfinite, hvalue⟩ := hf angle
  constructor
  · intro h
    obtain ⟨hradius, hresult⟩ := isFinite_of_mul h
    exact ⟨hradius, hfinite ▸ hresult⟩
  · rintro ⟨hradius, hangle⟩
    refine (mul_rounds hradius (hfinite.trans hangle)).isFinite_of_le (representable_value radius).abs
      (abs_value_lt radius) ?_
    rw [abs_mul]
    exact mul_le_of_le_one_right (abs_nonneg _) hvalue

end Double

section Outlines

variable {sin cos : Float → Float} (hsin : Circular sin) (hcos : Circular cos)
include hsin hcos

theorem finite_onCircle {radius angle : Float} :
    letI := angular sin cos
    AllFinite (Arc.onCircle radius angle).toList ↔ radius.isFinite = true ∧ angle.isFinite = true := by
  let _ := angular sin cos
  show AllFinite [radius * cos angle, radius * sin angle] ↔ _
  rw [allFinite_cons, allFinite_cons, hcos.isFinite_mul_iff, hsin.isFinite_mul_iff]
  exact ⟨fun h => h.1, fun h => ⟨h, h, allFinite_nil⟩⟩

theorem finite_rim {n : Nat} {angle : Nat → Float} {radius : Float} :
    letI := angular sin cos
    AllFinite ((Arc.rim n angle radius).flatMap Vec2.toList) ↔
      radius.isFinite = true ∧ ∀ i ≤ n, (angle i).isFinite = true := by
  let _ := angular sin cos
  have hpoints : AllFinite ((Arc.rim n angle radius).flatMap Vec2.toList) ↔
      ∀ i ≤ n, radius.isFinite = true ∧ (angle i).isFinite = true := by
    rw [allFinite_flatMap, Arc.rim]
    simp only [List.forall_mem_map, List.mem_range, Nat.lt_succ_iff, finite_onCircle hsin hcos]
  rw [hpoints]
  exact ⟨fun h => ⟨(h 0 (Nat.zero_le n)).1, fun i hi => (h i hi).2⟩, fun h i hi => ⟨h.1, h.2 i hi⟩⟩

/-- **The outline of an arc is finite just where the two radii and the first and the last angle are.** -/
theorem finite_outline {r start stop width : Float} (hr : r.isFinite = true) (hstart : start.isFinite = true)
    (hwidth : width.isFinite = true) (resolution : UInt32) :
    letI := angular sin cos
    AllFinite ((Arc.outline r start stop width resolution).flatMap Vec2.toList) ↔
      AllFinite [r + width / 2, Scalar.nonNegative (r - width / 2),
        radians (Arc.angleAt start (stop - start) (Arc.segments (stop - start) resolution) 0),
        radians (Arc.angleAt start (stop - start) (Arc.segments (stop - start) resolution)
          (Arc.segments (stop - start) resolution))] := by
  let _ := angular sin cos
  obtain ⟨n, hn⟩ : ∃ n, n = Arc.segments (stop - start) resolution := ⟨_, rfl⟩
  obtain ⟨inner, hinner⟩ : ∃ inner, inner = Scalar.nonNegative (r - width / 2) := ⟨_, rfl⟩
  have hcases : inner.isFinite = true ∨ inner = infinity .positive := by
    rw [hinner]
    exact nonNegative_sub_finite_or_infinity hr (isFinite_half hwidth)
  have hbounds : 1 ≤ n ∧ n ≤ 4096 := by
    rw [hn]
    exact Arc.segments_bounds _ _
  have hpi : (3.141592653589793 : Float).isFinite = true := by decide +kernel
  have hmiddle : ((radians (Arc.angleAt start (stop - start) n 0)).isFinite = true ∧
      (radians (Arc.angleAt start (stop - start) n n)).isFinite = true) ↔
      ∀ i ≤ n, (radians (Arc.angleAt start (stop - start) n i)).isFinite = true :=
    ⟨fun ⟨hfirst, hlast⟩ i hi => isFinite_angle hstart hpi hbounds.1 hbounds.2 hfirst hlast hi,
      fun h => ⟨h 0 (Nat.zero_le n), h n le_rfl⟩⟩
  rw [Arc.outline_eq r start stop width resolution hn hinner, ← hn, ← hinner, List.flatMap_append, allFinite_append,
    finite_rim hsin hcos]
  simp only [allFinite_cons, hmiddle, allFinite_nil, and_true]
  split
  · rw [allFinite_flatMap_reverse, finite_rim hsin hcos]
    tauto
  · next hpos =>
    have hfinite : inner.isFinite = true := by
      rcases hcases with h | h
      · exact h
      · exact absurd (h ▸ zero_between_infinities.2) hpos
    have horigin : AllFinite ([⟨0, 0⟩].flatMap Vec2.toList : List Float) := by decide +kernel
    tauto

/-- The results on which it depends whether a curve stays within the range: the two radii and the first and the last
angle of an arc. -/
def Curve.critical (resolution : UInt32) : Curve Float → List Float
  | .line .. => []
  | .arc r start stop width =>
    let n := Arc.segments (stop - start) resolution
    [r + width / 2, Scalar.nonNegative (r - width / 2), radians (Arc.angleAt start (stop - start) n 0),
      radians (Arc.angleAt start (stop - start) n n)]

/-- **A curve is finite just where its critical results are.** -/
theorem Curve.finite_expand_iff {c : Curve Float} (hc : AllFinite c.measures) (resolution : UInt32) :
    letI := angular sin cos
    Node.Finite (c.expand resolution) ↔ AllFinite (c.critical resolution) := by
  let _ := angular sin cos
  cases c with
  | line start stop width =>
    simp only [Curve.measures, Vec2.toList, allFinite_append, allFinite_cons, allFinite_nil,
      and_true] at hc
    obtain ⟨⟨hstart, hstop⟩, hwidth⟩ := hc
    have hcap (p : Vec2 Float) (hp : p.x.isFinite = true ∧ p.y.isFinite = true) :
        Node.Finite (.apply (.translate ⟨p.x, p.y, 0⟩) [Node.drawn (.circle (width / 2) resolution)]) := by
      refine Node.finite_apply.2 ⟨?_, List.forall_mem_singleton.2 (Node.finite_leaf.2 ?_)⟩
      · simp only [Operation.measures, Vec3.toList, allFinite_cons, allFinite_nil, and_true]
        exact ⟨hp.1, hp.2, value_zero.1⟩
      · exact allFinite_cons.2 ⟨isFinite_half hwidth, allFinite_nil⟩
    refine iff_of_true (Node.finite_apply.2 ⟨allFinite_nil, ?_⟩) allFinite_nil
    exact List.forall_mem_cons.2 ⟨hcap start hstart, List.forall_mem_singleton.2 (hcap stop hstop)⟩
  | arc r start stop width =>
    simp only [Curve.measures, allFinite_cons, allFinite_nil, and_true] at hc
    obtain ⟨hr, hstart, -, hwidth⟩ := hc
    exact Node.finite_leaf.trans (finite_outline hsin hcos hr hstart hwidth resolution)

end Outlines

/-! ## Moderate measures -/

/-- The angles of an arc of moderate measures are finite. -/
theorem isFinite_moderate_angle {start stop : Float} (hstart : Within 1000 start) (hstop : Within 1000 stop) {n i : Nat}
    (hpos : 1 ≤ n) (hmost : n ≤ 4096) (hi : i ≤ 4096) :
    (radians (Arc.angleAt start (stop - start) n i)).isFinite = true := by
  have hcount {k : Nat} (hk : k ≤ 4096) : Within 12 (Float.ofNat k) := by
    refine ⟨isFinite_ofNat (by omega), ?_⟩
    have hcast : (k : Rat) ≤ 4096 := by exact_mod_cast hk
    have hunit : unit 12 = 4096 := by norm_num [unit]
    rw [value_ofNat (by omega), Nat.abs_cast, hunit]
    exact hcast
  have hn : 1 ≤ |value (Float.ofNat n)| := by
    rw [value_ofNat (by omega), Nat.abs_cast]
    exact_mod_cast hpos
  have hpi : Within 2 (3.141592653589793 : Float) := ⟨by decide +kernel, by decide +kernel⟩
  have hsweep : Within 1001 (stop - start) := hstop.sub hstart (by omega) (by omega)
  have hproduct : Within 1013 ((stop - start) * Float.ofNat i) := hsweep.mul (hcount hi) (by omega) (by omega)
  have hquotient := hproduct.div (hcount hmost).finite hn (by omega) (by omega)
  have hangle : Within 1014 (start + (stop - start) * Float.ofNat i / Float.ofNat n) :=
    (hstart.mono (by omega)).add hquotient (by omega) (by omega)
  exact ((hangle.mul hpi (by omega) (by omega)).div halfTurn_spec.1 halfTurn_spec.2 (by omega) (by omega)).finite

/-- **Moderate measures have finite critical results.** -/
theorem Curve.finite_critical {c : Curve Float} (hc : ∀ x ∈ c.measures, Within 1000 x) (resolution : UInt32) :
    AllFinite (c.critical resolution) := by
  cases c with
  | line start stop width => exact allFinite_nil
  | arc r start stop width =>
    simp only [Curve.measures, List.forall_mem_cons, List.not_mem_nil, false_imp_iff, forall_const,
      and_true] at hc
    obtain ⟨hr, hstart, hstop, hwidth⟩ := hc
    have hhalf := hwidth.half (by omega) (by omega)
    have hbounds := Arc.segments_bounds (stop - start) resolution
    refine allFinite_cons.2 ⟨(hr.add hhalf (by omega) (by omega)).finite, allFinite_cons.2 ⟨?_, ?_⟩⟩
    · exact (isFinite_nonNegative (hr.sub hhalf (by omega) (by omega)).finite).1
    · refine allFinite_cons.2 ⟨?_, allFinite_cons.2 ⟨?_, allFinite_nil⟩⟩
      · exact isFinite_moderate_angle hstart hstop hbounds.1 hbounds.2 (by omega)
      · exact isFinite_moderate_angle hstart hstop hbounds.1 hbounds.2 hbounds.2

end SolidScript
