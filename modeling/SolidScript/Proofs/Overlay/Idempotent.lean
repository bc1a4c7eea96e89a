import SolidScript.Proofs.Overlay.Ends

/-!
# Normalizing twice

A normalized range of doubles reaches the origin (`around_anchor`, `Around.around_snapped`), so that it is not moved a
second time (`Around.anchor_eq_self`), unless its length has gone beyond the range of the doubles. Its ends are moved to
themselves (`eq_snapped_snapped`). In inches neither needs an assumption (`Around.isFinite_extent_imperial`); in
millimetres the range has to be `Settled`, which not every normalized range is.
-/

namespace SolidScript.Overlay

open Double

/-! ## Ranges around the origin -/

section Ranges

variable {r : Range Float} {u : UnitSystem}

/-- A range of finite doubles that reaches the origin and has a length within the range of the doubles. -/
structure Around (r : Range Float) : Prop where
  finite : r.min.isFinite = true ∧ r.max.isFinite = true
  origin : value r.min ≤ 0 ∧ 0 ≤ value r.max
  nonempty : value r.min < value r.max
  extent : r.extent.isFinite = true

/-- `anchor`, with the operations of the doubles. -/
theorem anchor_eq (r : Range Float) : anchor defaultSpan r =
    if r.min == r.max || !(r.max - r.min).isFinite then ⟨0, 300⟩
    else if r.max < r.min then
      if r.max < 0 then ⟨-(r.min - r.max), 0⟩ else ⟨0, r.min - r.max⟩
    else if 0 < r.min ∧ 0 < r.max then ⟨0, r.max - r.min⟩
    else if r.min < 0 ∧ r.max < 0 then ⟨-(r.max - r.min), 0⟩
    else r := rfl

/-- A range around the origin stays where it is. -/
theorem Around.anchor_eq_self (h : Around r) : anchor defaultSpan r = r := by
  obtain ⟨hmin, hmax⟩ := h.finite
  obtain ⟨hle, hge⟩ := h.origin
  have hlength : (r.min == r.max || !(r.max - r.min).isFinite) = false := by
    have hne : (r.min == r.max) = false := Bool.eq_false_iff.2 (mt (beq_iff hmin hmax).1 h.nonempty.ne)
    have hextent : (r.max - r.min).isFinite = true := h.extent
    rw [hne, hextent]
    rfl
  have hswapped : ¬ r.max < r.min := by
    rw [lt_iff hmax hmin]
    exact not_lt.2 h.nonempty.le
  have hpos : ¬ (0 < r.min ∧ 0 < r.max) := by
    rw [pos_iff hmin]
    exact fun hboth => absurd hboth.1 (not_lt.2 hle)
  have hneg : ¬ (r.min < 0 ∧ r.max < 0) := by
    rw [neg_iff hmax]
    exact fun hboth => absurd hboth.2 (not_lt.2 hge)
  rw [anchor_eq, hlength]
  simp only [Bool.false_eq_true, if_false]
  rw [if_neg hswapped, if_neg hpos, if_neg hneg]

theorem around_default : Around ⟨0, 300⟩ := by
  refine ⟨?_, ?_, ?_, ?_⟩ <;> decide +kernel

/-- A length to either side of the origin. -/
theorem around_of_length {d : Float} (hd : d.isFinite = true) (hpos : 0 < value d) :
    Around ⟨0, d⟩ ∧ Around ⟨-d, 0⟩ := by
  obtain ⟨hzero, hvzero⟩ := value_zero
  have hneg := isFinite_neg hd
  have hvneg := value_neg hd
  refine ⟨⟨⟨hzero, hd⟩, ⟨hvzero.le, hpos.le⟩, ?_, ?_⟩, ⟨⟨hneg, hzero⟩, ⟨?_, hvzero.ge⟩, ?_, ?_⟩⟩
  · show value 0 < value d
    rwa [hvzero]
  · have hrounds := sub_rounds hd hzero
    rw [hvzero, sub_zero] at hrounds
    exact (hrounds.exact (representable_value d) (abs_value_lt d)).1
  · show value (-d) ≤ 0
    linarith
  · show value (-d) < value 0
    linarith
  · have hrounds := sub_rounds hzero hneg
    rw [hvzero, hvneg, sub_neg_eq_add, zero_add] at hrounds
    exact (hrounds.exact (representable_value d) (abs_value_lt d)).1

/-- The length between two different doubles is not rounded to zero. -/
theorem length_pos {x y : Float} (hx : x.isFinite = true) (hy : y.isFinite = true) (hd : (y - x).isFinite = true)
    (hlt : value x < value y) : 0 < value (y - x) := by
  have hnearest := (sub_rounds hy hx).nearest hd
  have hlarge := (representable_value y).le_abs_sub (representable_value x) hlt.ne'
  exact (hnearest.pos_iff hlarge).2 (sub_pos.2 hlt)

/-- Every range is moved to the origin. -/
theorem around_anchor (r : Range Float) : Around (anchor defaultSpan r) := by
  rw [anchor_eq]
  by_cases hlength : (r.min == r.max || !(r.max - r.min).isFinite) = true
  · rw [if_pos hlength]
    exact around_default
  · rw [if_neg hlength]
    rw [Bool.or_eq_true, not_or, Bool.not_eq_true', Bool.not_eq_false] at hlength
    obtain ⟨hdifferent, hextent⟩ := hlength
    obtain ⟨hmax, hmin⟩ := isFinite_of_sub hextent
    have hne : value r.min ≠ value r.max := mt (beq_iff hmin hmax).2 hdifferent
    by_cases hswapped : r.max < r.min
    · rw [if_pos hswapped]
      have hlt := (lt_iff hmax hmin).1 hswapped
      have hextent' : (r.min - r.max).isFinite = true := by rw [isFinite_sub_comm hmin hmax, hextent]
      obtain ⟨hright, hleft⟩ := around_of_length hextent' (length_pos hmax hmin hextent' hlt)
      by_cases hside : r.max < 0
      · rw [if_pos hside]
        exact hleft
      · rw [if_neg hside]
        exact hright
    · rw [if_neg hswapped]
      have hlt : value r.min < value r.max := lt_of_le_of_ne (not_lt.1 (mt (lt_iff hmax hmin).2 hswapped)) hne
      obtain ⟨hright, hleft⟩ := around_of_length hextent (length_pos hmin hmax hextent hlt)
      by_cases hpos : 0 < r.min ∧ 0 < r.max
      · rw [if_pos hpos]
        exact hright
      · rw [if_neg hpos]
        by_cases hneg : r.min < 0 ∧ r.max < 0
        · rw [if_pos hneg]
          exact hleft
        · rw [if_neg hneg]
          rw [pos_iff hmin, pos_iff hmax] at hpos
          rw [neg_iff hmin, neg_iff hmax] at hneg
          refine ⟨⟨hmin, hmax⟩, ⟨?_, ?_⟩, hlt, hextent⟩
          · by_contra hminpos
            exact hpos ⟨not_le.1 hminpos, (not_le.1 hminpos).trans hlt⟩
          · by_contra hmaxneg
            exact hneg ⟨hlt.trans (not_le.1 hmaxneg), not_le.1 hmaxneg⟩

/-- A range around the origin still is one when its ends have been moved, if its length is still within the range of the
doubles. -/
theorem Around.around_snapped (h : Around r) (hextent : (snapped u r.max - snapped u r.min).isFinite = true) :
    Around ⟨snapped u r.min, snapped u r.max⟩ := by
  obtain ⟨hmin, hmax⟩ := h.finite
  obtain ⟨hle, hge⟩ := h.origin
  obtain ⟨-, hlow, -⟩ := snapped_side (u := u) hmin
  obtain ⟨hhigh, -, -⟩ := snapped_side (u := u) hmax
  have hnonempty := h.nonempty
  have hleft : value (snapped u r.min) ≤ 0 := snapped_nonpos hmin hle
  have hright : 0 ≤ value (snapped u r.max) := snapped_nonneg hmax hge
  refine ⟨⟨isFinite_snapped hmin, isFinite_snapped hmax⟩, ⟨hleft, hright⟩, ?_, hextent⟩
  show value (snapped u r.min) < value (snapped u r.max)
  rcases lt_or_eq_of_le hle with hneg | hzero
  · exact lt_of_lt_of_le (hlow hneg) hright
  · have hpos : 0 < value r.max := by linarith
    exact lt_of_le_of_lt hleft (hhigh hpos)

/-- In inches an end that is moved is not large. -/
theorem OffGrid.abs_snapped_le {x : Float} (h : OffGrid .imperial x) : |value (snapped .imperial x)| ≤ 2 ^ 51 := by
  obtain ⟨k, hk, hk53⟩ := h.count_le
  have hcast : |(k : Rat)| ≤ 2 ^ 53 := by exact_mod_cast hk53
  rw [h.inches.2, hk, abs_div, abs_of_pos (by norm_num : (0 : Rat) < 4)]
  linarith

/-- So the length is still within the range of the doubles. -/
theorem Around.isFinite_extent_imperial (h : Around r) :
    (snapped .imperial r.max - snapped .imperial r.min).isFinite = true := by
  obtain ⟨hmin, hmax⟩ := h.finite
  obtain ⟨hfmin, -⟩ := snapped_snapped_imperial hmin
  obtain ⟨hfmax, -⟩ := snapped_snapped_imperial hmax
  have hgmin := abs_value_le_greatest hfmin
  have hgmax := abs_value_le_greatest hfmax
  have hrounds := sub_rounds hfmax hfmin
  have hlimit : (2 : Rat) * 2 ^ 51 < unit 971 := by
    calc (2 : Rat) * 2 ^ 51 = unit 52 := by rw [← pow_succ']; exact (unit_natCast 52).symm
      _ < unit 971 := unit_lt_unit (by decide)
  have htriangle := abs_sub (value (snapped .imperial r.max)) (value (snapped .imperial r.min))
  rcases snapped_eq_self_or .imperial hmin with hkeepmin | hoff
  · rcases snapped_eq_self_or .imperial hmax with hkeepmax | hoff
    · rw [hkeepmin, hkeepmax]
      exact h.extent
    · have hsmall := hoff.abs_snapped_le
      exact hrounds.isFinite_of_le_add hlimit (by linarith)
  · have hsmall := hoff.abs_snapped_le
    exact hrounds.isFinite_of_le_add hlimit (by linarith)

end Ranges

/-! ## Normalizing twice -/

section Same

variable {α : Type} [Scalar α]

/-- Whether the ends of two ranges are equal. -/
def Range.same (r s : Range α) : Bool := Scalar.eq r.min s.min && Scalar.eq r.max s.max

/-- Whether the ranges of two bounds are equal. -/
def Bounds.same (b c : Bounds α) : Bool := b.x.same c.x && b.y.same c.y && b.z.same c.z

end Same

/-- In millimetres, the length of a normalized range is within the range of the doubles and the magnitudes of its ends
are settled; in inches nothing is asked. -/
def Settled (u : UnitSystem) (r : Range Float) : Prop :=
  u = .metric → r.extent.isFinite = true ∧ ¬ Unsettled r.min ∧ ¬ Unsettled r.max

instance (u : UnitSystem) (r : Range Float) : Decidable (Settled u r) := inferInstanceAs (Decidable (_ → _))

theorem Range.normalize_eq_snapped (u : UnitSystem) (r : Range Float) :
    r.normalize defaultSpan u.increment u.precision =
      ⟨snapped u (anchor defaultSpan r).min, snapped u (anchor defaultSpan r).max⟩ := rfl

/-- A settled end is moved to itself. -/
theorem eq_snapped_snapped {u : UnitSystem} {x : Float} (hx : x.isFinite = true) (hy : (snapped u x).isFinite = true)
    (hsettled : u = .metric → ¬ Unsettled (snapped u x)) :
    Scalar.eq (snapped u (snapped u x)) (snapped u x) = true := by
  have htwice : (snapped u (snapped u x)).isFinite = true ∧ value (snapped u (snapped u x)) = value (snapped u x) := by
    cases u with
    | imperial =>
      obtain ⟨hfinite, hkeep⟩ := snapped_snapped_imperial hx
      rw [hkeep]
      exact ⟨hfinite, rfl⟩
    | metric => exact snapped_snapped_metric hx hy (hsettled rfl)
  exact (beq_iff htwice.1 hy).2 htwice.2

/-- A settled range is normalized to itself. -/
theorem Range.normalize_twice (u : UnitSystem) (r : Range Float)
    (h : Settled u (r.normalize defaultSpan u.increment u.precision)) :
    ((r.normalize defaultSpan u.increment u.precision).normalize defaultSpan u.increment u.precision).same
      (r.normalize defaultSpan u.increment u.precision) = true := by
  have haround := around_anchor r
  obtain ⟨hmin, hmax⟩ := haround.finite
  rw [normalize_eq_snapped u r] at h ⊢
  have hextent : (snapped u (anchor defaultSpan r).max - snapped u (anchor defaultSpan r).min).isFinite = true := by
    cases u with
    | imperial => exact haround.isFinite_extent_imperial
    | metric => exact (h rfl).1
  obtain ⟨hfmax, hfmin⟩ := isFinite_of_sub hextent
  rw [normalize_eq_snapped, (haround.around_snapped hextent).anchor_eq_self, Range.same, Bool.and_eq_true]
  exact ⟨eq_snapped_snapped hmin hfmin fun hu => (h hu).2.1, eq_snapped_snapped hmax hfmax fun hu => (h hu).2.2⟩

/-- **Normalizing twice gives what normalizing once gives**, for all doubles in inches. In millimetres it does where the
result is settled: its ends are below `2 ^ 55` or large enough for a twentieth of them to be rounded to whole numbers,
and its length is within the range of the doubles. -/
theorem Bounds.normalize_normalize (u : UnitSystem) (b : Bounds Float)
    (h : Settled u (b.normalize defaultSpan u).x ∧ Settled u (b.normalize defaultSpan u).y ∧
      Settled u (b.normalize defaultSpan u).z) :
    ((b.normalize defaultSpan u).normalize defaultSpan u).same (b.normalize defaultSpan u) = true := by
  obtain ⟨hx, hy, hz⟩ := h
  rw [Bounds.same, Bool.and_eq_true, Bool.and_eq_true]
  exact ⟨⟨b.x.normalize_twice u hx, b.y.normalize_twice u hy⟩, b.z.normalize_twice u hz⟩

/-- Bounds in millimetres below `2 ^ 55`, without a length, and far beyond `2 ^ 57`. -/
theorem Bounds.normalize_normalize_far :
    (((⟨⟨-13, 77⟩, ⟨0 / 0, 1 / 0⟩, ⟨-3e300, 144115188075855873⟩⟩ : Bounds Float).normalize
      defaultSpan .metric).normalize defaultSpan .metric).same
      ((⟨⟨-13, 77⟩, ⟨0 / 0, 1 / 0⟩, ⟨-3e300, 144115188075855873⟩⟩ : Bounds Float).normalize
        defaultSpan .metric) = true :=
  Bounds.normalize_normalize .metric ⟨⟨-13, 77⟩, ⟨0 / 0, 1 / 0⟩, ⟨-3e300, 144115188075855873⟩⟩ (by decide +kernel)

/-- Where they are not settled, normalized bounds may be moved again. -/
theorem Bounds.exists_normalize_normalize_ne : ¬ ∀ (u : UnitSystem) (b : Bounds Float),
    ((b.normalize defaultSpan u).normalize defaultSpan u).same (b.normalize defaultSpan u) = true := by
  intro h
  have honce : (⟨⟨0, 45035996273704936⟩, ⟨0, 20⟩, ⟨0, 20⟩⟩ : Bounds Float).normalize defaultSpan .metric =
      ⟨⟨0, 45035996273704944⟩, ⟨0, 20⟩, ⟨0, 20⟩⟩ := by decide +kernel
  have htwice : (⟨⟨0, 45035996273704944⟩, ⟨0, 20⟩, ⟨0, 20⟩⟩ : Bounds Float).normalize defaultSpan .metric =
      ⟨⟨0, 45035996273704960⟩, ⟨0, 20⟩, ⟨0, 20⟩⟩ := by decide +kernel
  have hsame := h .metric ⟨⟨0, 45035996273704936⟩, ⟨0, 20⟩, ⟨0, 20⟩⟩
  rw [honce, htwice] at hsame
  exact absurd hsame (by decide +kernel)

end SolidScript.Overlay
