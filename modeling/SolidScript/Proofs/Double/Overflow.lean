import SolidScript.Proofs.Double.Arithmetic
import SolidScript.Proofs.Double.Interval
import SolidScript.Proofs.Scalar.Order

/-!
# Results beyond the range

* A double that is not finite is an infinity or no number (`eq_nan_or_infinity`). A value beyond the range is rounded to
  the infinity of its sign (`RoundsEven.eq_infinity`, `RoundsEven.eq_neg_infinity`).
* Rounding is monotone (`RoundsEven.value_le`). So a value between two that are rounded to finite doubles is rounded to
  a finite double between these (`RoundsEven.between`).
* What is left of a measure when another is taken from it stays within the range (`nonNegative_sub`).
* Sums, products and quotients of doubles of bounded magnitude are finite, with bounds of their own (`Within`).
-/

namespace SolidScript.Double

open Float.Model (Format UnpackedFloat)
open Float.Model.UnpackedFloat

/-! ## Infinities -/

/-- An infinity. -/
def infinity (s : Sign) : Float := packed (.infinity s)

/-- What is no number. -/
def nan : Float := packed .notANumber

theorem eq_nan_or_infinity {x : Float} (hx : x.isFinite = false) : x = nan ∨ ∃ s, x = infinity s := by
  have hunpack : x.toModel.unpack.isFinite = false := hx
  rw [← packed_unpack x]
  cases hux : x.toModel.unpack with
  | notANumber => exact .inl rfl
  | infinity s => exact .inr ⟨s, rfl⟩
  | zero => rw [hux] at hunpack; cases hunpack
  | finite => rw [hux] at hunpack; cases hunpack

theorem isFinite_infinity (s : Sign) : (infinity s).isFinite = false := isFinite_packed_eq_false rfl

/-- Zero is between the infinities. -/
theorem zero_between_infinities : infinity .negative < 0 ∧ (0 : Float) < infinity .positive := by
  decide +kernel

/-- Nothing that is taken from the infinity makes the difference negative. -/
theorem not_infinity_sub_lt (y : Float) : ¬ infinity .positive - y < 0 := by
  have hdifference : infinity .positive - y = nan ∨ infinity .positive - y = infinity .positive := by
    have hsub : infinity .positive - y =
        packed (UnpackedFloat.sub Format.binary64 (.infinity .positive) y.toModel.unpack) := rfl
    rw [hsub]
    cases y.toModel.unpack with
    | notANumber => exact .inl rfl
    | infinity s =>
      cases s with
      | positive => exact .inl rfl
      | negative => exact .inr rfl
    | zero => exact .inr rfl
    | finite => exact .inr rfl
  rcases hdifference with h | h <;> rw [h] <;> decide +kernel

namespace RoundsEven

variable {v v' : Rat} {x x' : Float} (h : RoundsEven v x)
include h

theorem exists_infinity (hx : x.isFinite = false) : ∃ s, v = factor s * |v| ∧ 0 < |v| ∧ x = infinity s := by
  have hlarge := mt h.isFinite_iff.2 (Bool.eq_false_iff.1 hx)
  obtain ⟨s, n, t, hv, hrounded, rfl⟩ := h
  have ht : 971 < t := by
    by_contra ht
    exact hlarge (hrounded.lt_limit (not_lt.1 ht))
  have hlimit : 0 < limit := by
    have hadd := limit_add
    have hunit : unit 970 < unit 1024 := unit_lt_unit (by omega)
    linarith
  refine ⟨s, hv, lt_of_lt_of_le hlimit (not_lt.1 hlarge), ?_⟩
  rw [← packed_unpack (packed (assemble s n t))]
  exact congrArg packed (unpack_pack_overflow s hrounded.canonical ht)

/-- A value above the range is rounded to the positive infinity. -/
theorem eq_infinity (hx : x.isFinite = false) (hv : 0 ≤ v) : x = infinity .positive := by
  obtain ⟨s, hsign, hpos, hxs⟩ := h.exists_infinity hx
  cases s with
  | positive => exact hxs
  | negative =>
    simp only [factor] at hsign
    linarith

/-- A value below the range is rounded to the negative infinity. -/
theorem eq_neg_infinity (hx : x.isFinite = false) (hv : v ≤ 0) : x = infinity .negative := by
  obtain ⟨s, hsign, hpos, hxs⟩ := h.exists_infinity hx
  cases s with
  | negative => exact hxs
  | positive =>
    simp only [factor] at hsign
    linarith

/-! ## Order -/

/-- A value is rounded to one value. -/
theorem value_eq (h' : RoundsEven v x') : value x = value x' := by
  obtain ⟨s, n, t, hv, hrounded, rfl⟩ := h
  obtain ⟨s', n', t', hv', hrounded', rfl⟩ := h'
  obtain ⟨rfl, rfl⟩ := hrounded.unique hrounded'
  by_cases h0 : v = 0
  · -- only the sign of a zero is left open
    have hzero := hrounded.nearest.eq_self (by rw [h0, abs_zero]; exact .zero)
    rw [h0, abs_zero, mul_eq_zero, Nat.cast_eq_zero, or_iff_left (unit_pos t).ne'] at hzero
    subst hzero
    have ht := hrounded.canonical.lower.resolve_left (by omega)
    rw [value_packed s hrounded.canonical (by omega), value_packed s' hrounded.canonical (by omega)]
    simp
  · have hs : factor s = factor s' := mul_right_cancel₀ (abs_ne_zero.2 h0) (hv.symm.trans hv')
    cases s <;> cases s' <;> first | rfl | exact absurd hs (by norm_num [factor])

/-- **Rounding is monotone.** -/
theorem value_le (h' : RoundsEven v' x') (hle : v ≤ v') (hx : x.isFinite = true) (hx' : x'.isFinite = true) :
    value x ≤ value x' := by
  rcases hle.eq_or_lt with rfl | hlt
  · exact (h.value_eq h').le
  · exact (h.roundsTo.nearest hx).le_of_lt (h'.roundsTo.nearest hx') hlt

/-- **A value between two that are rounded to finite doubles is rounded to a finite double between these.** -/
theorem between {v₀ v₁ : Rat} {x₀ x₁ : Float} (h₀ : RoundsEven v₀ x₀) (h₁ : RoundsEven v₁ x₁)
    (hv : v ∈ Set.uIcc v₀ v₁) (hx₀ : x₀.isFinite = true) (hx₁ : x₁.isFinite = true) :
    x.isFinite = true ∧ value x ∈ Set.uIcc (value x₀) (value x₁) := by
  have hlimit : max |v₀| |v₁| < limit := max_lt (h₀.isFinite_iff.1 hx₀) (h₁.isFinite_iff.1 hx₁)
  rcases Set.mem_uIcc.1 hv with ⟨hlow, hhigh⟩ | ⟨hlow, hhigh⟩
  · have hx := h.isFinite_iff.2 (lt_of_le_of_lt (abs_le_max_abs_abs hlow hhigh) hlimit)
    exact ⟨hx, Set.mem_uIcc.2 (.inl ⟨h₀.value_le h hlow hx₀ hx, h.value_le h₁ hhigh hx hx₁⟩)⟩
  · rw [max_comm] at hlimit
    have hx := h.isFinite_iff.2 (lt_of_le_of_lt (abs_le_max_abs_abs hlow hhigh) hlimit)
    exact ⟨hx, Set.mem_uIcc.2 (.inr ⟨h₁.value_le h hlow hx₁ hx, h.value_le h₀ hhigh hx hx₀⟩)⟩

end RoundsEven

/-! ## Clamping at zero -/

theorem isFinite_nonNegative {x : Float} (hx : x.isFinite = true) :
    (Scalar.nonNegative x).isFinite = true ∧ value (Scalar.nonNegative x) = max (value x) 0 :=
  reading.nonNegative hx

theorem nonNegative_infinities : Scalar.nonNegative (infinity .negative) = 0 ∧
    Scalar.nonNegative (infinity .positive) = infinity .positive := by
  decide +kernel

theorem two_spec : (2 : Float).isFinite = true ∧ value 2 = 2 := by decide +kernel

theorem sub_infinity {x : Float} (hx : x.isFinite = true) : x - infinity .positive = infinity .negative := by
  have hunpack : x.toModel.unpack.isFinite = true := hx
  have hsub : x - infinity .positive =
      packed (UnpackedFloat.sub Format.binary64 x.toModel.unpack (.infinity .positive)) := rfl
  rw [hsub]
  cases hux : x.toModel.unpack with
  | notANumber => rw [hux] at hunpack; cases hunpack
  | infinity => rw [hux] at hunpack; cases hunpack
  | zero => rfl
  | finite => rfl

/-- A difference that is kept from falling below zero is beyond the range on one side only. -/
theorem nonNegative_sub_finite_or_infinity {x y : Float} (hx : x.isFinite = true) (hy : y.isFinite = true) :
    (Scalar.nonNegative (x - y)).isFinite = true ∨ Scalar.nonNegative (x - y) = infinity .positive := by
  cases hfinite : (x - y).isFinite with
  | true => exact .inl (isFinite_nonNegative hfinite).1
  | false =>
    obtain ⟨s, -, -, hinfinity⟩ := (sub_roundsEven hx hy).exists_infinity hfinite
    rw [hinfinity]
    cases s with
    | positive => exact .inr nonNegative_infinities.2
    | negative =>
      rw [nonNegative_infinities.1]
      exact .inl value_zero.1

theorem greatest_lt_limit : greatest < limit := by
  have hunit := unit_pos 970
  rw [limit]
  linarith

/-- What is left of a measure when another is taken from it. Only below zero it may be beyond the range. -/
theorem nonNegative_sub {x y : Float} (hx : x.isFinite = true) (hy : y.isFinite = true) (hy0 : 0 ≤ value y) :
    (Scalar.nonNegative (x - y)).isFinite = true ∧ 0 ≤ value (Scalar.nonNegative (x - y)) ∧
      value (Scalar.nonNegative (x - y)) ≤ max (value x) 0 := by
  have hrounds := sub_roundsEven hx hy
  have hle : value x - value y ≤ value x := by linarith
  cases hfinite : (x - y).isFinite with
  | true =>
    obtain ⟨hresult, hvalue⟩ := isFinite_nonNegative hfinite
    have hdifference := (hrounds.roundsTo.nearest hfinite).ge_of_ge (representable_value x) hle
    rw [hvalue]
    exact ⟨hresult, le_max_right _ _, max_le_max hdifference le_rfl⟩
  | false =>
    have hnegative : value x - value y ≤ 0 := by
      by_contra hpos
      rw [not_le] at hpos
      have hsmall : |value x - value y| < limit := by
        rw [abs_of_pos hpos]
        linarith [le_abs_self (value x), abs_value_le_greatest hx, greatest_lt_limit]
      rw [hrounds.isFinite_iff.2 hsmall] at hfinite
      cases hfinite
    rw [hrounds.eq_neg_infinity hfinite hnegative, nonNegative_infinities.1]
    obtain ⟨hzero, hvalue⟩ := value_zero
    exact ⟨hzero, hvalue.ge, hvalue.le.trans (le_max_right _ _)⟩

/-! ## Magnitudes -/

/-- A finite double of a magnitude of at most `2 ^ k`. -/
structure Within (k : Int) (x : Float) : Prop where
  finite : x.isFinite = true
  le : |value x| ≤ unit k

namespace Within

variable {j k : Int} {x y : Float}

theorem mono (hx : Within j x) (h : j ≤ k) : Within k x := ⟨hx.finite, hx.le.trans (unit_le_unit h)⟩

theorem of_rounds {v : Rat} (h : RoundsTo v x) (hlow : 0 ≤ k) (hhigh : k ≤ 1023) (hle : |v| ≤ unit k) : Within k x := by
  obtain ⟨hx, hvalue⟩ := h.within (by omega) hhigh hle
  exact ⟨hx, hvalue⟩

theorem add (hx : Within k x) (hy : Within k y) (hlow : 0 ≤ k) (hhigh : k ≤ 1022) : Within (k + 1) (x + y) := by
  refine of_rounds (add_roundsEven hx.finite hy.finite).roundsTo (by omega) (by omega) ?_
  rw [unit_succ]
  linarith [abs_add_le (value x) (value y), hx.le, hy.le]

theorem sub (hx : Within k x) (hy : Within k y) (hlow : 0 ≤ k) (hhigh : k ≤ 1022) : Within (k + 1) (x - y) := by
  refine of_rounds (sub_rounds hx.finite hy.finite) (by omega) (by omega) ?_
  rw [unit_succ]
  linarith [abs_sub (value x) (value y), hx.le, hy.le]

theorem mul (hx : Within j x) (hy : Within k y) (hlow : 0 ≤ j + k) (hhigh : j + k ≤ 1023) : Within (j + k) (x * y) := by
  refine of_rounds (mul_rounds hx.finite hy.finite) hlow hhigh ?_
  rw [abs_mul, unit_add]
  exact mul_le_mul hx.le hy.le (abs_nonneg _) (unit_pos _).le

/-- A divisor of at least one makes nothing greater. -/
theorem div (hx : Within k x) (hy : y.isFinite = true) (hone : 1 ≤ |value y|) (hlow : 0 ≤ k) (hhigh : k ≤ 1023) :
    Within k (x / y) := by
  have h0 : value y ≠ 0 := abs_pos.1 (by linarith)
  refine of_rounds (div_rounds hx.finite hy h0) hlow hhigh ?_
  rw [abs_div]
  exact (div_le_self (abs_nonneg _) hone).trans hx.le

theorem two : Within 1 (2 : Float) := by
  refine ⟨two_spec.1, ?_⟩
  rw [two_spec.2]
  norm_num [unit]

theorem half (hx : Within k x) (hlow : 0 ≤ k) (hhigh : k ≤ 1023) : Within k (x / 2) := by
  refine hx.div two_spec.1 ?_ hlow hhigh
  rw [two_spec.2]
  norm_num

end Within

/-- Half of a measure is within the range, whatever its magnitude. -/
theorem isFinite_half {x : Float} (hx : x.isFinite = true) : (x / 2).isFinite = true := by
  refine isFinite_div hx two_spec.1 ?_
  rw [two_spec.2]
  norm_num

end SolidScript.Double
