import SolidScript.Proofs.Double.Value

/-!
# Arithmetic of doubles

The arithmetic of doubles is that of their values with one rounding.

* On canonical magnitudes: `mul_assemble`, `div_assemble` and `sub_assemble`.
* On doubles: `mul_roundsEven`, `div_roundsEven`, `sub_roundsEven` and `add_roundsEven`; the sign is changed exactly
  (`value_neg`).
* A finite result tells that the operands were finite (`isFinite_of_sub`, `isFinite_of_add`, `isFinite_of_mul`), or at
  least the dividend (`isFinite_of_div`).
-/

namespace SolidScript.Double

open Float.Model (Format UnpackedFloat totalExponent)
open Float.Model.UnpackedFloat

/-! ## Canonical magnitudes -/

theorem div_assemble {n₁ n₂ : Nat} (t₁ t₂ : Int) (hpos₂ : 0 < n₂) :
    ∃ n t, Rounded (n₁ * unit t₁ / (n₂ * unit t₂)) n t ∧
      ∀ s₁ s₂, UnpackedFloat.div Format.binary64 (assemble s₁ n₁ t₁) (assemble s₂ n₂ t₂) = assemble (s₁ / s₂) n t := by
  rcases Nat.eq_zero_or_pos n₁ with rfl | hpos₁
  · refine ⟨0, -1074, by simpa using Rounded.zero, fun s₁ s₂ => ?_⟩
    rw [assemble_zero, assemble_pos s₂ t₂ hpos₂]
    rfl
  · obtain ⟨n, t, hrounded, hround⟩ := divCore_spec hpos₁ hpos₂ t₁ t₂
    refine ⟨n, t, hrounded, fun s₁ s₂ => ?_⟩
    rw [assemble_pos s₁ t₁ hpos₁, assemble_pos s₂ t₂ hpos₂]
    exact hround (s₁ / s₂)

theorem cast_apply (s : Sign) (m : Nat) : ((s.apply m : Int) : Rat) = factor s * m := by
  cases s <;> simp [Sign.apply, factor]

/-- Lowering the exponent keeps the value. -/
theorem shiftLeft_mul_unit (n : Nat) {t e : Int} (h : e ≤ t) :
    ((n <<< (t - e).toNat : Nat) : Rat) * unit e = n * unit t := by
  have hunit : unit t = 2 ^ (t - e).toNat * unit e := by
    rw [← unit_natCast, ← unit_add]
    congr 1
    omega
  rw [hunit, Nat.shiftLeft_eq]
  push_cast
  ring

theorem normalize_natCast {m : Nat} (hm : 0 < m) (e : Int) (z : Sign) :
    UnpackedFloat.normalize Format.binary64 m e z = UnpackedFloat.round Format.binary64 .positive m e := by
  have hcmp : compare (m : Int) 0 = .gt := Int.compare_eq_gt.2 (by omega)
  rw [UnpackedFloat.normalize, hcmp]
  rfl

theorem normalize_neg_natCast {m : Nat} (hm : 0 < m) (e : Int) (z : Sign) :
    UnpackedFloat.normalize Format.binary64 (-m) e z = UnpackedFloat.round Format.binary64 .negative m e := by
  have hcmp : compare (-(m : Int)) 0 = .lt := Int.compare_eq_lt.2 (by omega)
  rw [UnpackedFloat.normalize, hcmp]
  simp

/-- A whole number of units is rounded to its sign and a magnitude; zero gets the sign that is given for it. -/
theorem normalize_spec (d e : Int) (z : Sign) : ∃ s n t, (d : Rat) * unit e = factor s * |(d : Rat) * unit e| ∧
    Rounded |(d : Rat) * unit e| n t ∧ UnpackedFloat.normalize Format.binary64 d e z = assemble s n t := by
  have hunit := (unit_pos e).le
  obtain ⟨m, rfl | rfl⟩ := Int.eq_nat_or_neg d
  · have habs : |((m : Int) : Rat) * unit e| = m * unit e := by
      rw [Int.cast_natCast, abs_of_nonneg (mul_nonneg (Nat.cast_nonneg m) hunit)]
    rw [habs, Int.cast_natCast]
    rcases Nat.eq_zero_or_pos m with rfl | hm
    · exact ⟨z, 0, -1074, by simp, by simpa using Rounded.zero, rfl⟩
    · obtain ⟨n, t, hrounded, hround⟩ := round_spec hm e
      refine ⟨.positive, n, t, by rw [factor, one_mul], hrounded, ?_⟩
      rw [normalize_natCast hm, hround]
  · have habs : |((-(m : Int) : Int) : Rat) * unit e| = m * unit e := by
      rw [Int.cast_neg, Int.cast_natCast, neg_mul, abs_neg, abs_of_nonneg (mul_nonneg (Nat.cast_nonneg m) hunit)]
    rw [habs, Int.cast_neg, Int.cast_natCast]
    rcases Nat.eq_zero_or_pos m with rfl | hm
    · exact ⟨z, 0, -1074, by simp, by simpa using Rounded.zero, rfl⟩
    · obtain ⟨n, t, hrounded, hround⟩ := round_spec hm e
      refine ⟨.negative, n, t, by rw [factor, neg_one_mul, neg_mul], hrounded, ?_⟩
      rw [normalize_neg_natCast hm, hround]

section Unpacked

variable {n₁ n₂ : Nat} {t₁ t₂ : Int} (h₁ : Canonical n₁ t₁) (h₂ : Canonical n₂ t₂)
include h₁ h₂

theorem mul_assemble : ∃ n t, Rounded (n₁ * unit t₁ * (n₂ * unit t₂)) n t ∧
    ∀ s₁ s₂, UnpackedFloat.mul Format.binary64 (assemble s₁ n₁ t₁) (assemble s₂ n₂ t₂) = assemble (s₁ * s₂) n t := by
  rcases Nat.eq_zero_or_pos n₁ with rfl | hpos₁
  · refine ⟨0, -1074, by simpa using Rounded.zero, fun s₁ s₂ => ?_⟩
    rcases Nat.eq_zero_or_pos n₂ with rfl | hpos₂
    · rfl
    · rw [assemble_zero, assemble_pos s₂ t₂ hpos₂]
      rfl
  · rcases Nat.eq_zero_or_pos n₂ with rfl | hpos₂
    · refine ⟨0, -1074, by simpa using Rounded.zero, fun s₁ s₂ => ?_⟩
      rw [assemble_zero, assemble_pos s₁ t₁ hpos₁]
      rfl
    · have htarget : t₁ + t₂ ≤ target (n₁ * n₂) (t₁ + t₂) := by
        rw [target_eq]
        by_cases hlong : 2 ^ 52 ≤ n₁ * n₂
        · have hlog : 52 ≤ (n₁ * n₂).log2 := (Nat.le_log2 (by omega)).2 hlong
          omega
        · have hle₁ : n₁ ≤ n₁ * n₂ := Nat.le_mul_of_pos_right _ hpos₂
          have hle₂ : n₂ ≤ n₁ * n₂ := Nat.le_mul_of_pos_left _ hpos₁
          have ht₁ := h₁.lower.resolve_left (by omega)
          have ht₂ := h₂.lower.resolve_left (by omega)
          omega
      have hstands : Stands (ExtendedMantissa.ofMantissaAndAccuracy (n₁ * n₂) .exact) (n₁ * n₂) := by
        simp [Stands, ExtendedMantissa.ofMantissaAndAccuracy]
      obtain ⟨n, t, hrounded, hround⟩ := roundWithAccuracy_spec hstands htarget
      refine ⟨n, t, ?_, fun s₁ s₂ => ?_⟩
      · have hvalue : (n₁ : Rat) * unit t₁ * (n₂ * unit t₂) = n₁ * n₂ * unit (t₁ + t₂) := by
          rw [unit_add]
          ring
        rwa [hvalue]
      · rw [assemble_pos s₁ t₁ hpos₁, assemble_pos s₂ t₂ hpos₂]
        exact hround (s₁ * s₂)

theorem sub_assemble (s₁ s₂ : Sign) {v : Rat} (hv : v = factor s₁ * (n₁ * unit t₁) - factor s₂ * (n₂ * unit t₂)) :
    ∃ s n t, v = factor s * |v| ∧ Rounded |v| n t ∧
      UnpackedFloat.sub Format.binary64 (assemble s₁ n₁ t₁) (assemble s₂ n₂ t₂) = assemble s n t := by
  rcases Nat.eq_zero_or_pos n₁ with rfl | hpos₁
  · rcases Nat.eq_zero_or_pos n₂ with rfl | hpos₂
    · obtain rfl : v = 0 := by simp [hv]
      have hzero : (0 : Rat) = |0| := abs_zero.symm
      cases s₁ <;> cases s₂ <;> exact ⟨_, 0, -1074, by simp, hzero ▸ Rounded.zero, rfl⟩
    · have hopposite : v = factor (-s₂) * (n₂ * unit t₂) := by
        rw [hv, factor_neg]
        simp
      have habs : |v| = n₂ * unit t₂ := by rw [hopposite, abs_factor_mul]
      refine ⟨-s₂, n₂, t₂, ?_, ?_, ?_⟩
      · rw [habs, hopposite]
      · rw [habs]
        exact h₂.rounded
      · rw [assemble_zero, assemble_pos s₂ t₂ hpos₂, assemble_pos (-s₂) t₂ hpos₂]
        rfl
  · rcases Nat.eq_zero_or_pos n₂ with rfl | hpos₂
    · have hsame : v = factor s₁ * (n₁ * unit t₁) := by simp [hv]
      have habs : |v| = n₁ * unit t₁ := by rw [hsame, abs_factor_mul]
      refine ⟨s₁, n₁, t₁, ?_, ?_, ?_⟩
      · rw [habs, hsame]
      · rw [habs]
        exact h₁.rounded
      · rw [assemble_zero, assemble_pos s₁ t₁ hpos₁]
        rfl
    · -- Both significands are counted in the smaller of the two units.
      obtain ⟨e, he⟩ : ∃ e, e = min t₁ t₂ := ⟨_, rfl⟩
      obtain ⟨d, hd⟩ : ∃ d : Int, d = s₁.apply (n₁ <<< (t₁ - e).toNat : Nat) - s₂.apply (n₂ <<< (t₂ - e).toNat : Nat) :=
        ⟨_, rfl⟩
      have hvalue : v = (d : Rat) * unit e := by
        rw [hv, hd, ← shiftLeft_mul_unit n₁ (by omega : e ≤ t₁), ← shiftLeft_mul_unit n₂ (by omega : e ≤ t₂),
          Int.cast_sub, cast_apply, cast_apply]
        ring
      obtain ⟨s, n, t, hsign, hrounded, hround⟩ := normalize_spec d e .positive
      rw [← hvalue] at hsign hrounded
      refine ⟨s, n, t, hsign, hrounded, ?_⟩
      rw [assemble_pos s₁ t₁ hpos₁, assemble_pos s₂ t₂ hpos₂, ← hround, hd, he]
      rfl

end Unpacked

/-! ## Rounded results -/

section Arithmetic

variable {x y : Float} (hx : x.isFinite = true) (hy : y.isFinite = true)
include hx hy

theorem mul_roundsEven : RoundsEven (value x * value y) (x * y) := by
  obtain ⟨s₁, n₁, t₁, h₁, -, hux⟩ := exists_assemble hx
  obtain ⟨s₂, n₂, t₂, h₂, -, huy⟩ := exists_assemble hy
  obtain ⟨n, t, hrounded, hmul⟩ := mul_assemble h₁ h₂
  have hresult : x * y = packed (assemble (s₁ * s₂) n t) := by
    rw [← hmul, ← hux, ← huy]
    rfl
  have hvalue : value x * value y = factor (s₁ * s₂) * (n₁ * unit t₁ * (n₂ * unit t₂)) := by
    rw [value, value, hux, huy, unpackedValue_assemble, unpackedValue_assemble, factor_mul]
    ring
  have hunit₁ := unit_pos t₁
  have hunit₂ := unit_pos t₂
  rw [hresult, hvalue]
  exact .mk _ (by positivity) hrounded

theorem div_roundsEven (h0 : value y ≠ 0) : RoundsEven (value x / value y) (x / y) := by
  obtain ⟨s₁, n₁, t₁, -, -, hux⟩ := exists_assemble hx
  obtain ⟨s₂, n₂, t₂, hpos₂, huy⟩ := exists_assemble_of_ne_zero hy h0
  obtain ⟨n, t, hrounded, hdiv⟩ := @div_assemble n₁ n₂ t₁ t₂ hpos₂
  have hresult : x / y = packed (assemble (s₁ / s₂) n t) := by
    rw [← hdiv, ← hux, ← huy]
    rfl
  have hvalue : value x / value y = factor (s₁ / s₂) * (n₁ * unit t₁ / (n₂ * unit t₂)) := by
    rw [value, value, hux, huy, unpackedValue_assemble, unpackedValue_assemble, factor_div, mul_div_mul_comm]
  have hunit₁ := unit_pos t₁
  have hunit₂ := unit_pos t₂
  rw [hresult, hvalue]
  exact .mk _ (by positivity) hrounded

theorem sub_roundsEven : RoundsEven (value x - value y) (x - y) := by
  obtain ⟨s₁, n₁, t₁, h₁, -, hux⟩ := exists_assemble hx
  obtain ⟨s₂, n₂, t₂, h₂, -, huy⟩ := exists_assemble hy
  have hvalue : value x - value y = factor s₁ * (n₁ * unit t₁) - factor s₂ * (n₂ * unit t₂) := by
    rw [value, value, hux, huy, unpackedValue_assemble, unpackedValue_assemble]
  obtain ⟨s, n, t, hsign, hrounded, hsub⟩ := sub_assemble h₁ h₂ s₁ s₂ hvalue
  refine ⟨s, n, t, hsign, hrounded, ?_⟩
  rw [← hsub, ← hux, ← huy]
  rfl

theorem mul_rounds : RoundsTo (value x * value y) (x * y) := (mul_roundsEven hx hy).roundsTo

theorem div_rounds (h0 : value y ≠ 0) : RoundsTo (value x / value y) (x / y) := (div_roundsEven hx hy h0).roundsTo

theorem sub_rounds : RoundsTo (value x - value y) (x - y) := (sub_roundsEven hx hy).roundsTo

/-- The order of a subtraction does not matter for whether the difference is within the range. -/
theorem isFinite_sub_comm : (x - y).isFinite = (y - x).isFinite := by
  rw [Bool.eq_iff_iff, (sub_roundsEven hx hy).isFinite_iff, (sub_roundsEven hy hx).isFinite_iff, abs_sub_comm]

end Arithmetic

/-! ## Signs -/

theorem neg_assemble (s : Sign) (n : Nat) (t : Int) : UnpackedFloat.neg (assemble s n t) = assemble (-s) n t := by
  unfold assemble
  split <;> rfl

theorem neg_packed (s : Sign) {n : Nat} {t : Int} (h : Canonical n t) (ht : t ≤ 971) :
    -packed (assemble s n t) = packed (assemble (-s) n t) := by
  show packed (unpack Format.binary64 (pack Format.binary64 (assemble s n t))).neg = _
  rw [unpack_pack_assemble s h ht, neg_assemble]

section Neg

variable {x : Float} (hx : x.isFinite = true)
include hx

theorem neg_eq_packed : ∃ s n t, Canonical n t ∧ t ≤ 971 ∧ x.toModel.unpack = assemble s n t ∧
    -x = packed (assemble (-s) n t) := by
  obtain ⟨s, n, t, h, ht, hux⟩ := exists_assemble hx
  refine ⟨s, n, t, h, ht, hux, ?_⟩
  rw [← neg_packed s h ht, ← hux, packed_unpack]

theorem isFinite_neg : (-x).isFinite = true := by
  obtain ⟨s, n, t, h, ht, -, hneg⟩ := neg_eq_packed hx
  rw [hneg, isFinite_packed _ h, decide_eq_true ht]

theorem value_neg : value (-x) = -value x := by
  obtain ⟨s, n, t, h, ht, hux, hneg⟩ := neg_eq_packed hx
  rw [hneg, value_packed _ h ht, value, hux, unpackedValue_assemble, factor_neg, neg_mul]

end Neg

/-! ## Sums -/

/-- A sum is the difference from the opposite. -/
theorem add_eq_sub_neg (a b : UnpackedFloat) :
    UnpackedFloat.add Format.binary64 a b = UnpackedFloat.sub Format.binary64 a b.neg := by
  have happly (s : Sign) (m : Nat) : (-s).apply m = -s.apply m := by
    cases s <;> simp [Sign.apply]
  cases a with
  | notANumber => cases b <;> rfl
  | infinity s =>
    cases b with
    | infinity s' => cases s <;> cases s' <;> rfl
    | _ => rfl
  | zero s =>
    cases b with
    | notANumber => rfl
    | infinity s' => cases s' <;> rfl
    | zero s' => cases s <;> cases s' <;> rfl
    | finite s' => cases s' <;> rfl
  | finite s =>
    cases b with
    | notANumber => rfl
    | infinity s' => cases s' <;> rfl
    | zero s' => rfl
    | finite s' => simp only [UnpackedFloat.add, UnpackedFloat.sub, UnpackedFloat.neg, happly, sub_neg_eq_add]

theorem add_roundsEven {x y : Float} (hx : x.isFinite = true) (hy : y.isFinite = true) :
    RoundsEven (value x + value y) (x + y) := by
  have hdifference := sub_roundsEven hx (isFinite_neg hy)
  have hsum : x + y = x - -y := by
    obtain ⟨s, n, t, h, ht, huy, hneg⟩ := neg_eq_packed hy
    have hopposite : (-y).toModel.unpack = y.toModel.unpack.neg := by
      rw [huy, neg_assemble, hneg]
      exact unpack_pack_assemble (-s) h ht
    show packed (UnpackedFloat.add Format.binary64 x.toModel.unpack y.toModel.unpack) =
      packed (UnpackedFloat.sub Format.binary64 x.toModel.unpack (-y).toModel.unpack)
    rw [hopposite, add_eq_sub_neg]
  rwa [value_neg hy, sub_neg_eq_add, ← hsum] at hdifference

/-! ## Finite results -/

/-- A quotient by what is not less than one is finite. -/
theorem isFinite_div {x y : Float} (hx : x.isFinite = true) (hy : y.isFinite = true) (h : 1 ≤ |value y|) :
    (x / y).isFinite = true := by
  have h0 : value y ≠ 0 := by
    intro hzero
    rw [hzero, abs_zero] at h
    exact absurd h (by norm_num)
  have hle : |value x / value y| ≤ |value x| := by
    rw [abs_div]
    exact div_le_self (abs_nonneg _) h
  exact (div_rounds hx hy h0).isFinite_of_le (representable_value x).abs (abs_value_lt x) hle

/-- What is not finite is packed as a double that is not. -/
theorem isFinite_packed_eq_false {a : UnpackedFloat} (h : a.isFinite = false) : (packed a).isFinite = false := by
  cases a with
  | notANumber => rfl
  | infinity s => cases s <;> rfl
  | zero => cases h
  | finite => cases h

/-- Without two finite terms, a difference is not finite. -/
theorem sub_of_not_finite {a b : UnpackedFloat} (h : (a.isFinite && b.isFinite) = false) :
    (UnpackedFloat.sub Format.binary64 a b).isFinite = false := by
  cases a with
  | notANumber => rfl
  | infinity s =>
    cases b with
    | notANumber => rfl
    | infinity s' =>
      simp only [UnpackedFloat.sub]
      split <;> rfl
    | zero => rfl
    | finite => rfl
  | zero =>
    cases b with
    | notANumber => rfl
    | infinity s' => rfl
    | zero => cases h
    | finite => cases h
  | finite =>
    cases b with
    | notANumber => rfl
    | infinity s' => rfl
    | zero => cases h
    | finite => cases h

/-- A difference is finite only if both of its terms are. -/
theorem isFinite_of_sub {x y : Float} (h : (x - y).isFinite = true) : x.isFinite = true ∧ y.isFinite = true := by
  by_contra hnot
  have hterms : (x.toModel.unpack.isFinite && y.toModel.unpack.isFinite) = false := by
    rw [← Bool.not_eq_true, Bool.and_eq_true]
    exact hnot
  exact absurd h (Bool.eq_false_iff.1 (isFinite_packed_eq_false (sub_of_not_finite hterms)))

/-- A sum is finite only if both of its terms are. -/
theorem isFinite_of_add {x y : Float} (h : (x + y).isFinite = true) : x.isFinite = true ∧ y.isFinite = true := by
  by_contra hnot
  have hterms : (x.toModel.unpack.isFinite && y.toModel.unpack.neg.isFinite) = false := by
    have hneg : y.toModel.unpack.neg.isFinite = y.toModel.unpack.isFinite := by
      cases y.toModel.unpack <;> rfl
    rw [hneg, ← Bool.not_eq_true, Bool.and_eq_true]
    exact hnot
  have hsum := sub_of_not_finite hterms
  rw [← add_eq_sub_neg] at hsum
  exact absurd h (Bool.eq_false_iff.1 (isFinite_packed_eq_false hsum))

/-- Without a finite dividend, a quotient is not finite. -/
theorem div_of_not_finite {a : UnpackedFloat} (ha : a.isFinite = false) (b : UnpackedFloat) :
    (UnpackedFloat.div Format.binary64 a b).isFinite = false := by
  cases a with
  | notANumber => rfl
  | infinity s => cases b <;> rfl
  | zero => cases ha
  | finite => cases ha

/-- A quotient is finite only if the dividend is. -/
theorem isFinite_of_div {x y : Float} (h : (x / y).isFinite = true) : x.isFinite = true := by
  by_contra hx
  exact absurd h (Bool.eq_false_iff.1 (isFinite_packed_eq_false (div_of_not_finite (Bool.eq_false_iff.2 hx) _)))

/-- Without two finite factors, a product is not finite. -/
theorem mul_of_not_finite {a b : UnpackedFloat} (h : (a.isFinite && b.isFinite) = false) :
    (UnpackedFloat.mul Format.binary64 a b).isFinite = false := by
  cases a with
  | notANumber => rfl
  | infinity s => cases b <;> rfl
  | zero => cases b <;> first | rfl | cases h
  | finite => cases b <;> first | rfl | cases h

/-- A product is finite only if both of its factors are. -/
theorem isFinite_of_mul {x y : Float} (h : (x * y).isFinite = true) : x.isFinite = true ∧ y.isFinite = true := by
  by_contra hnot
  have hfactors : (x.toModel.unpack.isFinite && y.toModel.unpack.isFinite) = false := by
    rw [← Bool.not_eq_true, Bool.and_eq_true]
    exact hnot
  exact absurd h (Bool.eq_false_iff.1 (isFinite_packed_eq_false (mul_of_not_finite hfactors)))

end SolidScript.Double
