import SolidScript.Document.Coerce
import SolidScript.Proofs.Double.Normal

/-!
# Counts as doubles

The double of a count below `2 ^ 53` is that count exactly: it is a finite whole number (`isWhole_ofNat`), doubles of
counts are ordered as the counts are (`ofNat_le_ofNat_iff`), and reading one back as a 32-bit integer truncates nothing
(`toUInt32_ofNat`). So a 32-bit count survives being written as a number and coerced back (`integer?_ofNat`).
-/

namespace SolidScript.Double

open Float.Model (Format UnpackedFloat)
open Float.Model.UnpackedFloat

/-! ## The value of a count -/

/-- One, in the form that doubles are unpacked to. -/
theorem unpack_one : (Float.ofBits 0x3FF0000000000000).toModel.unpack = .finite .positive (2 ^ 52) (-52) (by decide) :=
  rfl

theorem ofNat_zero : (Float.ofNat 0).toModel.unpack = .zero .positive := rfl

section Positive

variable {n : Nat} (h0 : 0 < n) (h : n < 2 ^ 53)
include h0 h

/-- Rounding a count of at most 53 bits is exact. -/
theorem round_count : UnpackedFloat.round Format.binary64 .positive n 0 =
    .finite .positive (n * 2 ^ lift n) (-(lift n : Int)) (normal_count h0 h).pos := by
  have := (normal_count h0 h).round_eq .positive (n := n) (k := lift n) rfl
  rwa [Int.add_left_neg] at this

theorem model_toFloat : n.toUInt64.toFloat.toModel =
    Float.Model.pack (.finite .positive (n * 2 ^ lift n) (-(lift n : Int)) (normal_count h0 h).pos) := by
  have hn : n.toUInt64.toNat = n := by
    simp only [Nat.toUInt64_eq, UInt64.toNat_ofNat']
    omega
  have hpos : compare (n : Int) 0 = .gt := Int.compare_eq_gt.2 (by omega)
  show Float.Model.pack (UnpackedFloat.normalize Format.binary64 n.toUInt64.toNat 0 .positive) = _
  rw [hn, UnpackedFloat.normalize, hpos, ← round_count h0 h]
  rfl

/-- The double of a positive count. -/
theorem model_ofNat : (Float.ofNat n).toModel =
    Float.Model.pack (.finite .positive (n * 2 ^ lift n) (-(lift n : Int)) (normal_count h0 h).pos) := by
  have hdef : Float.ofNat n = n.toUInt64.toFloat * Float.ofBits 0x3FF0000000000000 := by
    show Float.ofScientific n false 0 = _
    rw [Float.ofScientific, dif_pos ⟨h, by decide⟩]
    rfl
  have hfactor : n.toUInt64.toFloat.toModel.unpack =
      .finite .positive (n * 2 ^ lift n) (-(lift n : Int)) (normal_count h0 h).pos := by
    rw [model_toFloat h0 h]
    exact (normal_count h0 h).unpack_pack .positive
  have hproduct := (normal_count h0 h).roundWithAccuracy_eq .positive 52
  rw [hdef, ← hproduct]
  show Float.Model.pack (UnpackedFloat.mul Format.binary64 n.toUInt64.toFloat.toModel.unpack
    (Float.ofBits 0x3FF0000000000000).toModel.unpack) = _
  rw [hfactor, unpack_one]
  rfl

/-- What the double of a positive count is unpacked to. -/
theorem unpack_ofNat : (Float.ofNat n).toModel.unpack =
    .finite .positive (n * 2 ^ lift n) (-(lift n : Int)) (normal_count h0 h).pos := by
  rw [model_ofNat h0 h]
  exact (normal_count h0 h).unpack_pack .positive

end Positive

/-! ## Whole numbers -/

variable {n k : Nat}

theorem isFinite_ofNat (h : n < 2 ^ 53) : (Float.ofNat n).isFinite = true := by
  rcases Nat.eq_zero_or_pos n with rfl | h0
  · rfl
  · show (Float.ofNat n).toModel.unpack.isFinite = true
    rw [unpack_ofNat h0 h]
    rfl

theorem isNaN_of_isFinite {x : Float} (h : x.isFinite = true) : x.isNaN = false := by
  have hunpack : x.toModel.unpack.isFinite = true := h
  show x.toModel.unpack.isNaN = false
  generalize x.toModel.unpack = u at hunpack
  cases u with
  | notANumber => cases hunpack
  | _ => rfl

/-- What is not NaN equals itself. -/
theorem beq_self_of_isNaN {x : Float} (h : x.isNaN = false) : (x == x) = true := by
  rw [Float.beq_self_iff]
  rintro rfl
  exact absurd h (by decide)

theorem beq_self_of_isFinite {x : Float} (h : x.isFinite = true) : (x == x) = true :=
  beq_self_of_isNaN (isNaN_of_isFinite h)

/-- A count has nothing behind the point. -/
theorem trunc_ofNat (h : n < 2 ^ 53) : trunc (Float.ofNat n) = Float.ofNat n := by
  rcases Nat.eq_zero_or_pos n with rfl | h0
  · rfl
  · have hwhole : n * 2 ^ lift n / Nat.pow 2 (-(lift n : Int)).natAbs = n := by
      rw [Int.natAbs_neg, Int.natAbs_natCast]
      exact Nat.mul_div_cancel n (Nat.two_pow_pos (lift n))
    have hscaled : ofScaled false n 0 = Float.ofNat n := by
      have hbits := congrArg Float.Model.pack ((normal_count h0 h).unpack_pack .positive)
      rw [ofScaled, if_neg (Nat.ne_of_gt h0)]
      simp only [Bool.false_eq_true, if_false, round_count h0 h]
      exact congrArg Float.ofModel (hbits.trans (model_ofNat h0 h).symm)
    rw [trunc, roundWith, unpack_ofNat h0 h]
    simp only [isNegative, hwhole, Bool.false_eq_true, if_false, hscaled, ite_self]

theorem isWhole_ofNat (h : n < 2 ^ 53) : isWhole (Float.ofNat n) = true := by
  rw [isWhole, isFinite_ofNat h, trunc_ofNat h, beq_self_of_isFinite (isFinite_ofNat h)]
  rfl

/-! ## Order -/

/-- A longer count needs less of a shift. -/
theorem lift_le_lift {n k : Nat} (h : n ≤ k) : lift k ≤ lift n := by
  have : n.log2 ≤ k.log2 := by
    rcases Nat.eq_zero_or_pos n with rfl | h0
    · exact Nat.zero_le _
    · exact (Nat.le_log2 (by omega)).2 (Nat.le_trans (Nat.log2_self_le (Nat.ne_of_gt h0)) h)
  unfold lift
  omega

theorem le_iff {x y : Float} : x ≤ y ↔ x.toModel.unpack.le y.toModel.unpack = true := by
  show decide (x.toModel ≤ y.toModel) = true ↔ _
  rw [decide_eq_true_iff]
  rfl

/-- Doubles of counts are ordered as the counts are. -/
theorem ofNat_le_ofNat_iff (hn : n < 2 ^ 53) (hk : k < 2 ^ 53) : Float.ofNat n ≤ Float.ofNat k ↔ n ≤ k := by
  rw [le_iff]
  rcases Nat.eq_zero_or_pos n with rfl | hn0 <;> rcases Nat.eq_zero_or_pos k with rfl | hk0
  · simp [ofNat_zero, UnpackedFloat.le, UnpackedFloat.compare]
  · simp [ofNat_zero, unpack_ofNat hk0 hk, UnpackedFloat.le, UnpackedFloat.compare]
  · simp [ofNat_zero, unpack_ofNat hn0 hn, UnpackedFloat.le, UnpackedFloat.compare]
    omega
  · rw [unpack_ofNat hn0 hn, unpack_ofNat hk0 hk]
    simp only [UnpackedFloat.le, UnpackedFloat.compare, Option.any_some]
    rcases Nat.lt_trichotomy (lift n) (lift k) with hlt | heq | hgt
    · have hc : compare (-(lift n : Int)) (-(lift k : Int)) = .gt := Int.compare_eq_gt.2 (by omega)
      have hnk : ¬ n ≤ k := fun hle => by have := lift_le_lift hle; omega
      simp [hc, hnk]
    · have hc : compare (-(lift n : Int)) (-(lift k : Int)) = .eq := Int.compare_eq_eq.2 (by omega)
      rw [hc, heq, Ordering.eq_then, Nat.isLE_compare]
      exact Nat.mul_le_mul_right_iff (Nat.two_pow_pos _)
    · have hc : compare (-(lift n : Int)) (-(lift k : Int)) = .lt := Int.compare_eq_lt.2 (by omega)
      have hnk : n ≤ k := Nat.le_of_not_le fun hle => by have := lift_le_lift hle; omega
      simp [hc, hnk]

/-! ## Reading a count back -/

/-- Nothing is truncated or clamped. -/
theorem toUInt32_ofNat (h : n < UInt32.size) : (Float.ofNat n).toUInt32 = UInt32.ofNat n := by
  have h53 : n < 2 ^ 53 := Nat.lt_trans h (by decide)
  have hint : (Float.ofNat n).toModel.unpack.toInt 0 (UInt32.size - 1) = n := by
    rcases Nat.eq_zero_or_pos n with rfl | h0
    · rfl
    · rw [unpack_ofNat h0 h53]
      have hleft : (-(lift n : Int) - 0).toNat = 0 := by omega
      have hright : (0 - (-(lift n : Int) - (0 : Nat))).toNat = lift n := by omega
      simp only [UnpackedFloat.toInt, roundToInt, decreaseExponent, hleft, shiftToExponent, hright, Nat.shiftLeft_zero,
        ExtendedMantissa.ofMantissaAndAccuracy, shiftRight_exact]
      rfl
  show UInt32.ofNatClamp ((Float.ofNat n).toModel.unpack.toInt 0 (UInt32.size - 1)).toNat = _
  rw [hint, Int.toNat_natCast, UInt32.ofNatClamp, dif_pos h, UInt32.ofNatLT_eq_ofNat]

end SolidScript.Double

namespace SolidScript.Coerce

open Double in
/-- A 32-bit count that is written as a number is coerced to itself. -/
theorem integer?_ofNat (n : UInt32) : integer? (.ofNat n.toNat) = some n := by
  have h : n.toNat < UInt32.size := n.toNat_lt
  have h53 : n.toNat < 2 ^ 53 := Nat.lt_trans h (by decide)
  have hnumber : number? (.ofNat n.toNat) = some (Float.ofNat n.toNat) := by
    have : ¬ ((n.toNat : Int) < 0) := by omega
    simp only [number?, Json.ofNat, Json.Number.toDouble, Json.doubleOfInt, if_neg this, Int.natAbs_natCast]
  have hlow : (0.0 : Float) ≤ Float.ofNat n.toNat := (ofNat_le_ofNat_iff (n := 0) (by decide) h53).2 (Nat.zero_le _)
  have hhigh : Float.ofNat n.toNat ≤ maxCount :=
    (ofNat_le_ofNat_iff (k := 4294967295) h53 (by decide)).2 (Nat.le_of_lt_succ h)
  rw [integer?, hnumber]
  simp only [isWhole_ofNat h53, hlow, hhigh, and_self, if_true, toUInt32_ofNat h, UInt32.ofNat_toNat]

end SolidScript.Coerce
