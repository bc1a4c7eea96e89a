import SolidScript.Proofs.Double.Arithmetic
import SolidScript.Proofs.Double.Count
import SolidScript.Proofs.Double.Interval

/-!
# Decimals as doubles

The double of a decimal is what its value is rounded to, whichever way it is computed: a short decimal is one product
or quotient of two exact doubles (`ofScientific_short`), a long one is rounded at once (`model_ofScientific`), and
decimals far beyond the range or below the least double are not computed at all (`ofScientific_spec`). So a decimal in
the rounding interval of a double is read as that double (`ofScientific_eq_of_holds`).
-/

namespace SolidScript.Double

open Float.Model (Format UnpackedFloat totalExponent)
open Float.Model.UnpackedFloat

/-- The value of a significand with a decimal exponent. -/
def scientific (m : Nat) (negative : Bool) (e : Nat) : Rat := if negative then m / 10 ^ e else m * 10 ^ e

/-! ## Short decimals -/

/-- The powers of ten that are exact doubles. -/
theorem power_exact : ∀ (e : Nat) (h : e < Float.exactlyRepresentablePowersOfTen.size),
    (Float.exactlyRepresentablePowersOfTen[e]).isFinite = true ∧
      value (Float.exactlyRepresentablePowersOfTen[e]) = 10 ^ e := by
  decide +kernel

theorem count_exact {m : Nat} (hm : 0 < m) (h : m < 2 ^ 53) :
    m.toUInt64.toFloat.isFinite = true ∧ value m.toUInt64.toFloat = m := by
  have hunpack : m.toUInt64.toFloat.toModel.unpack =
      .finite .positive (m * 2 ^ lift m) (-(lift m : Int)) (normal_count hm h).pos := by
    rw [model_toFloat hm h]
    exact (normal_count hm h).unpack_pack .positive
  constructor
  · show m.toUInt64.toFloat.toModel.unpack.isFinite = true
    rw [hunpack]
    rfl
  · rw [value, hunpack, unpackedValue, factor, one_mul, Nat.cast_mul, Nat.cast_pow, Nat.cast_two, ← unit_natCast,
      mul_assoc, ← unit_add]
    simp [unit]

/-- A short significand and a short power of ten are exact doubles, so only their product or quotient is rounded. -/
theorem ofScientific_short {m e : Nat} (hm : 0 < m) (hshort : m < 2 ^ 53 ∧ e ≤ 22) (negative : Bool) :
    ∃ n t, Rounded (scientific m negative e) n t ∧
      Float.ofScientific m negative e = packed (assemble .positive n t) := by
  obtain ⟨hm53, he⟩ := hshort
  obtain ⟨hfinite₁, hvalue₁⟩ := count_exact hm hm53
  obtain ⟨hfinite₂, hvalue₂⟩ := power_exact e (Nat.lt_succ_of_le he)
  obtain ⟨n₁, t₁, h₁, hn₁, hux₁, hv₁⟩ := exists_assemble_pos hfinite₁ (by rw [hvalue₁]; exact_mod_cast hm)
  obtain ⟨n₂, t₂, h₂, hn₂, hux₂, hv₂⟩ := exists_assemble_pos hfinite₂ (by rw [hvalue₂]; positivity)
  rw [hvalue₁] at hv₁
  rw [hvalue₂] at hv₂
  rw [Float.ofScientific, dif_pos ⟨hm53, he⟩]
  cases negative with
  | false =>
    obtain ⟨n, t, hrounded, hmul⟩ := mul_assemble h₁ h₂
    refine ⟨n, t, by rwa [← hv₁, ← hv₂] at hrounded, ?_⟩
    have hpacked := hmul .positive .positive
    rw [← hux₁, ← hux₂] at hpacked
    exact congrArg packed hpacked
  | true =>
    obtain ⟨n, t, hrounded, hdiv⟩ := @div_assemble n₁ n₂ t₁ t₂ hn₂
    refine ⟨n, t, by rwa [← hv₁, ← hv₂] at hrounded, ?_⟩
    have hpacked := hdiv .positive .positive
    rw [← hux₁, ← hux₂] at hpacked
    exact congrArg packed hpacked

/-! ## Long decimals -/

/-- A product is rounded once, if it is long enough. -/
theorem mul_positive {m₁ m₂ : Nat} (h₁ : 0 < m₁) (h₂ : 0 < m₂) (e₁ e₂ : Int) (hlong : 2 ^ 52 ≤ m₁ * m₂) :
    ∃ n t, Rounded (m₁ * unit e₁ * (m₂ * unit e₂)) n t ∧
      UnpackedFloat.mul Format.binary64 (.finite .positive m₁ e₁ h₁) (.finite .positive m₂ e₂ h₂) =
        assemble .positive n t := by
  have htarget : e₁ + e₂ ≤ target (m₁ * m₂) (e₁ + e₂) := by
    have hlog : 52 ≤ (m₁ * m₂).log2 := (Nat.le_log2 (by omega)).2 hlong
    rw [target_eq]
    omega
  have hstands : Stands (ExtendedMantissa.ofMantissaAndAccuracy (m₁ * m₂) .exact) (m₁ * m₂) := by
    simp [Stands, ExtendedMantissa.ofMantissaAndAccuracy]
  obtain ⟨n, t, hrounded, hround⟩ := roundWithAccuracy_spec hstands htarget
  have hvalue : (m₁ : Rat) * unit e₁ * (m₂ * unit e₂) = m₁ * m₂ * unit (e₁ + e₂) := by
    rw [unit_add]
    ring
  exact ⟨n, t, by rwa [hvalue], hround .positive⟩

/-- Within the range, a decimal is rounded at once. -/
theorem model_ofScientific {m : Nat} (hm : 0 < m) {e : Int} (hhigh : e ≤ 2 ^ 11) (hlow : -(2 ^ 11 + m.log2 : Int) ≤ e) :
    ∃ n t, Rounded (scientific m (decide (e < 0)) e.natAbs) n t ∧
      UnpackedFloat.ofScientific Format.binary64 m e = assemble .positive n t := by
  have hhigh' : ¬ e > 2 ^ Format.binary64.exponentBits := not_lt.2 hhigh
  have hlow' : ¬ e < -(2 ^ Format.binary64.exponentBits + m.log2) := not_lt.2 hlow
  rw [UnpackedFloat.ofScientific, dif_neg (Nat.ne_of_gt hm), if_neg hhigh', if_neg hlow']
  by_cases he : 0 ≤ e
  · obtain ⟨k, rfl⟩ := Int.eq_ofNat_of_zero_le he
    have hshift : m <<< Format.mantissaBits Format.binary64 = m * 2 ^ 53 := Nat.shiftLeft_eq m 53
    have hpos : 0 < m <<< Format.mantissaBits Format.binary64 := by
      rw [hshift]
      positivity
    have hten : 0 < 10 ^ k := by positivity
    obtain ⟨n, t, hrounded, hmul⟩ := mul_positive hpos hten (-53) 0 <| by
      rw [hshift]
      have hproduct : 1 ≤ m * 10 ^ k := Nat.mul_pos hm hten
      calc 2 ^ 52 ≤ 1 * 2 ^ 53 := by norm_num
        _ ≤ m * 10 ^ k * 2 ^ 53 := Nat.mul_le_mul_right _ hproduct
        _ = m * 2 ^ 53 * 10 ^ k := by ring
    refine ⟨n, t, ?_, ?_⟩
    · have hvalue : scientific m (decide ((k : Int) < 0)) (k : Int).natAbs =
          (m <<< Format.mantissaBits Format.binary64 : Nat) * unit (-53) * ((10 ^ k : Nat) * unit 0) := by
        have hunit : ((2 ^ 53 : Nat) : Rat) * unit (-53) = 1 := by
          norm_num [unit]
        rw [hshift, unit_zero, decide_eq_false (not_lt.2 he), scientific, Int.natAbs_natCast, Nat.cast_mul,
          mul_assoc (m : Rat), hunit]
        simp
      rwa [hvalue]
    · rw [if_pos he, ← hmul]
      rfl
  · obtain ⟨k, hk⟩ : ∃ k : Nat, e = -k := ⟨e.natAbs, by omega⟩
    subst hk
    have hten : 0 < 10 ^ k := by positivity
    obtain ⟨n, t, hrounded, hround⟩ := divCore_spec hm hten 0 0
    refine ⟨n, t, ?_, ?_⟩
    · have hvalue : scientific m (decide (-(k : Int) < 0)) (-(k : Int)).natAbs =
          m * unit 0 / ((10 ^ k : Nat) * unit 0) := by
        rw [unit_zero, decide_eq_true (not_le.1 he), scientific, Int.natAbs_neg, Int.natAbs_natCast]
        simp
      rwa [hvalue]
    · have htoNat : (- -(k : Int)).toNat = k := by omega
      rw [if_neg he]
      simp only [htoNat]
      exact hround .positive

/-- A decimal that is not computed is beyond the range or below the least double. -/
theorem far_scientific {m : Nat} (hm : 0 < m) {e : Int} (hfar : 2 ^ 11 < e ∨ e < -(2 ^ 11 + m.log2 : Int)) :
    unit 1024 < scientific m (decide (e < 0)) e.natAbs ∨ scientific m (decide (e < 0)) e.natAbs < unit (-1075) := by
  have hone : (1 : Rat) ≤ m := by exact_mod_cast hm
  rcases hfar with hhigh | hlow
  · obtain ⟨k, rfl⟩ : ∃ k : Nat, e = k := ⟨e.toNat, by omega⟩
    left
    have hk : 1024 ≤ k := by omega
    rw [decide_eq_false (by omega), scientific, Int.natAbs_natCast]
    calc unit 1024 ≤ unit k := unit_le_unit (by omega)
      _ = 2 ^ k := unit_natCast k
      _ < 10 ^ k := pow_lt_pow_left₀ (by norm_num) (by norm_num) (by omega)
      _ = 1 * 10 ^ k := (one_mul _).symm
      _ ≤ m * 10 ^ k := mul_le_mul_of_nonneg_right hone (by positivity)
  · obtain ⟨k, rfl⟩ : ∃ k : Nat, e = -k := ⟨e.natAbs, by omega⟩
    right
    have hk : m.log2 + 1 + 1075 ≤ k := by omega
    have hm2 : (m : Rat) < 2 ^ (m.log2 + 1) := by exact_mod_cast Nat.lt_log2_self
    have hsum : ((m.log2 + 1 : Nat) : Int) = -1075 + ((m.log2 + 1 + 1075 : Nat) : Int) := by omega
    rw [decide_eq_true (by omega), scientific, Int.natAbs_neg, Int.natAbs_natCast, if_pos rfl,
      div_lt_iff₀ (by positivity)]
    calc (m : Rat) < 2 ^ (m.log2 + 1) := hm2
      _ = unit (-1075) * 2 ^ (m.log2 + 1 + 1075) := by
        rw [← unit_natCast, hsum, unit_add, unit_natCast]
      _ ≤ unit (-1075) * 2 ^ k := mul_le_mul_of_nonneg_left (pow_le_pow_right₀ (by norm_num) hk) (unit_pos _).le
      _ ≤ unit (-1075) * 10 ^ k :=
        mul_le_mul_of_nonneg_left (pow_le_pow_left₀ (by norm_num) (by norm_num) k) (unit_pos _).le

/-! ## Reading a decimal -/

/-- The rounding interval of a positive double is within the range and above half of the least double. -/
theorem Holds.range {m : Nat} {q : Int} {v : Rat} (h : Holds m q v) (hm : Canonical m q) (hpos : 0 < m) (hq : q ≤ 971) :
    unit (-1075) ≤ v ∧ v ≤ unit 1024 := by
  have hhigh := h.bounds.2
  have hunit := unit_pos q
  constructor
  · have hlow := h.half_unit_le hpos
    have hleast : unit (-1074) ≤ unit q := unit_le_unit hm.least
    have hhalf := unit_succ (-1075)
    norm_num at hhalf
    linarith
  · have hupper : (m : Rat) + 1 ≤ 2 ^ 53 := by exact_mod_cast hm.upper
    have hmul := mul_le_mul_of_nonneg_right hupper hunit.le
    have htop : 2 ^ 53 * unit q ≤ unit 1024 := by
      have hle := unit_le_unit (by omega : 53 + q ≤ 1024)
      rwa [unit_add, show unit 53 = 2 ^ 53 from unit_natCast 53] at hle
    linarith

/-- The exponent with its sign. -/
def signedExponent (negative : Bool) (e : Nat) : Int := if negative then Int.negOfNat e else Int.ofNat e

theorem scientific_signed (m : Nat) (negative : Bool) (e : Nat) :
    scientific m (decide (signedExponent negative e < 0)) (signedExponent negative e).natAbs =
      scientific m negative e := by
  cases negative with
  | false =>
    have hsigned : signedExponent false e = e := rfl
    rw [hsigned, decide_eq_false (by omega), Int.natAbs_natCast]
  | true =>
    have hsigned : signedExponent true e = -(e : Int) := Int.negOfNat_eq
    rw [hsigned, Int.natAbs_neg, Int.natAbs_natCast]
    rcases Nat.eq_zero_or_pos e with rfl | he
    · simp [scientific]
    · rw [decide_eq_true (by omega)]

/-- **A decimal within the range is rounded**, whichever way it is computed. -/
theorem ofScientific_spec {m e : Nat} {negative : Bool} (hm : 0 < m)
    (hrange : unit (-1075) ≤ scientific m negative e ∧ scientific m negative e ≤ unit 1024) :
    ∃ n t, Rounded (scientific m negative e) n t ∧
      Float.ofScientific m negative e = packed (assemble .positive n t) := by
  by_cases hshort : m < 2 ^ 53 ∧ e ≤ 22
  · exact ofScientific_short hm hshort negative
  · obtain ⟨k, hk⟩ : ∃ k, signedExponent negative e = k := ⟨_, rfl⟩
    have hlong : Float.ofScientific m negative e = packed (UnpackedFloat.ofScientific Format.binary64 m k) := by
      rw [Float.ofScientific, dif_neg hshort, ← hk]
      rfl
    have hvalue := scientific_signed m negative e
    rw [hk] at hvalue
    have hnear : k ≤ 2 ^ 11 ∧ -(2 ^ 11 + m.log2 : Int) ≤ k := by
      by_contra hfar
      obtain ⟨hlow, hhigh⟩ := hrange
      rw [← hvalue] at hlow hhigh
      rcases far_scientific hm (by omega : 2 ^ 11 < k ∨ k < -(2 ^ 11 + m.log2 : Int)) with hbig | hsmall
      · linarith
      · linarith
    obtain ⟨n, t, hrounded, hread⟩ := model_ofScientific hm hnear.1 hnear.2
    rw [hvalue] at hrounded
    exact ⟨n, t, hrounded, by rw [hlong, hread]⟩

/-- **A decimal in the rounding interval of a positive double is read as that double.** -/
theorem ofScientific_eq_of_holds {m n e : Nat} {t : Int} {negative : Bool} (hm : 0 < m) (hn : Canonical n t)
    (hpos : 0 < n) (ht : t ≤ 971) (h : Holds n t (scientific m negative e)) :
    Float.ofScientific m negative e = packed (assemble .positive n t) := by
  obtain ⟨n', t', hrounded, hread⟩ := ofScientific_spec hm (h.range hn hpos ht)
  obtain ⟨rfl, rfl⟩ := hrounded.eq_of_holds hn hpos h
  exact hread

/-- A count of 64 bits is a finite double. -/
theorem isFinite_ofNat_of_le {n : Nat} (h : n ≤ 2 ^ 64) : (Float.ofNat n).isFinite = true := by
  rcases Nat.eq_zero_or_pos n with rfl | hn
  · rfl
  · have hvalue : scientific n false 0 = n := by simp [scientific]
    have hone : (1 : Rat) ≤ n := by exact_mod_cast hn
    have hle : (n : Rat) ≤ unit 64 := by
      rw [show unit 64 = 2 ^ 64 from unit_natCast 64]
      exact_mod_cast h
    have hleast : unit (-1075) ≤ 1 := (unit_le_unit (by norm_num)).trans_eq unit_zero
    have hmost : unit 64 < unit 1024 := unit_lt_unit (by norm_num)
    obtain ⟨n', t, hrounded, hread⟩ := @ofScientific_spec n 0 false hn (by rw [hvalue]; constructor <;> linarith)
    have hrounds := roundsTo_packed .positive hrounded.canonical
      (by rw [factor, one_mul]; exact hrounded.nearest)
    rw [hvalue] at hrounds
    show (Float.ofScientific n false 0).isFinite = true
    rw [hread]
    have habs : |(n : Rat)| ≤ unit 64 := by
      rw [abs_of_nonneg (Nat.cast_nonneg n)]
      exact hle
    have hunit : Representable (unit 64) := .of_unit (by norm_num)
    exact hrounds.isFinite_of_le hunit hmost habs

end SolidScript.Double
