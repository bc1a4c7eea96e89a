import SolidScript.Proofs.Double.Nearest
import SolidScript.Proofs.Double.Normal

/-!
# Rounding to nearest

The rounding of the doubles works on a significand with a round bit and a sticky bit. Here it is read as arithmetic.

* The two bits tell where a value lies between two whole numbers (`Stands`), and shifting keeps that
  (`Stands.shiftRight`).
* So the rounded significand is a nearest representable value, and even if another one is as near (`Stands.nearest`).
  A second shift gives it the one form that doubles have (`shift_rounded`, `roundWithAccuracy_spec`); likewise for a
  significand that is given exactly (`round_spec`) and for a quotient (`divCore_spec`).
-/

namespace SolidScript.Double

open Float.Model (Format UnpackedFloat totalExponent)
open Float.Model.UnpackedFloat

/-! ## Significands with two more bits -/

/-- A significand with its round and sticky bits stands for the value `x`. -/
def Stands (em : ExtendedMantissa) (x : Rat) : Prop :=
  match em.roundBit, em.stickyBit with
  | false, false => x = em.mantissa
  | false, true => em.mantissa < x ∧ x < em.mantissa + 1 / 2
  | true, false => x = em.mantissa + 1 / 2
  | true, true => em.mantissa + 1 / 2 < x ∧ x < em.mantissa + 1

namespace Stands

variable {em : ExtendedMantissa} {x : Rat}

theorem le (h : Stands em x) : em.mantissa ≤ x := by
  obtain ⟨m, r, s⟩ := em
  cases r <;> cases s <;> simp only [Stands] at h ⊢ <;> linarith

theorem shiftRightOne (h : Stands em x) : Stands em.shiftRightOne (x / 2) := by
  obtain ⟨m, r, s⟩ := em
  have hcast : ((m / 2 : Nat) : Rat) = (m - (m % 2 : Nat)) / 2 := by
    have hsum : ((m % 2 + 2 * (m / 2) : Nat) : Rat) = m := by rw [Nat.mod_add_div]
    push_cast at hsum ⊢
    linarith
  have hodd : ((1 : Nat) != 0) = true := rfl
  have hbit : m % 2 = 0 ∨ m % 2 = 1 := by omega
  rcases hbit with hbit | hbit <;> cases r <;> cases s <;>
    simp only [Stands, ExtendedMantissa.shiftRightOne, hbit, hcast, hodd, bne_self_eq_false, Bool.or_self, Bool.or_true,
      Bool.or_false, Nat.cast_zero, Nat.cast_one] at h ⊢ <;>
    first | linarith | (constructor <;> linarith)

theorem shiftRight (h : Stands em x) : ∀ k : Nat, Stands (em >>> k) (x / 2 ^ k)
  | 0 => by simpa [shiftRight_zero] using h
  | k + 1 => by
    have hstep := (h.shiftRight k).shiftRightOne
    rwa [div_div, ← pow_succ] at hstep

/-- The rounded significand is a nearest whole number. -/
theorem abs_rounded_sub_le (h : Stands em x) : |(em.roundedMantissa : Rat) - x| ≤ 1 / 2 := by
  obtain ⟨m, r, s⟩ := em
  have hbit : m % 2 = 0 ∨ m % 2 = 1 := by omega
  rw [abs_le]
  cases r <;> cases s <;>
    simp only [Stands, ExtendedMantissa.roundedMantissa, ExtendedMantissa.accuracy, Accuracy.roundToNearestEven] at h ⊢
  · constructor <;> linarith
  · constructor <;> linarith
  · rcases hbit with hbit | hbit <;> rw [hbit] <;> push_cast <;> constructor <;> linarith
  · push_cast
    constructor <;> linarith

/-- Half way between two whole numbers, the even one is taken. -/
theorem even_of_half (h : Stands em x) (hhalf : |(em.roundedMantissa : Rat) - x| = 1 / 2) :
    em.roundedMantissa % 2 = 0 := by
  obtain ⟨m, r, s⟩ := em
  cases r <;> cases s <;>
    simp only [Stands, ExtendedMantissa.roundedMantissa, ExtendedMantissa.accuracy, Accuracy.roundToNearestEven]
      at h hhalf ⊢
  · rw [h, sub_self, abs_zero] at hhalf
    norm_num at hhalf
  · rw [abs_of_nonpos (by linarith)] at hhalf
    linarith
  · omega
  · push_cast at hhalf
    rw [abs_of_nonneg (by linarith)] at hhalf
    linarith

end Stands

theorem mantissa_shiftRight (em : ExtendedMantissa) : ∀ k : Nat, (em >>> k).mantissa = em.mantissa / 2 ^ k
  | 0 => by rw [shiftRight_zero, pow_zero, Nat.div_one]
  | k + 1 => by
    rw [shiftRight_succ, pow_succ, ← Nat.div_div_eq_div_mul, ← mantissa_shiftRight em k]
    rfl

theorem rounded_bounds (em : ExtendedMantissa) :
    em.mantissa ≤ em.roundedMantissa ∧ em.roundedMantissa ≤ em.mantissa + 1 := by
  obtain ⟨m, r, s⟩ := em
  cases r <;> cases s <;>
    simp only [ExtendedMantissa.roundedMantissa, ExtendedMantissa.accuracy, Accuracy.roundToNearestEven] <;> omega

theorem mantissa_ofMantissaAndAccuracy (m : Nat) (acc : Accuracy) :
    (ExtendedMantissa.ofMantissaAndAccuracy m acc).mantissa = m := by
  cases acc with
  | exact => rfl
  | inexact o => cases o <;> rfl

/-! ## The form of doubles -/

/-- The one significand and exponent that the doubles have for a value. -/
structure Canonical (n : Nat) (t : Int) : Prop where
  upper : n < 2 ^ 53
  least : -1074 ≤ t
  lower : 2 ^ 52 ≤ n ∨ t = -1074

/-- What the magnitude `v` is rounded to: a nearest representable value and, if another one is as near, the one with an
even significand. -/
structure Rounded (v : Rat) (n : Nat) (t : Int) : Prop where
  canonical : Canonical n t
  nearest : Nearest v (n * unit t)
  even : ∀ f, Representable f → f ≠ n * unit t → |f - v| ≤ |n * unit t - v| → n % 2 = 0

/-- A sign with a significand and an exponent, where the significand may be zero. -/
def assemble (sign : Sign) (n : Nat) (t : Int) : UnpackedFloat :=
  if h : n = 0 then .zero sign else .finite sign n t (Nat.pos_of_ne_zero h)

/-- The exponent that rounding aims at. -/
def target (m : Nat) (e : Int) : Int := Format.binary64.targetExponent (totalExponent m e)

theorem target_eq (m : Nat) (e : Int) : target m e = max (m.log2 + e - 52) (-1074) := by
  simp only [target, Format.targetExponent, totalExponent, Format.mantissaBits, Format.minExponent]
  omega

/-- The last place of what is shifted to the target is that of a double. -/
theorem target_bounds {m k : Nat} {e : Int} (h : target m e = e + k) :
    m / 2 ^ k < 2 ^ 53 ∧ -1074 ≤ e + k ∧ (e + k = -1074 ∨ 2 ^ 52 * 2 ^ k ≤ m) := by
  rw [target_eq] at h
  refine ⟨?_, by omega, ?_⟩
  · rw [Nat.div_lt_iff_lt_mul (Nat.two_pow_pos k), ← pow_add]
    exact lt_of_lt_of_le Nat.lt_log2_self (Nat.pow_le_pow_right (by decide) (by omega))
  · by_cases hmin : e + k = -1074
    · exact .inl hmin
    · have hlog : m.log2 = 52 + k := by omega
      have hne : m ≠ 0 := by
        rintro rfl
        rw [Nat.log2_zero] at hlog
        omega
      refine .inr ?_
      rw [← pow_add, ← hlog]
      exact Nat.log2_self_le hne

theorem shift_eq {m k : Nat} {e : Int} (h : target m e = e + k) (acc : Accuracy) :
    shiftToTargetExponent Format.binary64 m e acc = (ExtendedMantissa.ofMantissaAndAccuracy m acc >>> k, e + k) := by
  have hshift : (target m e - e).toNat = k := by omega
  show shiftToExponent m e acc (target m e) = _
  simp only [shiftToExponent, hshift]

/-- A canonical significand is not shifted again. -/
theorem shift_canonical {n : Nat} {t : Int} (hn : n < 2 ^ 53) (ht : -1074 ≤ t) :
    shiftToTargetExponent Format.binary64 n t .exact = (⟨n, false, false⟩, t) := by
  have hlog : n.log2 ≤ 52 := by
    rcases Nat.eq_zero_or_pos n with rfl | hpos
    · decide
    · exact Nat.le_of_lt_succ ((Nat.log2_lt (Nat.ne_of_gt hpos)).2 hn)
  have hzero : (target n t - t).toNat = 0 := by
    rw [target_eq]
    omega
  show shiftToExponent n t .exact (target n t) = _
  simp only [shiftToExponent, hzero, ExtendedMantissa.ofMantissaAndAccuracy, shiftRight_zero]
  simp

/-- A significand that was rounded up to 54 bits is shifted once. -/
theorem shift_carry {t : Int} (ht : -1074 ≤ t) :
    shiftToTargetExponent Format.binary64 (2 ^ 53) t .exact = (⟨2 ^ 52, false, false⟩, t + 1) := by
  have htarget : target (2 ^ 53) t = t + (1 : Nat) := by
    rw [target_eq, Nat.log2_two_pow]
    omega
  rw [shift_eq htarget]
  rfl

/-- The second shift brings a rounded significand to the canonical form. -/
theorem shift_rounded {r : Nat} {t : Int} (hr : r ≤ 2 ^ 53) (ht : -1074 ≤ t) (hlow : t = -1074 ∨ 2 ^ 52 ≤ r) :
    ∃ n t', Canonical n t' ∧ (r : Rat) * unit t = n * unit t' ∧ (r % 2 = 0 → n % 2 = 0) ∧
      shiftToTargetExponent Format.binary64 r t .exact = (⟨n, false, false⟩, t') := by
  rcases Nat.lt_or_eq_of_le hr with hlt | rfl
  · exact ⟨r, t, ⟨hlt, ht, hlow.symm⟩, rfl, id, shift_canonical hlt ht⟩
  · refine ⟨2 ^ 52, t + 1, ⟨by decide, by omega, .inl le_rfl⟩, ?_, fun _ => by decide, shift_carry ht⟩
    rw [unit_succ]
    push_cast
    ring

/-- How far rounding goes, in units of the last place. -/
theorem distance_scaled (r : Nat) (x : Rat) (e : Int) (k : Nat) :
    |((r : Int) : Rat) * unit (e + k) - x * unit e| = |(r : Rat) - x / 2 ^ k| * unit (e + k) := by
  have hvalue : x * unit e = x / 2 ^ k * unit (e + k) := by
    rw [unit_add_natCast]
    field_simp
  rw [hvalue, ← sub_mul, abs_mul, abs_of_pos (unit_pos _), Int.cast_natCast]

section Target

variable {m k : Nat} {e : Int} {acc : Accuracy} {x : Rat}
  (hx : Stands (ExtendedMantissa.ofMantissaAndAccuracy m acc) x) (h : target m e = e + k)
include hx h

/-- The last place at the target is that of the value, unless it is the least. -/
theorem Stands.low : e + k = -1074 ∨ 2 ^ 52 * unit (e + k) ≤ |x * unit e| := by
  obtain ⟨-, -, hlower⟩ := target_bounds h
  refine hlower.imp_right fun hm => ?_
  have hle : (2 ^ 52 * 2 ^ k : Rat) ≤ x := by
    have hcast : ((2 ^ 52 * 2 ^ k : Nat) : Rat) ≤ m := by exact_mod_cast hm
    have hmx := hx.le
    rw [mantissa_ofMantissaAndAccuracy] at hmx
    push_cast at hcast
    exact le_trans hcast hmx
  calc 2 ^ 52 * unit (e + k) = 2 ^ 52 * 2 ^ k * unit e := by rw [unit_add_natCast]; ring
    _ ≤ x * unit e := mul_le_mul_of_nonneg_right hle (unit_pos e).le
    _ ≤ |x * unit e| := le_abs_self _

/-- What is rounded at the target is a nearest representable value, and even if another one is as near. -/
theorem Stands.nearest {r : Nat} (hr : (ExtendedMantissa.ofMantissaAndAccuracy m acc >>> k).roundedMantissa = r) :
    r ≤ 2 ^ 53 ∧ Nearest (x * unit e) (r * unit (e + k)) ∧
      ∀ f, Representable f → f ≠ r * unit (e + k) → |f - x * unit e| ≤ |r * unit (e + k) - x * unit e| → r % 2 = 0 := by
  obtain ⟨hupper, hleast, -⟩ := target_bounds h
  have hlow := hx.low h
  have hdistance := distance_scaled r x e k
  have hstands := hx.shiftRight k
  have hround := hstands.abs_rounded_sub_le
  have hcarry := (rounded_bounds (ExtendedMantissa.ofMantissaAndAccuracy m acc >>> k)).2
  rw [mantissa_shiftRight, mantissa_ofMantissaAndAccuracy, hr] at hcarry
  rw [hr] at hround
  have hunit := unit_pos (e + k)
  have hhalf : |((r : Int) : Rat) * unit (e + k) - x * unit e| ≤ unit (e + k) / 2 := by
    have hscaled := mul_le_mul_of_nonneg_right hround hunit.le
    rw [hdistance]
    linarith
  have hbits : |(r : Int)| ≤ 2 ^ 53 := by
    rw [abs_of_nonneg (by omega)]
    omega
  rw [← Int.cast_natCast r]
  refine ⟨by omega, nearest_of_half hleast hbits hhalf hlow, fun f hf hne htie => ?_⟩
  have htied := half_of_tie hhalf hlow hf hne htie
  rw [hdistance] at htied
  rw [← hr]
  refine hstands.even_of_half ?_
  rw [hr]
  exact mul_right_cancel₀ hunit.ne' (by linarith)

end Target

/-- **Rounding takes a value to a nearest representable one.** The significand is given with at least the places that
rounding aims at, and its two bits tell what is behind them. -/
theorem roundWithAccuracy_spec {m : Nat} {e : Int} {acc : Accuracy} {x : Rat}
    (hx : Stands (ExtendedMantissa.ofMantissaAndAccuracy m acc) x) (he : e ≤ target m e) :
    ∃ n t, Rounded (x * unit e) n t ∧
      ∀ sign, roundWithAccuracy Format.binary64 sign m e acc = assemble sign n t := by
  obtain ⟨k, hk⟩ : ∃ k : Nat, target m e = e + k := ⟨(target m e - e).toNat, by omega⟩
  obtain ⟨-, hleast, hlower⟩ := target_bounds hk
  obtain ⟨r, hr⟩ : ∃ r, (ExtendedMantissa.ofMantissaAndAccuracy m acc >>> k).roundedMantissa = r := ⟨_, rfl⟩
  obtain ⟨hbits, hnearest, heven⟩ := hx.nearest hk hr
  have hlong : e + k = -1074 ∨ 2 ^ 52 ≤ r := by
    refine hlower.imp_right fun hm => ?_
    have hdiv : 2 ^ 52 ≤ m / 2 ^ k := (Nat.le_div_iff_mul_le (Nat.two_pow_pos k)).2 hm
    have hlow := (rounded_bounds (ExtendedMantissa.ofMantissaAndAccuracy m acc >>> k)).1
    rw [mantissa_shiftRight, mantissa_ofMantissaAndAccuracy, hr] at hlow
    omega
  obtain ⟨n, t, hcanonical, hvalue, hparity, hshift⟩ := shift_rounded hbits hleast hlong
  rw [hvalue] at hnearest heven
  refine ⟨n, t, ⟨hcanonical, hnearest, fun f hf hne htie => hparity (heven f hf hne htie)⟩, fun sign => ?_⟩
  simp only [roundWithAccuracy, shift_eq hk, hr, hshift]
  rfl

/-! ## Exact significands and quotients -/

/-- Rounding of a significand that is given exactly. -/
theorem round_spec {m : Nat} (hm : 0 < m) (e : Int) :
    ∃ n t, Rounded (m * unit e) n t ∧
      ∀ sign, UnpackedFloat.round Format.binary64 sign m e = assemble sign n t := by
  obtain ⟨k, hk⟩ : ∃ k : Nat, (e - target m e).toNat = k := ⟨_, rfl⟩
  have htarget : target (m * 2 ^ k) (e - k) = target m e := by
    rw [target_eq, target_eq, log2_mul_two_pow (Nat.ne_of_gt hm)]
    push_cast
    congr 1
    ring
  have hstands : Stands (ExtendedMantissa.ofMantissaAndAccuracy (m * 2 ^ k) .exact) (m * 2 ^ k) := by
    simp [Stands, ExtendedMantissa.ofMantissaAndAccuracy]
  obtain ⟨n, t, hrounded, hround⟩ := roundWithAccuracy_spec hstands (e := e - k) (by omega)
  refine ⟨n, t, ?_, fun sign => ?_⟩
  · have hunit : unit e = 2 ^ k * unit (e - k) := by
      rw [← unit_natCast, ← unit_add]
      congr 1
      ring
    rwa [hunit, ← mul_assoc]
  · have hdecrease : decreaseExponent m e (target m e) = (m * 2 ^ k, e - k) := by
      simp only [decreaseExponent, hk, Nat.shiftLeft_eq]
    rw [← hround]
    let decreased := decreaseExponent m e (target m e)
    show roundWithAccuracy Format.binary64 sign decreased.1 decreased.2 .exact = _
    simp only [decreased, hdecrease]

/-- What a remainder says about the places behind a quotient. -/
theorem stands_fraction (a : Nat) {b : Nat} (hb : 0 < b) :
    Stands (ExtendedMantissa.ofMantissaAndAccuracy (a / b) (accuracyOfFraction (a % b) b)) (a / b) := by
  have hb' : (0 : Rat) < b := by exact_mod_cast hb
  have hsum : ((a : Nat) : Rat) = b * (a / b : Nat) + (a % b : Nat) := by
    rw [← Nat.cast_mul, ← Nat.cast_add, Nat.div_add_mod]
  have hvalue : (a : Rat) / b = (a / b : Nat) + (a % b : Nat) / b := by
    rw [hsum]
    field_simp
  have hlt : ((a % b : Nat) : Rat) < b := by exact_mod_cast Nat.mod_lt a hb
  rw [hvalue, accuracyOfFraction]
  by_cases hzero : a % b = 0
  · simp [hzero, Stands, ExtendedMantissa.ofMantissaAndAccuracy]
  · have hpos : (0 : Rat) < (a % b : Nat) := by exact_mod_cast Nat.pos_of_ne_zero hzero
    rw [if_neg hzero]
    rcases Nat.lt_trichotomy (2 * (a % b)) b with hcmp | hcmp | hcmp
    · have hhalf : (2 : Rat) * (a % b : Nat) < b := by exact_mod_cast hcmp
      rw [Nat.compare_eq_lt.2 hcmp]
      refine ⟨lt_add_of_pos_right _ (div_pos hpos hb'), ?_⟩
      have hfrac : ((a % b : Nat) : Rat) / b < 1 / 2 := by
        rw [div_lt_iff₀ hb']
        linarith
      simp only [ExtendedMantissa.ofMantissaAndAccuracy]
      linarith
    · have hhalf : (2 : Rat) * (a % b : Nat) = b := by exact_mod_cast hcmp
      rw [Nat.compare_eq_eq.2 hcmp]
      show _ = _ + (1 : Rat) / 2
      congr 1
      rw [div_eq_div_iff hb'.ne' (by norm_num)]
      linarith
    · have hhalf : (b : Rat) < 2 * (a % b : Nat) := by exact_mod_cast hcmp
      have hfrac : 1 / 2 < ((a % b : Nat) : Rat) / b := by
        rw [lt_div_iff₀ hb']
        linarith
      have hone : ((a % b : Nat) : Rat) / b < 1 := (div_lt_one hb').2 hlt
      rw [Nat.compare_eq_gt.2 hcmp]
      simp only [Stands, ExtendedMantissa.ofMantissaAndAccuracy]
      constructor <;> linarith

/-- A dividend that is longer than the divisor by 52 bits makes a quotient of 53 bits. -/
theorem long_of_log2_le {m₁ m₂ k : Nat} (h₁ : 0 < m₁) (h : m₂.log2 + 53 ≤ m₁.log2 + k) : 2 ^ 52 * m₂ ≤ m₁ * 2 ^ k := by
  calc 2 ^ 52 * m₂ ≤ 2 ^ 52 * 2 ^ (m₂.log2 + 1) := Nat.mul_le_mul_left _ Nat.lt_log2_self.le
    _ = 2 ^ (m₂.log2 + 53) := by rw [← pow_add]; congr 1; omega
    _ ≤ 2 ^ (m₁.log2 + k) := Nat.pow_le_pow_right (by decide) h
    _ = 2 ^ m₁.log2 * 2 ^ k := pow_add _ _ _
    _ ≤ m₁ * 2 ^ k := Nat.mul_le_mul_right _ (Nat.log2_self_le (Nat.ne_of_gt h₁))

/-- Rounding of a quotient. -/
theorem divCore_spec {m₁ m₂ : Nat} (h₁ : 0 < m₁) (h₂ : 0 < m₂) (e₁ e₂ : Int) :
    ∃ n t, Rounded (m₁ * unit e₁ / (m₂ * unit e₂)) n t ∧
      ∀ sign, (match divCore Format.binary64 m₁ e₁ m₂ e₂ with
        | (m, e, acc) => roundWithAccuracy Format.binary64 sign m e acc) = assemble sign n t := by
  obtain ⟨e, he⟩ : ∃ e : Int,
      min (e₁ - e₂) (Format.binary64.targetExponent (totalExponent m₁ e₁ - totalExponent m₂ e₂)) = e := ⟨_, rfl⟩
  obtain ⟨k, hk⟩ : ∃ k : Nat, (e₁ - e₂ - e).toNat = k := ⟨_, rfl⟩
  have hcore : divCore Format.binary64 m₁ e₁ m₂ e₂ =
      (m₁ * 2 ^ k / m₂, e, accuracyOfFraction (m₁ * 2 ^ k % m₂) m₂) := by
    simp only [divCore, he, hk, Nat.shiftLeft_eq]
  have hle : e ≤ e₁ - e₂ := by omega
  have hbits : e ≤ -1074 ∨ 2 ^ 52 * m₂ ≤ m₁ * 2 ^ k := by
    by_cases hmin : e ≤ -1074
    · exact .inl hmin
    · refine .inr (long_of_log2_le h₁ ?_)
      simp only [Format.targetExponent, totalExponent, Format.mantissaBits, Format.minExponent] at he
      omega
  have htarget : e ≤ target (m₁ * 2 ^ k / m₂) e := by
    rw [target_eq]
    rcases hbits with hmin | hquotient
    · omega
    · have hlong : 2 ^ 52 ≤ m₁ * 2 ^ k / m₂ := (Nat.le_div_iff_mul_le h₂).2 hquotient
      have hlog : 52 ≤ (m₁ * 2 ^ k / m₂).log2 := (Nat.le_log2 (by omega)).2 hlong
      omega
  obtain ⟨n, t, hrounded, hround⟩ := roundWithAccuracy_spec (stands_fraction (m₁ * 2 ^ k) h₂) htarget
  refine ⟨n, t, ?_, fun sign => ?_⟩
  · have hunit : unit e₁ = 2 ^ k * unit e * unit e₂ := by
      rw [← unit_natCast, ← unit_add, ← unit_add]
      congr 1
      omega
    have hvalue : m₁ * unit e₁ / (m₂ * unit e₂) = ((m₁ * 2 ^ k : Nat) : Rat) / m₂ * unit e := by
      have hne₂ : unit e₂ ≠ 0 := (unit_pos e₂).ne'
      rw [hunit]
      push_cast
      field_simp
    rwa [hvalue]
  · rw [hcore]
    exact hround sign

end SolidScript.Double
