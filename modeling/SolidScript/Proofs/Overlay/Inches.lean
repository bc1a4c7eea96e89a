import SolidScript.Proofs.Decimal.Count
import SolidScript.Proofs.Double.Sign
import SolidScript.Proofs.Overlay.Ends
import SolidScript.Proofs.Overlay.Fraction
import SolidScript.Proofs.Overlay.Loop
import SolidScript.Proofs.Script.Measure

/-!
# Whole inches

Without a denominator a length is written as a rounded double, with the denominator one as a count of steps.

* Neither way scales the length, so that both round its magnitude alone (`wholeUnits_abs`, `steps_one`). Below `2 ^ 53`
  the result is the count of steps in exact arithmetic, which is below `2 ^ 53` too (`steps_value_lt`).
* A double that is such a count, and no negative zero, has the digits of the count (`write_count`).
* So both ways write the same digits. The texts differ where a negative length is rounded to zero, and nowhere else
  (`inchFraction_zero_eq_iff`).
-/

namespace SolidScript.Length

open Double

/-! ## Texts of counts -/

/-- A double that is a count below `2 ^ 53`, without a negative sign, is written by the digits of the count. -/
theorem write_count {y : Float} {n : Nat} (hy : HasSign .positive y) (hn : value y = n) (hlt : n < 2 ^ 53) :
    Decimal.plain.write y = toString n := by
  obtain ⟨m, q, h, hq, huy⟩ := hy
  obtain rfl : y = packed (assemble .positive m q) := by rw [← huy, packed_unpack]
  rw [value_packed _ h hq, factor, one_mul] at hn
  rcases Nat.eq_zero_or_pos m with rfl | hm
  · obtain rfl : n = 0 := by simpa using hn.symm
    rw [Decimal.Layout.write, huy, assemble_zero]
    rfl
  · -- all of the digits are those of a decimal that is the count itself
    obtain ⟨he, hvalue⟩ := Decimal.shortest_count .up h hm hn hlt
    have hheld := Decimal.shortest_holds .up hm q
    have hdigits := Decimal.writePositional_count (Decimal.coefficient_pos hm hheld) he hvalue
    have htext := Script.toList_write_packed .positive h hq hm
    rw [hdigits] at htext
    exact String.toList_injective htext

/-- Steps of one are a whole part alone. -/
theorem mixedNumber_one (negative : Bool) (k : Nat) :
    mixedNumber negative k 1 = if k = 0 then "0" else (if negative then "-" else "") ++ toString k := by
  simp only [mixedNumber, Nat.mod_one, Nat.div_one, if_true, write_eq_toString]

/-- The sign makes a difference for a zero only. -/
theorem signed_eq_iff (negative : Prop) [Decidable negative] (k : Nat) :
    (if negative then "-" else "") ++ toString k =
        (if k = 0 then "0" else (if negative then "-" else "") ++ toString k) ↔
      ¬ (negative ∧ k = 0) := by
  by_cases hk : k = 0
  · subst hk
    by_cases hnegative : negative
    · rw [if_pos hnegative, if_pos rfl]
      exact iff_of_false (by decide) (not_not.2 ⟨hnegative, rfl⟩)
    · rw [if_neg hnegative, if_pos rfl]
      exact iff_of_true (by decide) fun h => hnegative h.1
  · rw [if_neg hk]
    exact iff_of_true rfl fun h => hk h.2

/-! ## Rounded lengths -/

theorem steps_one_eq (v : Rat) : (steps v 1 : Rat) = Rational.round |v| := by
  rw [steps_eq]
  show Rational.round (|v| * ((1 : Nat) : Rat)) = _
  rw [Nat.cast_one, mul_one]

section Lengths

variable {x : Float} (hx : x.isFinite = true)
include hx

/-- No decimal places are kept: the factor and the divisor are one. -/
theorem wholeUnits_abs : wholeUnits x.abs = Double.round x.abs := by
  have hsign := hasSign_abs hx
  show Double.round (x.abs * Float.ofNat 1) / Float.ofNat 1 = _
  rw [hsign.mul_ofNat_one]
  exact hsign.round.div_ofNat_one

/-- Rounding the magnitude is exact. -/
theorem value_round_abs : value (Double.round x.abs) = steps (value x) 1 := by
  rw [value_round (hasSign_abs hx).isFinite, value_abs hx, steps_one_eq]

section Bounded

variable (hlt : |value x| < 2 ^ 53)
include hlt

/-- The next double below the bound is a whole number, so that nothing is rounded up to the bound. -/
theorem steps_value_lt : steps (value x) 1 < 2 ^ 53 := by
  -- there are no halves between the bound and the whole number below it
  have hbelow : |value x| ≤ ((2 ^ 53 - 1 : Int) : Rat) := by
    have hstep := (representable_value x).abs.le_sub_unit (m := 2 ^ 53) (q := 0) (.inl (by decide))
    rw [unit_zero, mul_one] at hstep
    exact_mod_cast hstep (by exact_mod_cast hlt)
  have hround := Rational.round_le hbelow
  rw [← value_abs hx, ← value_round (hasSign_abs hx).isFinite, value_round_abs hx] at hround
  have hint : (steps (value x) 1 : Int) ≤ 2 ^ 53 - 1 := by exact_mod_cast hround
  omega

/-- With the denominator one the steps are those of exact arithmetic. -/
theorem steps_one : steps x 1 = steps (value x) 1 := by
  have hsmall := steps_value_lt hx hlt
  have hvalue := value_round_abs hx
  have hfinite : (Double.round x.abs).isFinite = true := (hasSign_abs hx).round.isFinite
  have hbound : value (Double.round x.abs) < 2 ^ 64 := by
    rw [hvalue]
    exact_mod_cast hsmall.trans (by decide)
  have hcount := toNat_of_lt hfinite (by rw [hvalue]; exact Nat.cast_nonneg _) hbound
  show Scalar.toNat (Double.round (x.abs * Float.ofNat 1)) = _
  rw [(hasSign_abs hx).mul_ofNat_one, hcount, hvalue, ← Int.cast_natCast, Rat.floor_intCast, Int.toNat_natCast]

/-! ## Texts of lengths -/

/-- Without a denominator the count is written behind the sign. -/
theorem inchFraction_zero : inchFraction x 0 = (if x < 0 then "-" else "") ++ toString (steps (value x) 1) := by
  have hdigits : Decimal.plain.write (wholeUnits x.abs) = toString (steps (value x) 1) := by
    rw [wholeUnits_abs hx]
    exact write_count (hasSign_abs hx).round (value_round_abs hx) (steps_value_lt hx hlt)
  rw [inchFraction, if_pos rfl]
  exact congrArg _ hdigits

/-- With the denominator one it is too, unless it is zero. -/
theorem inchFraction_one : inchFraction x 1 =
    if steps (value x) 1 = 0 then "0" else (if x < 0 then "-" else "") ++ toString (steps (value x) 1) := by
  have hnumber := mixedNumber_one (decide (x < 0)) (steps (value x) 1)
  simp only [decide_eq_true_eq] at hnumber
  rw [inchFraction, if_neg (by decide), mixedFraction, steps_one hx hlt]
  exact hnumber

end Bounded

end Lengths

/-- **In whole inches a length is written as with the denominator one, unless it is negative and rounded to zero.** Both
texts are the nearest count behind the sign, a half going away from zero; with the denominator one a zero has no
sign. -/
theorem inchFraction_zero_eq_iff {x : Float} (hx : x.isFinite = true) (hlt : |value x| < 2 ^ 53) :
    ∃ k : Nat, ((k : Rat) - 1 / 2 ≤ |value x| ∧ |value x| < k + 1 / 2) ∧
      inchFraction x 0 = (if x < 0 then "-" else "") ++ toString k ∧
      inchFraction x 1 = (if k = 0 then "0" else (if x < 0 then "-" else "") ++ toString k) ∧
      (inchFraction x 0 = inchFraction x 1 ↔ ¬ (-1 / 2 < value x ∧ value x < 0)) := by
  have hnearest := steps_spec (value x) 1
  rw [show ((1 : UInt32).toNat : Rat) = 1 from Nat.cast_one, mul_one] at hnearest
  have hzero := inchFraction_zero hx hlt
  have hone := inchFraction_one hx hlt
  refine ⟨_, hnearest, hzero, hone, ?_⟩
  have hsteps : steps (value x) 1 = 0 ↔ |value x| < 1 / 2 := by
    rw [← Nat.cast_eq_zero (R := Rat), steps_one_eq, Rational.round_eq_zero_iff, abs_abs]
  rw [hzero, hone, signed_eq_iff, Overlay.neg_iff hx, hsteps, not_iff_not]
  constructor
  · rintro ⟨hneg, hsmall⟩
    exact ⟨by linarith [(abs_lt.1 hsmall).1], hneg⟩
  · rintro ⟨hlow, hneg⟩
    exact ⟨hneg, abs_lt.2 ⟨by linarith, by linarith⟩⟩

/-- The half is rounded to one, so that both texts have the sign. -/
theorem inchFraction_zero_eq_half : (-0.5 : Float).isFinite = true ∧ |value (-0.5)| < 2 ^ 53 ∧
    inchFraction (-0.5) 0 = inchFraction (-0.5) 1 := by
  have hx : (-0.5 : Float).isFinite = true := by decide +kernel
  have hvalue : value (-0.5) = -1 / 2 := by decide +kernel
  have hlt : |value (-0.5)| < 2 ^ 53 := by rw [hvalue]; norm_num
  obtain ⟨k, -, -, -, heq⟩ := inchFraction_zero_eq_iff hx hlt
  exact ⟨hx, hlt, heq.2 fun h => absurd h.1 (by rw [hvalue]; exact lt_irrefl _)⟩

/-- Beyond the bound the digits of a double stop before those of the count. -/
example : inchFraction 1152921504606846976 0 = "1152921504606847000" ∧
    inchFraction 1152921504606846976 1 = "1152921504606846976" := by
  decide +kernel

/-- A quarter below zero is rounded to zero, and has the sign in one of the texts. -/
theorem exists_inchFraction_ne : ¬ ∀ x : Float, x.isFinite = true → |value x| < 2 ^ 53 →
    inchFraction x 0 = inchFraction x 1 := by
  intro h
  have hvalue : value (-0.25) = -1 / 4 := by decide +kernel
  have htexts : inchFraction (-0.25) 0 = "-0" ∧ inchFraction (-0.25) 1 = "0" := by decide +kernel
  have heq := h (-0.25) (by decide +kernel) (by rw [hvalue]; norm_num)
  rw [htexts.1, htexts.2] at heq
  exact absurd heq (by decide)

end SolidScript.Length
