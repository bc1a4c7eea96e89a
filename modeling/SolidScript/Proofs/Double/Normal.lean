import Mathlib
import SolidScript.Scalar.Double

/-!
# Normal doubles

A normal double is `± m · 2 ^ e` with a significand `m` of exactly 53 bits (`Normal`).

* Packing such a value into bits and unpacking the bits gives it back (`Normal.unpack_pack`).
* Rounding gives it from every other way to write it: with zeros behind the significand
  (`Normal.roundWithAccuracy_eq`), or with a shorter significand (`Normal.round_eq`).
* Every count from one to below `2 ^ 53` is a normal double (`normal_count`).
-/

namespace SolidScript.Double

open Float.Model (Format UnpackedFloat totalExponent)
open Float.Model.UnpackedFloat

theorem log2_mul_two_pow {n : Nat} (hn : n ≠ 0) : ∀ k : Nat, (n * 2 ^ k).log2 = n.log2 + k
  | 0 => by rw [Nat.pow_zero, Nat.mul_one, Nat.add_zero]
  | k + 1 => by
    have hk : n * 2 ^ k ≠ 0 := Nat.mul_ne_zero hn (Nat.ne_of_gt (Nat.two_pow_pos k))
    rw [Nat.pow_succ', Nat.mul_left_comm, Nat.log2_two_mul hk, log2_mul_two_pow hn k, Nat.add_assoc]

/-- A significand of 53 bits and an exponent within the range of the doubles. -/
structure Normal (m : Nat) (e : Int) : Prop where
  lower : 2 ^ 52 ≤ m
  upper : m < 2 ^ 53
  least : -1074 ≤ e
  greatest : e ≤ 971

namespace Normal

variable {m : Nat} {e : Int} (h : Normal m e)
include h

theorem pos : 0 < m := Nat.lt_of_lt_of_le (by decide) h.lower

theorem log2_eq : m.log2 = 52 := (Nat.log2_eq_iff (Nat.ne_of_gt h.pos)).2 ⟨h.lower, h.upper⟩

/-- Zeros behind the significand do not change the exponent that rounding aims at. -/
theorem target_mul_two_pow (k : Nat) :
    Format.binary64.targetExponent (totalExponent (m * 2 ^ k) (e - k)) = e := by
  have := h.least
  simp only [Format.targetExponent, totalExponent, log2_mul_two_pow (Nat.ne_of_gt h.pos), h.log2_eq,
    Format.mantissaBits, Format.minExponent]
  omega

theorem target : Format.binary64.targetExponent (totalExponent m e) = e := by
  simpa using h.target_mul_two_pow 0

end Normal

/-! ## Bits -/

/-- The hidden bit in front of the low bits of a significand. -/
theorem Normal.toNat_append {m : Nat} {e : Int} (h : Normal m e) : (1#1 ++ BitVec.ofNat 52 m).toNat = m := by
  have hu := h.upper
  have hl := h.lower
  have hlow : (BitVec.ofNat 52 m).toNat = m - 2 ^ 52 := by rw [BitVec.toNat_ofNat]; omega
  rw [BitVec.toNat_append, hlow, ← Nat.shiftLeft_add_eq_or_of_lt (by omega)]
  simp only [BitVec.toNat_ofNat, Nat.shiftLeft_eq]
  omega

/-- Packing a normal value and unpacking the bits gives it back. -/
theorem Normal.unpack_pack {m : Nat} {e : Int} (h : Normal m e) (sign : Sign) :
    unpack Format.binary64 (pack Format.binary64 (.finite sign m e h.pos)) = .finite sign m e h.pos := by
  have hl := h.least
  have hg := h.greatest
  obtain ⟨b, hb⟩ : ∃ b : Nat, e = b - 1075 := ⟨(e + 1075).toNat, by omega⟩
  have hbias : (e + (Format.binary64.exponentBias : Int) + (52 : Nat)).toNat = b := by
    show (e + 1023 + 52).toNat = b
    omega
  have hin : ¬ 2 ^ 11 ≤ b + 1 := by omega
  have hbits : (BitVec.ofNat 11 b).toNat = b := by rw [BitVec.toNat_ofNat]; omega
  have hones : BitVec.ofNat 11 b ≠ -1#11 := fun hc => by
    have : b = 2047 := by rw [← hbits, hc]; rfl
    omega
  have hzero : BitVec.ofNat 11 b ≠ 0#11 := fun hc => by
    have : b = 0 := by rw [← hbits, hc]; rfl
    omega
  have hpacked : pack Format.binary64 (.finite sign m e h.pos) =
      packComponents Format.binary64 sign (BitVec.ofNat 11 b) (BitVec.ofNat 52 m) := by
    simp only [pack, hbias, if_neg hin, h.log2_eq]
    rfl
  rw [hpacked, unpack]
  simp only [unpackExponent_packComponents, unpackMantissa_packComponents, unpackSign_packComponents,
    Sign.ofBitVec_toBitVec, if_neg hones, if_neg hzero, hbits]
  congr 1
  · exact h.toNat_append
  · show (b : Int) - (1023 + 52) = e
    omega

/-! ## Rounding -/

theorem shiftRight_zero (em : ExtendedMantissa) : em >>> (0 : Nat) = em := rfl

theorem shiftRight_succ (em : ExtendedMantissa) (k : Nat) : em >>> (k + 1) = (em >>> k).shiftRightOne := rfl

/-- Shifting out zeros is exact. -/
theorem shiftRight_exact (m : Nat) : ∀ k : Nat,
    (ExtendedMantissa.mk (m * 2 ^ k) false false) >>> k = ⟨m, false, false⟩
  | 0 => by rw [shiftRight_zero, Nat.pow_zero, Nat.mul_one]
  | k + 1 => by
    have := shiftRight_exact (m * 2) k
    rw [shiftRight_succ, Nat.pow_succ', ← Nat.mul_assoc, this]
    simp [ExtendedMantissa.shiftRightOne]

namespace Normal

variable {m : Nat} {e : Int} (h : Normal m e)
include h

/-- Rounding a normal value that is written with zeros behind its significand gives the value. -/
theorem roundWithAccuracy_eq (sign : Sign) (k : Nat) :
    roundWithAccuracy Format.binary64 sign (m * 2 ^ k) (e - k) .exact = .finite sign m e h.pos := by
  have hfirst : shiftToTargetExponent Format.binary64 (m * 2 ^ k) (e - k) .exact = (⟨m, false, false⟩, e) := by
    have hk : (e - (e - k)).toNat = k := by omega
    simp only [shiftToTargetExponent, shiftToExponent, h.target_mul_two_pow, hk,
      ExtendedMantissa.ofMantissaAndAccuracy, shiftRight_exact]
    congr 1
    omega
  have hagain : shiftToTargetExponent Format.binary64 m e .exact = (⟨m, false, false⟩, e) := by
    simp [shiftToTargetExponent, shiftToExponent, h.target, ExtendedMantissa.ofMantissaAndAccuracy, shiftRight_zero]
  have hround : (ExtendedMantissa.mk m false false).roundedMantissa = m := rfl
  simp only [roundWithAccuracy, hfirst, hround, hagain, dif_neg (Nat.ne_of_gt h.pos)]

/-- Rounding a normal value that is written with a shorter significand gives the value. -/
theorem round_eq (sign : Sign) {n k : Nat} (hn : n * 2 ^ k = m) :
    UnpackedFloat.round Format.binary64 sign n (e + k) = .finite sign m e h.pos := by
  have hpos : n ≠ 0 := by
    rintro rfl
    have := h.pos
    omega
  have hlog : n.log2 + k = 52 := by rw [← SolidScript.Double.log2_mul_two_pow hpos, hn, h.log2_eq]
  have htarget : Format.binary64.targetExponent (totalExponent n (e + k)) = e := by
    have := h.least
    simp only [Format.targetExponent, totalExponent, Format.mantissaBits, Format.minExponent]
    omega
  have hk : (e + k - e).toNat = k := by omega
  have hback : e + k - (k : Int) = e := by omega
  simp only [UnpackedFloat.round, htarget, decreaseExponent, hk, hback, Nat.shiftLeft_eq, hn]
  simpa using h.roundWithAccuracy_eq sign 0

end Normal

/-- The shift that gives a count a significand of 53 bits. -/
def lift (n : Nat) : Nat := 52 - n.log2

/-- A count below `2 ^ 53` is a normal double. -/
theorem normal_count {n : Nat} (h0 : 0 < n) (h : n < 2 ^ 53) : Normal (n * 2 ^ lift n) (-(lift n : Int)) := by
  have hlog : n.log2 < 53 := (Nat.log2_lt (Nat.ne_of_gt h0)).2 h
  obtain ⟨hle, hlt⟩ := (Nat.log2_eq_iff (Nat.ne_of_gt h0)).1 rfl
  have hsum : n.log2 + lift n = 52 := by unfold lift; omega
  refine ⟨?_, ?_, by unfold lift; omega, by omega⟩
  · rw [← hsum, Nat.pow_add]
    exact Nat.mul_le_mul_right _ hle
  · have hnext : n.log2 + 1 + lift n = 53 := by omega
    rw [← hnext, Nat.pow_add]
    exact Nat.mul_lt_mul_of_pos_right hlt (Nat.two_pow_pos _)

end SolidScript.Double
