import SolidScript.Decimal.Layout
import SolidScript.Proofs.Decimal.Digits
import SolidScript.Proofs.Decimal.Places

/-!
# Counts as decimals

Below `2 ^ 53` the doubles lie so close that no other count is rounded to the double of a count. So its shortest decimal
is the count (`shortest_count`), and is laid out by the digits of the count (`writePositional_count`).
-/

namespace SolidScript.Decimal

open Double (unit unit_pos unit_zero unit_le_unit Canonical Holds gap_le)

/-! ## Digits -/

/-- The digits of a multiple of a power of ten. -/
theorem Digits.toDigits_mul_pow {c : Nat} (hc : 0 < c) (k : Nat) :
    Nat.toDigits 10 (c * 10 ^ k) = Nat.toDigits 10 c ++ List.replicate k '0' := by
  induction k with
  | zero => simp
  | succ k ih =>
    have hpos : 0 < c * 10 ^ k := Nat.mul_pos hc (Nat.pow_pos (by decide))
    have hlast := Nat.toDigits_append_toDigits (b := 10) (d := 0) (by decide) hpos (by decide)
    have hstep : c * 10 ^ (k + 1) = 10 * (c * 10 ^ k) + 0 := by ring
    rw [hstep, ← hlast, ih, List.append_assoc, List.replicate_succ']
    rfl

/-- A decimal without places is a count. -/
theorem exists_value_eq {d : Decimal} (he : 0 ≤ d.exponent) :
    ∃ k : Nat, d.exponent = k ∧ d.value = (d.coefficient * 10 ^ k : Nat) := by
  obtain ⟨k, hk⟩ := Int.eq_ofNat_of_zero_le he
  refine ⟨k, hk, ?_⟩
  rw [value, hk, zpow_natCast]
  push_cast
  rfl

/-- A decimal without places is laid out by the digits of its value. -/
theorem writePositional_count {d : Decimal} (hd : 0 < d.coefficient) (he : 0 ≤ d.exponent) {n : Nat}
    (hn : d.value = n) : writePositional false d = Digits.write n := by
  obtain ⟨k, hk, hvalue⟩ := exists_value_eq he
  obtain rfl : d.coefficient * 10 ^ k = n := by exact_mod_cast hvalue.symm.trans hn
  rw [writePositional, if_pos he, hk, Digits.write, Digits.toDigits_mul_pow hd]
  simp

/-! ## The shortest decimal of a count -/

/-- The last place of a double that is a count below `2 ^ 53` is not greater than one. -/
theorem unit_le_one {m n : Nat} {q : Int} (h : Canonical m q) (hn : m * unit q = n) (hlt : n < 2 ^ 53) :
    unit q ≤ 1 := by
  have hq : q ≤ 0 := by
    by_contra hq
    have hlong : (2 ^ 52 : Rat) ≤ m := by
      have hlower := h.lower.resolve_right (by omega)
      exact_mod_cast hlower
    have hlarge : (2 ^ 53 : Rat) ≤ n := by
      calc (2 ^ 53 : Rat) = 2 ^ 52 * unit 1 := by norm_num [unit]
        _ ≤ m * unit q := mul_le_mul hlong (unit_le_unit (by omega)) (unit_pos 1).le (Nat.cast_nonneg m)
        _ = n := hn
    have hcount : 2 ^ 53 ≤ n := by exact_mod_cast hlarge
    omega
  calc unit q ≤ unit 0 := unit_le_unit hq
    _ = 1 := unit_zero

/-- No other count is rounded to a double that is a count below `2 ^ 53`. -/
theorem eq_of_holds_count {m n k : Nat} {q : Int} (h : Canonical m q) (hn : m * unit q = n) (hlt : n < 2 ^ 53)
    (hk : Holds m q k) : k = n := by
  have hunit := unit_le_one h hn hlt
  have hgap := gap_le m q
  obtain ⟨hlow, hhigh⟩ := hk.bounds
  rw [hn] at hlow hhigh
  have habove : (n : Rat) < k + 1 := by linarith
  have hbelow : (k : Rat) < n + 1 := by linarith
  have habove' : n < k + 1 := by exact_mod_cast habove
  have hbelow' : k < n + 1 := by exact_mod_cast hbelow
  omega

/-- **The shortest decimal of a count below `2 ^ 53` is the count.** -/
theorem shortest_count (tie : Tie) {m n : Nat} {q : Int} (h : Canonical m q) (hm : 0 < m) (hn : m * unit q = n)
    (hlt : n < 2 ^ 53) : 0 ≤ (shortest tie m q).exponent ∧ (shortest tie m q).value = n := by
  have hself : Holds m q (n * 10 ^ (-((0 : Nat) : Int))) := by simpa [hn] using Holds.self m q
  have he : 0 ≤ (shortest tie m q).exponent := by simpa using (shortest_places tie h hm (Nat.zero_le 6) hself).1
  obtain ⟨k, -, hvalue⟩ := exists_value_eq he
  have hheld := shortest_holds tie hm q
  rw [hvalue] at hheld ⊢
  exact ⟨he, by rw [eq_of_holds_count h hn hlt hheld]⟩

end SolidScript.Decimal
