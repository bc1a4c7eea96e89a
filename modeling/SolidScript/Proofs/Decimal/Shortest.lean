import SolidScript.Proofs.Double.Interval

/-!
# Shortest decimals are in the interval

The search for a shortest decimal counts in whole numbers, on a scale on which both the grid and a quarter of the unit
of the double are whole (`scale`). On it, `Admits` says that a multiple of the grid is in the rounding interval
(`admits_iff`); so whatever the search finds is in the interval of the double (`shortest_holds`).
-/

namespace SolidScript.Decimal

open Double (unit gap Holds Canonical)

/-- The value of a decimal. -/
def value (d : Decimal) : Rat := d.coefficient * 10 ^ d.exponent

/-- The factor between values and the whole numbers that the search compares. -/
def scale (q k : Int) : Rat := 2 ^ (2 - q).toNat * 10 ^ (-k).toNat

theorem scale_pos (q k : Int) : 0 < scale q k := by
  unfold scale
  positivity

theorem zpow_mul_pow_toNat {b : Rat} (hb : b ≠ 0) (k : Int) : b ^ k * b ^ (-k).toNat = b ^ k.toNat := by
  rw [← zpow_natCast, ← zpow_natCast, ← zpow_add₀ hb]
  congr 1
  omega

theorem gridScale_eq (q k : Int) : (gridScale q k : Rat) = 10 ^ k * scale q k := by
  have hten := zpow_mul_pow_toNat (b := 10) (by norm_num) k
  have hgrid : (gridScale q k : Rat) = 2 ^ (2 - q).toNat * 10 ^ k.toNat := by
    simp [gridScale]
  rw [hgrid, ← hten, scale]
  ring

theorem quarterScale_eq (q k : Int) : (quarterScale q k : Rat) = unit (q - 2) * scale q k := by
  have htwo := zpow_mul_pow_toNat (b := 2) (by norm_num) (q - 2)
  rw [neg_sub] at htwo
  have hquarter : (quarterScale q k : Rat) = 2 ^ (q - 2).toNat * 10 ^ (-k).toNat := by
    simp [quarterScale]
  rw [hquarter, ← htwo, scale, unit]
  ring

theorem four_mul_unit (q : Int) : 4 * unit (q - 2) = unit q := by
  have hfirst := Double.unit_succ (q - 2)
  have hsecond := Double.unit_succ (q - 2 + 1)
  rw [show q - 2 + 1 + 1 = q by ring] at hsecond
  linarith

section Ends

variable {m : Nat} (hm : 0 < m) (q : Int)
include hm

theorem lowerEnd_eq : (lowerEnd m q : Rat) * unit (q - 2) = m * unit q - gap m q / 2 := by
  have hfour := four_mul_unit q
  unfold lowerEnd gap
  have hpower : (m = hiddenBit ∧ leastExponent < q) ↔ (m = 2 ^ 52 ∧ -1074 < q) := Iff.rfl
  by_cases h : m = 2 ^ 52 ∧ -1074 < q
  · rw [if_pos (hpower.2 h), if_pos h, Nat.cast_sub (by omega)]
    push_cast
    linear_combination (m - 1 / 4) * hfour
  · rw [if_neg (mt hpower.1 h), if_neg h, Nat.cast_sub (by omega)]
    push_cast
    linear_combination (m - 1 / 2) * hfour

omit hm in
theorem upperEnd_eq : (upperEnd m : Rat) * unit (q - 2) = m * unit q + unit q / 2 := by
  have hfour := four_mul_unit q
  unfold upperEnd
  push_cast
  linear_combination (m + 1 / 2) * hfour

/-- The admitted multiples of the grid are those in the rounding interval. -/
theorem admits_iff {q k : Int} {c : Nat} : Admits m q k c ↔ Holds m q (c * 10 ^ k) := by
  have hscale := scale_pos q k
  have hpoint : ((c * gridScale q k : Nat) : Rat) = c * 10 ^ k * scale q k := by
    rw [Nat.cast_mul, gridScale_eq, mul_assoc]
  have hlow : ((lowerEnd m q * quarterScale q k : Nat) : Rat) = (m * unit q - gap m q / 2) * scale q k := by
    rw [Nat.cast_mul, quarterScale_eq, ← mul_assoc, lowerEnd_eq hm]
  have hhigh : ((upperEnd m * quarterScale q k : Nat) : Rat) = (m * unit q + unit q / 2) * scale q k := by
    rw [Nat.cast_mul, quarterScale_eq, ← mul_assoc, upperEnd_eq]
  unfold Admits Holds
  by_cases heven : m % 2 = 0
  · simp only [if_pos heven]
    rw [← Nat.cast_le (α := Rat), ← Nat.cast_le (α := Rat), hpoint, hlow, hhigh, mul_le_mul_iff_left₀ hscale,
      mul_le_mul_iff_left₀ hscale]
  · simp only [if_neg heven]
    rw [← Nat.cast_lt (α := Rat), ← Nat.cast_lt (α := Rat), hpoint, hlow, hhigh, mul_lt_mul_iff_left₀ hscale,
      mul_lt_mul_iff_left₀ hscale]

end Ends

/-- What the search finds on a grid is admitted. -/
theorem candidate?_admits {tie : Tie} {m : Nat} {q k : Int} {c : Nat} (h : candidate? tie m q k = some c) :
    Admits m q k c := by
  simp only [candidate?] at h
  split at h
  · next hbelow habove =>
    have hbelow := of_decide_eq_true hbelow
    have habove := of_decide_eq_true habove
    split at h
    · rwa [← Option.some.inj h]
    · rwa [← Option.some.inj h]
    · cases tie with
      | up => rwa [← Option.some.inj h]
      | even =>
        simp only at h
        split at h
        · rwa [← Option.some.inj h]
        · rwa [← Option.some.inj h]
  · next hbelow _ =>
    rw [← Option.some.inj h]
    exact of_decide_eq_true hbelow
  · next _ habove =>
    rw [← Option.some.inj h]
    exact of_decide_eq_true habove
  · cases h

theorem value_exact (m : Nat) (q : Int) : value (exact m q) = m * unit q := by
  unfold exact value unit
  split
  · next hq =>
    obtain ⟨k, rfl⟩ := Int.eq_ofNat_of_zero_le hq
    simp
  · next hq =>
    obtain ⟨k, rfl⟩ : ∃ k : Nat, q = -k := ⟨q.natAbs, by omega⟩
    have hten : (10 : Rat) ^ k = 5 ^ k * 2 ^ k := by
      rw [← mul_pow]
      norm_num
    simp only [Int.natAbs_neg, Int.natAbs_natCast, Nat.pow_eq, Nat.cast_mul, Nat.cast_pow, Nat.cast_ofNat, zpow_neg,
      zpow_natCast, hten]
    field_simp

/-- **The shortest decimal of a double is in its rounding interval.** -/
theorem shortest_holds (tie : Tie) {m : Nat} (hm : 0 < m) (q : Int) : Holds m q (shortest tie m q).value := by
  unfold shortest
  obtain ⟨hit, hhit⟩ : ∃ hit, ((List.range gridCount).findSome? fun (i : Nat) =>
    (candidate? tie m q (coarsest m q - i)).map (Decimal.mk · (coarsest m q - i))) = hit := ⟨_, rfl⟩
  simp only [hhit]
  cases hit with
  | none =>
    rw [Option.getD_none, value_exact]
    exact Holds.self m q
  | some d =>
    obtain ⟨i, -, hi⟩ := List.exists_of_findSome?_eq_some hhit
    obtain ⟨c, hc, rfl⟩ := Option.map_eq_some_iff.1 hi
    exact (admits_iff hm).1 (candidate?_admits hc)

theorem coefficient_pos {m : Nat} {q : Int} {d : Decimal} (hm : 0 < m) (h : Holds m q d.value) : 0 < d.coefficient := by
  refine Nat.pos_of_ne_zero fun hzero => ?_
  have hvalue : d.value = 0 := by simp [value, hzero]
  have hhalf := h.half_unit_le hm
  rw [hvalue] at hhalf
  linarith [Double.unit_pos q]

end SolidScript.Decimal
