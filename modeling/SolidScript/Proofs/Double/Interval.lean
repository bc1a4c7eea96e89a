import SolidScript.Decimal.Shortest
import SolidScript.Proofs.Double.Value

/-!
# Rounding intervals

The values that are rounded to a double form an interval around its value, which reaches half way to its neighbours and
holds its ends if the significand is even (`Holds`).

* The neighbours of a canonical value are a unit of the last place above it and `gap` below it
  (`Canonical.add_unit_le`, `Canonical.le_sub_gap`).
* Whatever lies in the interval is nearer to the value than to any other, but for an end, which is as near to a
  neighbour with an odd significand. So it is rounded to the value (`Rounded.eq_of_holds`), and nothing else is
  (`Rounded.holds`).
* A value is rounded to one double only (`Rounded.unique`).
-/

namespace SolidScript.Double

open Float.Model.UnpackedFloat

/-! ## Neighbours -/

section Multiples

variable {m : Nat} {q : Int} {f : Rat}

/-- A representable value that is not too small is a multiple of the unit. -/
theorem Representable.exists_mul (hf : Representable f) (hlow : q = -1074 ∨ 2 ^ 52 * unit q ≤ f) :
    ∃ k : Int, f = k * unit q := by
  rcases hlow with rfl | hlow
  · exact hf.eq_mul_least
  · exact hf.eq_mul_unit (hlow.trans (le_abs_self f))

/-- The next representable value above a long significand is a unit above it. -/
theorem Representable.add_unit_le (hf : Representable f) (hm : 2 ^ 52 ≤ m ∨ q = -1074) (h : m * unit q < f) :
    m * unit q + unit q ≤ f := by
  have hpos := unit_pos q
  obtain ⟨k, rfl⟩ := hf.exists_mul (q := q) <| hm.symm.imp_right fun hm => by
    have hcast : (2 ^ 52 : Rat) ≤ m := by exact_mod_cast hm
    exact (mul_le_mul_of_nonneg_right hcast hpos.le).trans h.le
  have hlt : ((m : Int) : Rat) < k := by
    rw [Int.cast_natCast]
    exact lt_of_mul_lt_mul_right h hpos.le
  have hint : (m : Int) + 1 ≤ k := by exact_mod_cast hlt
  have hcast : (m : Rat) + 1 ≤ k := by exact_mod_cast hint
  have hmul := mul_le_mul_of_nonneg_right hcast hpos.le
  linarith

/-- The next one below a significand that is longer than the least long one is a unit below it. -/
theorem Representable.le_sub_unit (hf : Representable f) (hm : 2 ^ 52 < m ∨ q = -1074) (h : f < m * unit q) :
    f ≤ m * unit q - unit q := by
  have hpos := unit_pos q
  by_cases hlow : q = -1074 ∨ 2 ^ 52 * unit q ≤ f
  · obtain ⟨k, rfl⟩ := hf.exists_mul hlow
    have hlt : k < ((m : Int) : Rat) := by
      rw [Int.cast_natCast]
      exact lt_of_mul_lt_mul_right h hpos.le
    have hint : k + 1 ≤ (m : Int) := by exact_mod_cast hlt
    have hcast : (k : Rat) + 1 ≤ m := by exact_mod_cast hint
    have hmul := mul_le_mul_of_nonneg_right hcast hpos.le
    linarith
  · obtain ⟨hq, hsmall⟩ := not_or.1 hlow
    have hlong : 2 ^ 52 + 1 ≤ m := hm.resolve_right hq
    have hcast : (2 ^ 52 + 1 : Rat) ≤ m := by exact_mod_cast hlong
    have hmul := mul_le_mul_of_nonneg_right hcast hpos.le
    linarith [not_le.1 hsmall]

end Multiples

/-- The distance from a value to the next one below it: below a power of two the spacing is half as wide. -/
def gap (m : Nat) (q : Int) : Rat := if m = 2 ^ 52 ∧ -1074 < q then unit q / 2 else unit q

theorem gap_pos (m : Nat) (q : Int) : 0 < gap m q := by
  have hpos := unit_pos q
  unfold gap
  split <;> linarith

theorem gap_le (m : Nat) (q : Int) : gap m q ≤ unit q := by
  have hpos := unit_pos q
  unfold gap
  split <;> linarith

namespace Canonical

variable {m : Nat} {q : Int} (h : Canonical m q)
include h

theorem add_unit_le {f : Rat} (hf : Representable f) (hlt : m * unit q < f) : m * unit q + unit q ≤ f :=
  hf.add_unit_le h.lower hlt

theorem le_sub_gap {f : Rat} (hf : Representable f) (hlt : f < m * unit q) : f ≤ m * unit q - gap m q := by
  unfold gap
  split
  · next hpower =>
    obtain ⟨rfl, hq⟩ := hpower
    have hunit := unit_succ (q - 1)
    rw [sub_add_cancel] at hunit
    have hvalue : ((2 ^ 52 : Nat) : Rat) * unit q = ((2 ^ 53 : Nat) : Rat) * unit (q - 1) := by
      rw [hunit]
      push_cast
      ring
    have hhalf : unit q / 2 = unit (q - 1) := by linarith
    rw [hvalue] at hlt ⊢
    rw [hhalf]
    exact hf.le_sub_unit (.inl (by decide)) hlt
  · next hpower =>
    refine hf.le_sub_unit ?_ hlt
    rcases h.lower with hlong | hleast
    · by_cases hq : q = -1074
      · exact .inr hq
      · have hleast := h.least
        exact .inl (by omega)
    · exact .inr hleast

theorem representable_above : Representable (m * unit q + unit q) := by
  have hupper := h.upper
  refine ⟨m + 1, q, by rw [abs_of_nonneg (by omega)]; omega, h.least, ?_⟩
  push_cast
  ring

theorem representable_below (hpos : 0 < m) : Representable (m * unit q - gap m q) := by
  unfold gap
  split
  · next hpower =>
    obtain ⟨rfl, hq⟩ := hpower
    have hunit := unit_succ (q - 1)
    rw [sub_add_cancel] at hunit
    refine ⟨2 ^ 53 - 1, q - 1, by norm_num, by omega, ?_⟩
    rw [hunit]
    push_cast
    ring
  · have hupper := h.upper
    refine ⟨m - 1, q, by rw [abs_of_nonneg (by omega)]; omega, h.least, ?_⟩
    push_cast
    ring

/-- The significand above an even one is odd. -/
theorem odd_above {n : Nat} {t : Int} (hn : Canonical n t) (heven : m % 2 = 0)
    (hvalue : n * unit t = m * unit q + unit q) : n % 2 = 1 := by
  have hupper := h.upper
  have habove : Canonical (m + 1) q := ⟨by omega, h.least, h.lower.imp_left (by omega)⟩
  obtain ⟨rfl, -⟩ := hn.eq_of_eq habove (by rw [hvalue]; push_cast; ring)
  omega

/-- So is the significand below an even one. -/
theorem odd_below {n : Nat} {t : Int} (hn : Canonical n t) (hpos : 0 < m) (heven : m % 2 = 0)
    (hvalue : n * unit t = m * unit q - gap m q) : n % 2 = 1 := by
  unfold gap at hvalue
  split at hvalue
  · next hpower =>
    obtain ⟨rfl, hq⟩ := hpower
    have hbelow : Canonical (2 ^ 53 - 1) (q - 1) := ⟨by decide, by omega, .inl (by decide)⟩
    obtain ⟨rfl, -⟩ := hn.eq_of_eq hbelow <| by
      have hunit := unit_succ (q - 1)
      rw [sub_add_cancel] at hunit
      rw [hvalue, hunit]
      norm_num
      ring
    decide
  · next hpower =>
    have hupper := h.upper
    have hleast := h.least
    have hbelow : Canonical (m - 1) q := by
      refine ⟨by omega, hleast, ?_⟩
      rcases h.lower with hlong | hq
      · by_cases hq : q = -1074
        · exact .inr hq
        · exact .inl (by omega)
      · exact .inr hq
    obtain ⟨rfl, -⟩ := hn.eq_of_eq hbelow <| by
      rw [hvalue, Nat.cast_sub (by omega)]
      push_cast
      ring
    omega

end Canonical

/-! ## Intervals -/

/-- Whether a value lies in the rounding interval of `m · 2 ^ q`. -/
def Holds (m : Nat) (q : Int) (v : Rat) : Prop :=
  if m % 2 = 0 then m * unit q - gap m q / 2 ≤ v ∧ v ≤ m * unit q + unit q / 2
  else m * unit q - gap m q / 2 < v ∧ v < m * unit q + unit q / 2

namespace Holds

variable {m : Nat} {q : Int} {v : Rat} (h : Holds m q v)
include h

theorem bounds : m * unit q - gap m q / 2 ≤ v ∧ v ≤ m * unit q + unit q / 2 := by
  unfold Holds at h
  split at h
  · exact h
  · exact ⟨h.1.le, h.2.le⟩

/-- The interval of a value that is not zero ends half a unit before zero. -/
theorem half_unit_le (hpos : 0 < m) : unit q / 2 ≤ v := by
  have hone : (1 : Rat) ≤ m := by exact_mod_cast hpos
  have hmul := mul_le_mul_of_nonneg_right hone (unit_pos q).le
  have hgap := gap_le m q
  linarith [h.bounds.1]

/-- Only an even significand is held at an end. -/
theorem even_of_end (hend : v = m * unit q - gap m q / 2 ∨ v = m * unit q + unit q / 2) : m % 2 = 0 := by
  unfold Holds at h
  by_contra hodd
  rw [if_neg hodd] at h
  rcases hend with rfl | rfl
  · exact absurd h.1 (lt_irrefl _)
  · exact absurd h.2 (lt_irrefl _)

end Holds

theorem Holds.self (m : Nat) (q : Int) : Holds m q (m * unit q) := by
  have hgap := gap_pos m q
  have hunit := unit_pos q
  unfold Holds
  split <;> constructor <;> linarith

/-- **What lies in the rounding interval of a value is rounded to it.** -/
theorem Rounded.eq_of_holds {m n : Nat} {q t : Int} {v : Rat} (hr : Rounded v n t) (hm : Canonical m q) (hpos : 0 < m)
    (h : Holds m q v) : n = m ∧ t = q := by
  refine hr.canonical.eq_of_eq hm ?_
  by_contra hne
  obtain ⟨hlow, hhigh⟩ := h.bounds
  have hgap := gap_pos m q
  have hunit := unit_pos q
  have hle := hr.nearest.le _ hm.representable
  -- Another nearest value is as near, so it is the neighbour beyond an end.
  have hodd : |m * unit q - v| ≤ |n * unit t - v| ∧ n % 2 = 1 := by
    rcases lt_or_gt_of_ne hne with hlt | hgt
    · have hbelow := hm.le_sub_gap hr.nearest.representable hlt
      have hend : v = m * unit q - gap m q / 2 ∧ n * unit t = m * unit q - gap m q := by
        rw [abs_of_nonpos (by linarith)] at hle
        rcases le_total v (m * unit q) with hv | hv
        · rw [abs_of_nonneg (by linarith)] at hle
          constructor <;> linarith
        · rw [abs_of_nonpos (by linarith)] at hle
          constructor <;> linarith
      refine ⟨?_, hm.odd_below hr.canonical hpos (h.even_of_end (.inl hend.1)) hend.2⟩
      rw [hend.1, hend.2, abs_of_nonneg (by linarith), abs_of_nonpos (by linarith)]
      linarith
    · have habove := hm.add_unit_le hr.nearest.representable hgt
      have hend : v = m * unit q + unit q / 2 ∧ n * unit t = m * unit q + unit q := by
        rw [abs_of_nonneg (by linarith)] at hle
        rcases le_total v (m * unit q) with hv | hv
        · rw [abs_of_nonneg (by linarith)] at hle
          constructor <;> linarith
        · rw [abs_of_nonpos (by linarith)] at hle
          constructor <;> linarith
      refine ⟨?_, hm.odd_above hr.canonical (h.even_of_end (.inr hend.1)) hend.2⟩
      rw [hend.1, hend.2, abs_of_nonpos (by linarith), abs_of_nonneg (by linarith)]
      linarith
  have heven := hr.even _ hm.representable (Ne.symm hne) hodd.1
  omega

/-- What is no farther from zero than its sum with `u` is not below `-u / 2`. -/
theorem neg_half_le_of_abs_le {a u : Rat} (hu : 0 < u) (h : |a| ≤ |a + u|) : -u / 2 ≤ a := by
  rcases le_total 0 a with ha | ha
  · linarith
  · rw [abs_of_nonpos ha] at h
    rcases le_total 0 (a + u) with hsum | hsum
    · rw [abs_of_nonneg hsum] at h
      linarith
    · rw [abs_of_nonpos hsum] at h
      linarith

/-- **A value lies in the rounding interval of what it is rounded to.** -/
theorem Rounded.holds {n : Nat} {t : Int} {v : Rat} (h : Rounded v n t) (hpos : 0 < n) : Holds n t v := by
  have hunit := unit_pos t
  have hgap := gap_pos n t
  have habove : Representable (n * unit t + unit t) := h.canonical.representable_above
  have hbelow : Representable (n * unit t - gap n t) := h.canonical.representable_below hpos
  have hnearest := h.nearest.le _ habove
  have hnearest' := h.nearest.le _ hbelow
  -- neither neighbour is nearer, and if one is as near, the significand is even
  have hupper : v ≤ n * unit t + unit t / 2 := by
    have hhalf := neg_half_le_of_abs_le (a := n * unit t - v) hunit (by convert hnearest using 2; ring)
    linarith
  have hlower : n * unit t - gap n t / 2 ≤ v := by
    have hhalf := neg_half_le_of_abs_le (a := v - n * unit t) hgap (by
      rw [abs_sub_comm v, ← abs_neg (v - n * unit t + gap n t)]
      convert hnearest' using 2
      ring)
    linarith
  unfold Holds
  split
  · exact ⟨hlower, hupper⟩
  · next hodd =>
    refine ⟨lt_of_le_of_ne hlower fun hend => hodd ?_, lt_of_le_of_ne hupper fun hend => hodd ?_⟩
    · refine h.even _ hbelow (by linarith) ?_
      rw [← hend, abs_of_nonpos (by linarith), abs_of_nonneg (by linarith)]
      linarith
    · refine h.even _ habove (by linarith) ?_
      rw [hend, abs_of_nonneg (by linarith), abs_of_nonpos (by linarith)]
      linarith

/-- Half way between two neighbours only one of them is even. -/
theorem Rounded.magnitude_le {n₁ n₂ : Nat} {t₁ t₂ : Int} {v : Rat} (h₁ : Rounded v n₁ t₁) (h₂ : Rounded v n₂ t₂) :
    n₂ * unit t₂ ≤ n₁ * unit t₁ := by
  by_contra hlt
  rw [not_le] at hlt
  have hle₁ := h₁.nearest.le _ h₂.nearest.representable
  have hle₂ := h₂.nearest.le _ h₁.nearest.representable
  have heven₁ := h₁.even _ h₂.nearest.representable hlt.ne' hle₂
  have heven₂ := h₂.even _ h₁.nearest.representable hlt.ne hle₁
  have hmiddle : n₂ * unit t₂ - v = v - n₁ * unit t₁ := by
    rcases abs_eq_abs.1 (le_antisymm hle₁ hle₂) with heq | heq <;> linarith
  have hunit := unit_pos t₁
  have habove := h₁.canonical.add_unit_le h₂.canonical.representable hlt
  have hnext := h₁.canonical.representable_above
  have hbest := h₂.nearest.le _ hnext
  rw [abs_of_nonneg (by linarith)] at hbest
  have hvalue : n₂ * unit t₂ = n₁ * unit t₁ + unit t₁ := by
    rcases le_total v (n₁ * unit t₁ + unit t₁) with hv | hv
    · rw [abs_of_nonneg (by linarith)] at hbest
      linarith
    · rw [abs_of_nonpos (by linarith)] at hbest
      linarith
  have hodd := h₁.canonical.odd_above h₂.canonical heven₁ hvalue
  omega

/-- **Rounding is determined by the value.** -/
theorem Rounded.unique {n₁ n₂ : Nat} {t₁ t₂ : Int} {v : Rat} (h₁ : Rounded v n₁ t₁) (h₂ : Rounded v n₂ t₂) :
    n₁ = n₂ ∧ t₁ = t₂ :=
  h₁.canonical.eq_of_eq h₂.canonical (le_antisymm (h₂.magnitude_le h₁) (h₁.magnitude_le h₂))

/-- A value is rounded to the double in whose interval its magnitude lies. -/
theorem RoundsEven.value_eq_iff {m : Nat} {q : Int} {v : Rat} {s : Sign} {x : Float} (h : RoundsEven (factor s * v) x)
    (hx : x.isFinite = true) (hv : 0 ≤ v) (hm : Canonical m q) (hpos : 0 < m) :
    value x = factor s * (m * unit q) ↔ Holds m q v := by
  obtain ⟨s', n, t, hsign, hrounded, rfl⟩ := h
  have habs : |factor s * v| = v := by rw [abs_mul, abs_factor, one_mul, abs_of_nonneg hv]
  rw [habs] at hsign hrounded
  have ht : t ≤ 971 := by
    rw [isFinite_packed s' hrounded.canonical] at hx
    exact of_decide_eq_true hx
  rw [value_packed s' hrounded.canonical ht]
  constructor
  · intro hvalue
    have hmagnitude : (n : Rat) * unit t = m * unit q := by rw [← abs_factor_mul s', hvalue, abs_factor_mul]
    obtain ⟨rfl, rfl⟩ := hrounded.canonical.eq_of_eq hm hmagnitude
    exact hrounded.holds hpos
  · intro hheld
    obtain ⟨rfl, rfl⟩ := hrounded.eq_of_holds hm hpos hheld
    have hfilled : 0 < v := (half_pos (unit_pos _)).trans_le (hheld.half_unit_le hpos)
    rw [mul_right_cancel₀ hfilled.ne' hsign]

end SolidScript.Double
