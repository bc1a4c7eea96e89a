import Mathlib.Data.Rat.Floor
import Mathlib.Tactic.Linarith

/-!
# Nearest representable values

The value of a finite double is a whole number of at most 53 bits times a power of two, not less than `2 ^ -1074`
(`Representable`). Rounding takes a value to one of the nearest of these (`Nearest`), if the upper limit of the exponent
is left aside.

* What is within half a unit of the last place is nearest (`nearest_of_half`), another one can be as near only half
  way between two multiples of the unit (`half_of_tie`), and between two powers of two nothing else is nearest
  (`Nearest.half_unit`).
* A representable value is its only nearest one (`Nearest.eq_self`), and rounding does not pass a representable value
  (`Nearest.le_of_le`, `Nearest.ge_of_ge`).
-/

namespace SolidScript.Double

/-- The unit `2 ^ t`. -/
def unit (t : Int) : Rat := 2 ^ t

theorem unit_pos (t : Int) : 0 < unit t := zpow_pos (by norm_num) t

theorem unit_add (s t : Int) : unit (s + t) = unit s * unit t := zpow_add₀ (by norm_num) s t

theorem unit_zero : unit 0 = 1 := zpow_zero 2

theorem unit_natCast (k : Nat) : unit k = 2 ^ k := zpow_natCast 2 k

theorem unit_add_natCast (e : Int) (k : Nat) : unit (e + k) = 2 ^ k * unit e := by
  rw [unit_add, unit_natCast, mul_comm]

theorem unit_le_unit {s t : Int} (h : s ≤ t) : unit s ≤ unit t := zpow_le_zpow_right₀ (by norm_num) h

theorem unit_lt_unit {s t : Int} (h : s < t) : unit s < unit t := zpow_lt_zpow_right₀ (by norm_num) h

theorem unit_succ (e : Int) : unit (e + 1) = 2 * unit e := by
  rw [unit_add, unit, unit, zpow_one, mul_comm]

/-- A larger unit is a multiple of a smaller one. -/
theorem unit_eq_mul {s t : Int} (h : s ≤ t) : ∃ k : Int, 0 < k ∧ unit t = k * unit s := by
  obtain ⟨n, hn⟩ : ∃ n : Nat, t = n + s := ⟨(t - s).toNat, by omega⟩
  refine ⟨2 ^ n, by positivity, ?_⟩
  rw [hn, unit_add, unit_natCast]
  push_cast
  rfl

/-- The value of a finite double, but for the upper limit of the exponent. -/
def Representable (q : Rat) : Prop :=
  ∃ k e : Int, |k| ≤ 2 ^ 53 ∧ -1074 ≤ e ∧ q = k * unit e

namespace Representable

variable {q : Rat} {t : Int}

theorem mk {k e : Int} (hk : |k| ≤ 2 ^ 53) (he : -1074 ≤ e) : Representable (k * unit e) :=
  ⟨k, e, hk, he, rfl⟩

theorem intCast {k : Int} (hk : |k| ≤ 2 ^ 53) : Representable k :=
  ⟨k, 0, hk, by norm_num, by rw [unit_zero, mul_one]⟩

/-- The least significand that has all 53 bits. -/
theorem hidden_bit {e : Int} (he : -1074 ≤ e) : Representable (2 ^ 52 * unit e) :=
  ⟨2 ^ 52, e, by norm_num, he, by norm_num⟩

theorem zero : Representable 0 := by
  have h : Representable ((0 : Int) : Rat) := intCast (by norm_num)
  simpa using h

theorem neg (h : Representable q) : Representable (-q) := by
  obtain ⟨k, e, hk, he, rfl⟩ := h
  refine ⟨-k, e, by rwa [abs_neg], he, ?_⟩
  push_cast
  ring

theorem abs (h : Representable q) : Representable |q| := by
  rcases abs_choice q with hq | hq
  · rwa [hq]
  · rw [hq]
    exact h.neg

/-- A power of two that is not too small. -/
theorem of_unit {e : Int} (he : -1074 ≤ e) : Representable (unit e) :=
  ⟨1, e, by norm_num, he, by rw [Int.cast_one, one_mul]⟩

theorem two_pow (k : Nat) : Representable (2 ^ k) := by
  rw [← unit_natCast]
  exact of_unit (by omega)

/-- Doubling is exact. -/
theorem mul_two_pow (h : Representable q) (n : Nat) : Representable (q * 2 ^ n) := by
  obtain ⟨k, e, hk, he, rfl⟩ := h
  refine ⟨k, e + n, hk, by omega, ?_⟩
  rw [unit_add, unit_natCast, mul_assoc]

/-- Every representable value is a multiple of the least unit. -/
theorem eq_mul_least (h : Representable q) : ∃ k : Int, q = k * unit (-1074) := by
  obtain ⟨k, e, -, he, rfl⟩ := h
  obtain ⟨l, -, hl⟩ := unit_eq_mul he
  refine ⟨k * l, ?_⟩
  rw [hl]
  push_cast
  ring

/-- Two different representable values are at least the least unit apart. -/
theorem le_abs_sub {r : Rat} (hq : Representable q) (hr : Representable r) (hne : q ≠ r) : unit (-1074) ≤ |q - r| := by
  obtain ⟨k, rfl⟩ := hq.eq_mul_least
  obtain ⟨l, rfl⟩ := hr.eq_mul_least
  have hkl : k ≠ l := by
    rintro rfl
    exact hne rfl
  have hone : (1 : Rat) ≤ |(k : Rat) - l| := by
    have hint : 1 ≤ |k - l| := Int.one_le_abs (sub_ne_zero.2 hkl)
    exact_mod_cast hint
  rw [← sub_mul, abs_mul, abs_of_pos (unit_pos _)]
  exact le_mul_of_one_le_left (unit_pos _).le hone

/-- From `2 ^ 52` units on, representable values are multiples of the unit. -/
theorem eq_mul_unit (h : Representable q) (hq : 2 ^ 52 * unit t ≤ |q|) : ∃ k : Int, q = k * unit t := by
  obtain ⟨k, e, hk, he, rfl⟩ := h
  rcases le_or_gt t e with hle | hlt
  · obtain ⟨l, -, hl⟩ := unit_eq_mul hle
    refine ⟨k * l, ?_⟩
    rw [hl]
    push_cast
    ring
  · -- The significand of a finer value is the largest one there is.
    have hk' : |(k : Rat)| ≤ 2 ^ 53 := by exact_mod_cast hk
    have hunit : 2 * unit e ≤ unit t := by
      rw [← unit_succ]
      exact unit_le_unit (by omega)
    have habs : |(k : Rat) * unit e| = |(k : Rat)| * unit e := by rw [abs_mul, abs_of_pos (unit_pos e)]
    have hupper : |(k : Rat)| * unit e ≤ 2 ^ 53 * unit e := mul_le_mul_of_nonneg_right hk' (unit_pos e).le
    have heq : |(k : Rat) * unit e| = 2 ^ 52 * unit t := by
      rw [habs] at hq ⊢
      linarith
    have hnonneg : 0 ≤ 2 ^ 52 * unit t := mul_nonneg (by norm_num) (unit_pos t).le
    rcases (abs_eq hnonneg).1 heq with hpos | hneg
    · exact ⟨2 ^ 52, by rw [hpos]; norm_num⟩
    · exact ⟨-2 ^ 52, by rw [hneg]; norm_num⟩

end Representable

/-- One of the representable values that are nearest to `v`. -/
structure Nearest (v w : Rat) : Prop where
  representable : Representable w
  le : ∀ f, Representable f → |w - v| ≤ |f - v|

section Units

variable {v : Rat} {n t : Int}

/-- Two multiples of a unit are at least the unit apart. -/
theorem unit_le_abs_sub {k : Int} (hne : k ≠ n) (t : Int) : unit t ≤ |k * unit t - n * unit t| := by
  have hone : (1 : Rat) ≤ |(k : Rat) - n| := by
    have hint : 1 ≤ |k - n| := Int.one_le_abs (sub_ne_zero.2 hne)
    exact_mod_cast hint
  rw [← sub_mul, abs_mul, abs_of_pos (unit_pos t)]
  exact le_mul_of_one_le_left (unit_pos t).le hone

/-- No multiple of a unit is nearer than one that is within half a unit. -/
theorem abs_sub_le_of_half (hhalf : |n * unit t - v| ≤ unit t / 2) (k : Int) :
    |n * unit t - v| ≤ |k * unit t - v| := by
  rcases eq_or_ne k n with rfl | hne
  · exact le_rfl
  · have hgap := unit_le_abs_sub hne t
    have htriangle : |k * unit t - n * unit t| ≤ |k * unit t - v| + |v - n * unit t| := abs_sub_le _ _ _
    rw [abs_sub_comm v] at htriangle
    linarith

/-- A representable value is a multiple of the unit, unless a multiple of the unit is nearer. -/
theorem Representable.multiple_or_nearer {f : Rat} (hf : Representable f)
    (hlow : t = -1074 ∨ 2 ^ 52 * unit t ≤ |v|) :
    (∃ k : Int, f = k * unit t) ∨ ∃ k : Int, |k * unit t - v| < |f - v| := by
  rcases le_or_gt (2 ^ 52 * unit t) |f| with hbig | hsmall
  · exact .inl (hf.eq_mul_unit hbig)
  · rcases hlow with rfl | hv
    · exact .inl hf.eq_mul_least
    · -- The last multiple with 53 bits is between the finer value and `v`.
      have hfar : |v| - 2 ^ 52 * unit t < |f - v| := by
        have htriangle : |v| - |f| ≤ |v - f| := abs_sub_abs_le_abs_sub v f
        rw [abs_sub_comm] at htriangle
        linarith
      right
      rcases le_total 0 v with hpos | hneg
      · refine ⟨2 ^ 52, lt_of_eq_of_lt ?_ hfar⟩
        rw [abs_of_nonneg hpos] at hv ⊢
        push_cast
        rw [abs_sub_comm, abs_of_nonneg (by linarith)]
        norm_num
      · refine ⟨-2 ^ 52, lt_of_eq_of_lt ?_ hfar⟩
        rw [abs_of_nonpos hneg] at hv ⊢
        push_cast
        rw [abs_of_nonneg (by linarith)]
        ring

/-- What is within half a unit of the last place is nearest. -/
theorem nearest_of_half (ht : -1074 ≤ t) (hn : |n| ≤ 2 ^ 53) (hhalf : |n * unit t - v| ≤ unit t / 2)
    (hlow : t = -1074 ∨ 2 ^ 52 * unit t ≤ |v|) : Nearest v (n * unit t) := by
  refine ⟨.mk hn ht, fun f hf => ?_⟩
  rcases hf.multiple_or_nearer hlow with ⟨k, rfl⟩ | ⟨k, hk⟩
  · exact abs_sub_le_of_half hhalf k
  · exact (abs_sub_le_of_half hhalf k).trans hk.le

/-- Another representable value can be as near only half way between two multiples of the unit. -/
theorem half_of_tie (hhalf : |n * unit t - v| ≤ unit t / 2) (hlow : t = -1074 ∨ 2 ^ 52 * unit t ≤ |v|) {f : Rat}
    (hf : Representable f) (hne : f ≠ n * unit t) (htie : |f - v| ≤ |n * unit t - v|) :
    |n * unit t - v| = unit t / 2 := by
  rcases hf.multiple_or_nearer hlow with ⟨k, rfl⟩ | ⟨k, hk⟩
  · have hkn : k ≠ n := by
      rintro rfl
      exact hne rfl
    have hgap := unit_le_abs_sub hkn t
    have htriangle : |k * unit t - n * unit t| ≤ |k * unit t - v| + |v - n * unit t| := abs_sub_le _ _ _
    rw [abs_sub_comm v] at htriangle
    linarith
  · have hle := abs_sub_le_of_half hhalf k
    linarith

end Units

namespace Nearest

variable {v w f : Rat}

theorem self (h : Representable v) : Nearest v v := by
  refine ⟨h, fun f _ => ?_⟩
  rw [sub_self, abs_zero]
  exact abs_nonneg _

/-- A representable value is its only nearest one. -/
theorem eq_self (h : Nearest v w) (hv : Representable v) : w = v := by
  have hle := h.le v hv
  rw [sub_self, abs_zero] at hle
  exact sub_eq_zero.1 (abs_nonpos_iff.1 hle)

theorem neg (h : Nearest v w) : Nearest (-v) (-w) := by
  refine ⟨h.representable.neg, fun f hf => ?_⟩
  have hle := h.le (-f) hf.neg
  have hleft : |-w - -v| = |w - v| := by rw [← abs_neg]; congr 1; ring
  have hright : |f - -v| = |-f - v| := by rw [← abs_neg]; congr 1; ring
  rwa [hleft, hright]

/-- Rounding does not pass a representable value on the way down. -/
theorem le_of_le (h : Nearest v w) (hf : Representable f) (hle : f ≤ v) : f ≤ w := by
  by_contra hlt
  have hnear := h.le f hf
  rw [not_le] at hlt
  rw [abs_of_nonpos (by linarith), abs_of_nonpos (by linarith)] at hnear
  linarith

/-- Rounding does not pass a representable value on the way up. -/
theorem ge_of_ge (h : Nearest v w) (hf : Representable f) (hle : v ≤ f) : w ≤ f := by
  have hneg := h.neg.le_of_le hf.neg (neg_le_neg hle)
  linarith

/-- Rounding keeps the order. -/
theorem le_of_lt {v' w' : Rat} (h : Nearest v w) (h' : Nearest v' w') (hlt : v < v') : w ≤ w' := by
  have hnear := sq_le_sq.2 (h.le w' h'.representable)
  have hnear' := sq_le_sq.2 (h'.le w h.representable)
  have hproduct : (w - w') * (v' - v) ≤ 0 := by linarith
  exact sub_nonpos.1 (nonpos_of_mul_nonpos_left hproduct (sub_pos.2 hlt))

/-- What is not too small keeps its sign. -/
theorem pos_iff (h : Nearest v w) (hv : unit (-1074) ≤ |v|) : 0 < w ↔ 0 < v := by
  constructor
  · intro hw
    by_contra hle
    exact absurd (h.ge_of_ge .zero (not_lt.1 hle)) (not_le.2 hw)
  · intro hpos
    rw [abs_of_pos hpos] at hv
    exact lt_of_lt_of_le (unit_pos _) (h.le_of_le (.of_unit le_rfl) hv)

theorem abs_le_of_le (h : Nearest v w) (hf : Representable f) (hle : |v| ≤ f) : |w| ≤ f := by
  obtain ⟨hlow, hhigh⟩ := abs_le.1 hle
  exact abs_le.2 ⟨h.le_of_le hf.neg hlow, h.ge_of_ge hf hhigh⟩

theorem le_abs_of_le (h : Nearest v w) (hf : Representable f) (hle : f ≤ |v|) : f ≤ |w| := by
  rcases le_abs'.1 hle with hneg | hpos
  · exact le_abs'.2 (.inl (h.ge_of_ge hf.neg hneg))
  · exact le_abs'.2 (.inr (h.le_of_le hf hpos))

/-- Rounding goes no further than to a representable value of less magnitude. -/
theorem abs_sub_le_of_le (h : Nearest v w) (hf : Representable f) (hle : f ≤ |v|) : |w - v| ≤ |v| - f := by
  rcases le_total 0 v with hpos | hneg
  · have hbest := h.le f hf
    rw [abs_of_nonneg hpos] at hle ⊢
    rwa [abs_sub_comm f, abs_of_nonneg (sub_nonneg.2 hle)] at hbest
  · have hbest := h.le (-f) hf.neg
    rw [abs_of_nonpos hneg] at hle ⊢
    rwa [abs_of_nonneg (by linarith : 0 ≤ -f - v), neg_sub_comm] at hbest

/-- Up to `2 ^ 53` units, rounding goes no further than half a unit. -/
theorem half_unit {t : Int} (h : Nearest v w) (ht : -1074 ≤ t) (hv : |v| ≤ 2 ^ 53 * unit t) :
    |w - v| ≤ unit t / 2 := by
  have hpos := unit_pos t
  have hscaled : |v / unit t| ≤ 2 ^ 53 := by
    rw [abs_div, abs_of_pos hpos, div_le_iff₀ hpos]
    exact hv
  have hround := abs_sub_round (v / unit t)
  have hk : |round (v / unit t)| ≤ 2 ^ 53 := by
    have htriangle := abs_sub_abs_le_abs_sub ((round (v / unit t) : Int) : Rat) (v / unit t)
    rw [abs_sub_comm] at htriangle
    have hlt : |((round (v / unit t) : Int) : Rat)| < 2 ^ 53 + 1 := by linarith
    have hint : |round (v / unit t)| < 2 ^ 53 + 1 := by exact_mod_cast hlt
    omega
  have hle := h.le _ (.mk hk ht)
  have hdist : |round (v / unit t) * unit t - v| = |v / unit t - round (v / unit t)| * unit t := by
    rw [← abs_of_pos hpos, ← abs_mul, abs_of_pos hpos, sub_mul, div_mul_cancel₀ v hpos.ne', abs_sub_comm]
  rw [hdist] at hle
  have hbound := mul_le_mul_of_nonneg_right hround hpos.le
  linarith

/-- The same, where the result is known to be below `2 ^ 53` units. -/
theorem half_unit_of_lt {t : Int} (h : Nearest v w) (ht : -1074 ≤ t) (hw : |w| < 2 ^ 53 * unit t) :
    |w - v| ≤ unit t / 2 := by
  refine h.half_unit ht ?_
  by_contra hv
  have hlimit : Representable (2 ^ 53 * unit t) := ⟨2 ^ 53, t, by norm_num, ht, by norm_num⟩
  exact absurd (h.le_abs_of_le hlimit (not_le.1 hv).le) (not_le.2 hw)

end Nearest

end SolidScript.Double
