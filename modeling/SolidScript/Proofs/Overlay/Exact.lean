import Mathlib.Data.Rat.Floor
import Mathlib.Tactic.Linarith
import SolidScript.Overlay.Normalize

/-!
# Normalization in exact arithmetic

Over the rationals, where no operation rounds, normalized ranges are what the grid asks for.

* The range that `anchor` gives reaches the origin and has the length of the one it was given (`anchor_eq_reaching`).
* An end stays where it is exactly when it lies just beyond a multiple of the increment (`isMultiple_iff`); every other
  end goes to the next multiple of the coarsest spacing away from zero (`outward_snap`).
* So every range without a length becomes the default span, and every other range becomes one around the origin that
  covers it, goes less than one spacing further at each end, and is on the grid (`Bounds.normalize_exact`).
-/

namespace SolidScript

/-! ## One value beyond another -/

/-- As seen from zero, `x` lies beyond `m`, by less than `δ`. -/
structure Beyond (m δ x : Rat) : Prop where
  side : 0 ≤ m * x
  le : |m| ≤ |x|
  lt : |x| < |m| + δ

namespace Beyond

variable {m δ x s : Rat}

theorem of_nonneg (hm : 0 ≤ m) (hle : m ≤ x) (hlt : x < m + δ) : Beyond m δ x := by
  have hx : 0 ≤ x := le_trans hm hle
  refine ⟨mul_nonneg hm hx, ?_, ?_⟩
  · rwa [abs_of_nonneg hm, abs_of_nonneg hx]
  · rwa [abs_of_nonneg hm, abs_of_nonneg hx]

theorem of_nonpos (hm : m ≤ 0) (hle : x ≤ m) (hlt : m - δ < x) : Beyond m δ x := by
  have hx : x ≤ 0 := le_trans hle hm
  refine ⟨mul_nonneg_of_nonpos_of_nonpos hm hx, ?_, ?_⟩
  · rw [abs_of_nonpos hm, abs_of_nonpos hx]
    linarith
  · rw [abs_of_nonpos hm, abs_of_nonpos hx]
    linarith

theorem of_pos (h : Beyond m δ x) (hm : 0 < m) : m ≤ x ∧ x < m + δ := by
  have hx : 0 ≤ x := nonneg_of_mul_nonneg_right h.side hm
  have hle := h.le
  have hlt := h.lt
  rw [abs_of_pos hm, abs_of_nonneg hx] at hle hlt
  exact ⟨hle, hlt⟩

theorem of_neg (h : Beyond m δ x) (hm : m < 0) : x ≤ m ∧ m - δ < x := by
  have hx : x ≤ 0 := by
    by_contra hpos
    have hprod : m * x < 0 := mul_neg_of_neg_of_pos hm (not_le.1 hpos)
    exact absurd h.side (not_le.2 hprod)
  have hle := h.le
  have hlt := h.lt
  rw [abs_of_neg hm, abs_of_nonpos hx] at hle hlt
  constructor <;> linarith

/-- The distance of the two values. -/
theorem abs_sub (h : Beyond m δ x) : |x - m| = |x| - |m| := by
  rcases lt_trichotomy m 0 with hneg | rfl | hpos
  · obtain ⟨hle, -⟩ := h.of_neg hneg
    rw [abs_of_nonpos (by linarith), abs_of_neg hneg, abs_of_neg (by linarith)]
    ring
  · rw [sub_zero, abs_zero, sub_zero]
  · obtain ⟨hle, -⟩ := h.of_pos hpos
    rw [abs_of_nonneg (by linarith), abs_of_pos hpos, abs_of_pos (by linarith)]

theorem refl (x : Rat) (hδ : 0 < δ) : Beyond x δ x :=
  ⟨mul_self_nonneg x, le_rfl, by linarith⟩

theorem scale (h : Beyond m δ x) (hs : 0 < s) : Beyond (m * s) (δ * s) (x * s) := by
  refine ⟨?_, ?_, ?_⟩
  · calc 0 ≤ m * x * (s * s) := mul_nonneg h.side (mul_pos hs hs).le
      _ = m * s * (x * s) := by ring
  · rw [abs_mul, abs_mul]
    exact mul_le_mul_of_nonneg_right h.le (abs_nonneg s)
  · rw [abs_mul, abs_mul, abs_of_pos hs, ← add_mul]
    exact mul_lt_mul_of_pos_right h.lt hs

/-- Only one multiple of `s` has a value beyond it by less than `s`, up to its sign. -/
theorem abs_eq {k l : Int} (hs : 0 < s) (hk : Beyond (k * s) s x) (hl : Beyond (l * s) s x) : |k * s| = |l * s| := by
  have habs : ∀ n : Int, |n * s| = ((|n| : Int) : Rat) * s := by
    intro n
    rw [abs_mul, abs_of_pos hs, Int.cast_abs]
  have hle : ∀ {a b : Int}, Beyond (a * s) s x → Beyond (b * s) s x → |a| ≤ |b| := by
    intro a b ha hb
    have hlt : |a * s| < |b * s| + s := lt_of_le_of_lt ha.le hb.lt
    rw [habs, habs, ← add_one_mul] at hlt
    have hcast : ((|a| : Int) : Rat) < |b| + 1 := lt_of_mul_lt_mul_right hlt hs.le
    exact Int.lt_add_one_iff.1 (by exact_mod_cast hcast)
  have heq : |k| = |l| := le_antisymm (hle hk hl) (hle hl hk)
  rw [habs, habs, heq]

end Beyond

/-! ## Rounding and remainders -/

namespace Rational

theorem eq_iff {a b : Rat} : Scalar.eq a b = true ↔ a = b := decide_eq_true_iff

theorem floor_add_half_eq_zero {a : Rat} (h : 0 ≤ a) : (a + 1 / 2).floor = 0 ↔ a < 1 / 2 := by
  have hle : 0 ≤ (a + 1 / 2).floor := Rat.le_floor_iff.2 (by push_cast; linarith)
  have hlt : (a + 1 / 2).floor < 1 ↔ a + 1 / 2 < ((1 : Int) : Rat) := Rat.floor_lt_iff
  push_cast at hlt
  constructor
  · intro hzero
    have hbound := hlt.1 (by omega)
    linarith
  · intro hbound
    have hone := hlt.2 (by linarith)
    omega

/-- What is nearer to zero than a half is rounded to zero, and nothing else. -/
theorem round_eq_zero_iff (a : Rat) : round a = 0 ↔ |a| < 1 / 2 := by
  unfold round
  by_cases hneg : a < 0
  · have hfloor := floor_add_half_eq_zero (a := -a) (by linarith)
    rw [if_pos hneg, neg_eq_zero, Int.cast_eq_zero, hfloor, abs_of_neg hneg]
  · have hpos : 0 ≤ a := not_lt.1 hneg
    rw [if_neg hneg, Int.cast_eq_zero, floor_add_half_eq_zero hpos, abs_of_nonneg hpos]

/-- Rounding gives a whole number. -/
theorem exists_round_eq (a : Rat) : ∃ n : Int, round a = n := by
  unfold round
  by_cases hneg : a < 0
  · exact ⟨-(-a + 1 / 2).floor, by rw [if_pos hneg, Int.cast_neg]⟩
  · exact ⟨(a + 1 / 2).floor, by rw [if_neg hneg]⟩

/-- A value lies less than one beyond its whole part. -/
theorem beyond_toward (q : Rat) :
    ∃ k : Int, (if q < 0 then (q.ceil : Rat) else (q.floor : Rat)) = k ∧ Beyond k 1 q := by
  by_cases hneg : q < 0
  · have hceil : q.ceil ≤ 0 := Rat.ceil_le_iff.2 (by push_cast; linarith)
    have hlt : (q.ceil : Rat) < q + 1 := Rat.ceil_lt
    refine ⟨q.ceil, if_pos hneg, .of_nonpos ?_ Rat.le_ceil (by linarith)⟩
    exact_mod_cast hceil
  · have hfloor : 0 ≤ q.floor := Rat.le_floor_iff.2 (by push_cast; linarith)
    have hlt : q - 1 < (q.floor : Rat) := Rat.lt_floor
    refine ⟨q.floor, if_neg hneg, .of_nonneg ?_ (Rat.floor_le q) (by linarith)⟩
    exact_mod_cast hfloor

/-- The next whole number away from zero lies less than one beyond a value. -/
theorem beyond_away (q : Rat) : ∃ k : Int, (if 0 < q then (q.ceil : Rat) else (q.floor : Rat)) = k ∧ Beyond q 1 k := by
  by_cases hpos : 0 < q
  · exact ⟨q.ceil, if_pos hpos, .of_nonneg hpos.le Rat.le_ceil Rat.ceil_lt⟩
  · exact ⟨q.floor, if_neg hpos, .of_nonpos (not_lt.1 hpos) (Rat.floor_le q) Rat.lt_floor⟩

/-- The remainder is what lies beyond a multiple of the divisor. -/
theorem rem_eq_sub (a : Rat) {b : Rat} (hb : 0 < b) : ∃ k : Int, rem a b = a - k * b ∧ Beyond (k * b) b a := by
  obtain ⟨k, hk, hbeyond⟩ := beyond_toward (a / b)
  have hscaled := hbeyond.scale hb
  rw [div_mul_cancel₀ a (ne_of_gt hb), one_mul] at hscaled
  refine ⟨k, ?_, hscaled⟩
  show a - b * _ = a - k * b
  rw [hk, mul_comm]

end Rational

namespace Overlay

open Rational

/-! ## The grid -/

/-- Five places of a remainder are counted in these steps. -/
theorem tenTo_remainderPlaces : (Scalar.tenTo remainderPlaces : Rat) = 100000 := by decide +kernel

/-- A number of grid steps is a multiple of the increment just when it lies less than half of the last place that
counts beyond one. -/
theorem isMultiple_iff {i x : Rat} (hi : 5 / 1000000 ≤ i) :
    isMultiple i x = true ↔ ∃ k : Int, Beyond (k * i) (5 / 1000000) x := by
  have hpos : 0 < i := lt_of_lt_of_le (by norm_num) hi
  obtain ⟨l, hrem, hl⟩ := rem_eq_sub x hpos
  have hsize : isMultiple i x = true ↔ |x| < |l * i| + 5 / 1000000 := by
    have hround : isMultiple i x = true ↔ Rational.round (rem x i * 100000) / 100000 = 0 := by
      rw [← tenTo_remainderPlaces]
      exact eq_iff
    rw [hround, div_eq_zero_iff, or_iff_left (by norm_num), round_eq_zero_iff, abs_mul, hrem, hl.abs_sub,
      abs_of_nonneg (by norm_num : (0 : Rat) ≤ 100000)]
    constructor <;> intro h <;> linarith
  rw [hsize]
  constructor
  · intro h
    exact ⟨l, hl.side, hl.le, h⟩
  · rintro ⟨k, hk⟩
    have hk' : Beyond (k * i) i x := ⟨hk.side, hk.le, by linarith [hk.lt]⟩
    rw [hl.abs_eq hpos hk']
    exact hk.lt

section Grid

variable (u : UnitSystem)

/-- The coarsest spacing is 20 mm or a quarter of an inch. -/
theorem first_tier : (u.tiers.first : Rat) = match u with | .metric => 20 | .imperial => 1 / 4 := by
  cases u <;> decide +kernel

theorem precision_pos : (0 : Rat) < u.precision := by
  cases u <;> decide +kernel

theorem spacing_pos : (0 : Rat) < u.tiers.first := by
  rw [first_tier]
  cases u <;> norm_num

theorem tolerance_le_increment : (5 / 1000000 : Rat) ≤ u.increment := by
  cases u <;> decide +kernel

/-- A coordinate that counts as on the coarsest grid: in grid steps, it lies within the tolerance beyond a multiple of
the increment. -/
def NearGrid (x : Rat) : Prop :=
  ∃ k : Int, Beyond (k * u.increment) (5 / 1000000) (x * u.precision)

/-- Where a coordinate goes on the coarsest grid: it is kept if it counts as on the grid, and otherwise it is moved to
the next multiple of the spacing away from zero. -/
inductive Outward (x : Rat) : Rat → Prop where
  | kept (near : NearGrid u x) : Outward x x
  | moved (k : Int) (off : ¬ NearGrid u x) (next : Beyond x u.tiers.first (k * u.tiers.first)) :
    Outward x (k * u.tiers.first)

variable {u} {x y : Rat}

theorem nearGrid_zero : NearGrid u 0 :=
  ⟨0, by simpa using Beyond.refl 0 (by norm_num : (0 : Rat) < 5 / 1000000)⟩

theorem nearGrid_multiple (k : Int) : NearGrid u (k * u.tiers.first) := by
  refine ⟨k, ?_⟩
  have hscaled : k * u.tiers.first * u.precision = k * (u.increment : Rat) := mul_assoc _ _ _
  rw [hscaled]
  exact .refl _ (by norm_num)

/-- Neither the increment nor the precision is zero. -/
theorem grid_nonzero : (Scalar.eq (u.increment : Rat) 0 || Scalar.eq (u.precision : Rat) 0) = false := by
  cases u <;> decide +kernel

theorem isAligned_iff : isAligned u.increment u.precision x = true ↔ NearGrid u x := by
  rw [isAligned, grid_nonzero, Bool.false_or]
  exact isMultiple_iff (tolerance_le_increment u)

theorem outward_snap (u : UnitSystem) (x : Rat) : Outward u x (snap u.increment u.precision x) := by
  have hfinite : Scalar.isFinite (x * u.precision) = true := rfl
  simp only [snap, grid_nonzero, Bool.false_eq_true, if_false, hfinite, Bool.not_true, Bool.false_or]
  by_cases hnear : NearGrid u x
  · rw [if_pos ((isMultiple_iff (tolerance_le_increment u)).2 hnear)]
    exact .kept hnear
  · rw [if_neg fun h => hnear ((isMultiple_iff (tolerance_le_increment u)).1 h)]
    have hp : (0 : Rat) < u.precision := precision_pos u
    have hs : (0 : Rat) < u.tiers.first := spacing_pos u
    have hsteps : x * u.precision / u.increment = x / u.tiers.first := by
      show x * u.precision / (u.tiers.first * u.precision) = _
      exact mul_div_mul_right _ _ hp.ne'
    have hsign : 0 < x * u.precision ↔ 0 < x / u.tiers.first := by
      rw [mul_pos_iff_of_pos_right hp, div_pos_iff_of_pos_right hs]
    obtain ⟨k, hk, hbeyond⟩ := beyond_away (x / u.tiers.first)
    have hresult : k * u.increment / u.precision = k * (u.tiers.first : Rat) := by
      show (k : Rat) * (u.tiers.first * u.precision) / u.precision = _
      rw [← mul_assoc, mul_div_cancel_right₀ _ hp.ne']
    have hnext := hbeyond.scale hs
    rw [div_mul_cancel₀ x hs.ne', one_mul] at hnext
    have hvalue : (if 0 < x * u.precision then Scalar.ceil (x * u.precision / u.increment)
        else Scalar.floor (x * u.precision / u.increment)) = (k : Rat) := by
      rw [hsteps, ← hk]
      exact if_congr hsign rfl rfl
    rw [hvalue, hresult]
    exact .moved k hnear hnext

namespace Outward

theorem nearGrid (h : Outward u x y) : NearGrid u y := by
  cases h with
  | kept near => exact near
  | moved k => exact nearGrid_multiple k

theorem zero (h : Outward u 0 y) : y = 0 := by
  cases h with
  | kept => rfl
  | moved k off => exact absurd nearGrid_zero off

theorem of_nonneg (h : Outward u x y) (hx : 0 ≤ x) : x ≤ y ∧ y < x + u.tiers.first := by
  have hs : (0 : Rat) < u.tiers.first := spacing_pos u
  cases h with
  | kept => exact ⟨le_rfl, by linarith⟩
  | moved k off next =>
    have hne : x ≠ 0 := by
      rintro rfl
      exact off nearGrid_zero
    exact next.of_pos (lt_of_le_of_ne hx hne.symm)

theorem of_nonpos (h : Outward u x y) (hx : x ≤ 0) : y ≤ x ∧ x - u.tiers.first < y := by
  have hs : (0 : Rat) < u.tiers.first := spacing_pos u
  cases h with
  | kept => exact ⟨le_rfl, by linarith⟩
  | moved k off next =>
    have hne : x ≠ 0 := by
      rintro rfl
      exact off nearGrid_zero
    exact next.of_neg (lt_of_le_of_ne hx hne)

end Outward

end Grid

/-! ## Ranges -/

/-- The range moved to the origin, by the signs and the order of its ends. -/
def Range.reaching (r : Range Rat) : Range Rat :=
  let length := |r.max - r.min|
  if (r.max < r.min ∧ r.max < 0) ∨ (r.min < 0 ∧ r.max < 0) then ⟨-length, 0⟩
  else if (r.max < r.min ∧ 0 ≤ r.max) ∨ (0 < r.min ∧ 0 < r.max) then ⟨0, length⟩
  else r

/-- The normalized range `result` covers the range `r` that reaches the origin, on the coarsest grid. -/
structure Covers (u : UnitSystem) (r result : Range Rat) : Prop where
  origin : result.min ≤ 0 ∧ 0 ≤ result.max
  nonempty : result.min < result.max
  contains : result.min ≤ r.min ∧ r.max ≤ result.max
  exceeds : r.min - result.min < u.tiers.first ∧ result.max - r.max < u.tiers.first
  zero : (r.min = 0 → result.min = 0) ∧ (r.max = 0 → result.max = 0)
  outward : Outward u r.min result.min ∧ Outward u r.max result.max
  aligned : isAligned u.increment u.precision result.min = true ∧ isAligned u.increment u.precision result.max = true

/-- The range `result` is the normalized form of the range `r`. -/
structure Normalized (u : UnitSystem) (r result : Range Rat) : Prop where
  /-- A range without a length becomes the default span. -/
  degenerate : r.min = r.max → result = ⟨0, 300⟩
  /-- Every other range is moved to the origin with its length, and then covered. -/
  proper : r.min ≠ r.max → anchor defaultSpan r = r.reaching ∧ r.reaching.min ≤ 0 ∧ 0 ≤ r.reaching.max ∧
    r.reaching.extent = |r.max - r.min| ∧ Covers u r.reaching result

namespace Range

variable {r : Range Rat}

theorem anchor_eq_reaching (h : r.min ≠ r.max) : anchor defaultSpan r = r.reaching := by
  have hlength : (Scalar.eq r.min r.max || !Scalar.isFinite (r.max - r.min)) = false := by
    have heq : Scalar.eq r.min r.max = false := decide_eq_false h
    rw [heq]
    rfl
  simp only [anchor, hlength, Bool.false_eq_true, if_false, reaching]
  by_cases hswapped : r.max < r.min
  · have hd : |r.max - r.min| = r.min - r.max := by
      rw [abs_of_neg (by linarith)]
      ring
    rw [if_pos hswapped, hd]
    by_cases hneg : r.max < 0
    · rw [if_pos hneg, if_pos (.inl ⟨hswapped, hneg⟩)]
    · rw [if_neg hneg, if_neg (by tauto), if_pos (.inl ⟨hswapped, not_lt.1 hneg⟩)]
  · have hlt : r.min < r.max := lt_of_le_of_ne (not_lt.1 hswapped) h
    have hd : |r.max - r.min| = r.max - r.min := abs_of_pos (by linarith)
    rw [if_neg hswapped, hd]
    by_cases hpos : 0 < r.min ∧ 0 < r.max
    · have hneg : ¬ (r.min < 0 ∧ r.max < 0) := fun hneg => absurd hneg.1 (by linarith [hpos.1])
      rw [if_pos hpos, if_neg (by tauto), if_pos (.inr hpos)]
    · by_cases hneg : r.min < 0 ∧ r.max < 0
      · rw [if_neg hpos, if_pos hneg, if_pos (.inr hneg)]
      · rw [if_neg hpos, if_neg hneg, if_neg (by tauto), if_neg (by tauto)]

/-- The moved range reaches the origin and has a length, which is that of the range. -/
theorem reaching_spec (h : r.min ≠ r.max) :
    r.reaching.min ≤ 0 ∧ 0 ≤ r.reaching.max ∧ r.reaching.extent = |r.max - r.min| := by
  have hd : 0 ≤ |r.max - r.min| := abs_nonneg _
  unfold reaching
  by_cases hneg : (r.max < r.min ∧ r.max < 0) ∨ (r.min < 0 ∧ r.max < 0)
  · rw [if_pos hneg]
    exact ⟨neg_nonpos.2 hd, le_rfl, by simp [extent]⟩
  · by_cases hpos : (r.max < r.min ∧ 0 ≤ r.max) ∨ (0 < r.min ∧ 0 < r.max)
    · rw [if_neg hneg, if_pos hpos]
      exact ⟨le_rfl, hd, by simp [extent]⟩
    · rw [if_neg hneg, if_neg hpos]
      have hle : r.min ≤ r.max := by
        by_contra hswapped
        rcases lt_or_ge r.max 0 with hmax | hmax
        · exact hneg (.inl ⟨not_le.1 hswapped, hmax⟩)
        · exact hpos (.inl ⟨not_le.1 hswapped, hmax⟩)
      have hlt : r.min < r.max := lt_of_le_of_ne hle h
      refine ⟨?_, ?_, (abs_of_pos (sub_pos.2 hlt)).symm⟩
      · by_contra hmin
        exact hpos (.inr ⟨not_le.1 hmin, (not_le.1 hmin).trans hlt⟩)
      · by_contra hmax
        exact hneg (.inr ⟨hlt.trans (not_le.1 hmax), not_le.1 hmax⟩)

/-- Both ends of a range around the origin, moved outward, give a range that covers it. -/
theorem covers_of_outward {u : UnitSystem} {result : Range Rat} (hmin : r.min ≤ 0) (hmax : 0 ≤ r.max)
    (hlt : r.min < r.max) (hlow : Outward u r.min result.min) (hhigh : Outward u r.max result.max) :
    Covers u r result := by
  obtain ⟨hle, hnear⟩ := hlow.of_nonpos hmin
  obtain ⟨hge, hnear'⟩ := hhigh.of_nonneg hmax
  exact {
    origin := ⟨hle.trans hmin, hmax.trans hge⟩
    nonempty := lt_of_le_of_lt hle (lt_of_lt_of_le hlt hge)
    contains := ⟨hle, hge⟩
    exceeds := ⟨by linarith, by linarith⟩
    zero := ⟨fun h => (h ▸ hlow).zero, fun h => (h ▸ hhigh).zero⟩
    outward := ⟨hlow, hhigh⟩
    aligned := ⟨isAligned_iff.2 hlow.nearGrid, isAligned_iff.2 hhigh.nearGrid⟩ }

theorem normalize_of_min_eq_max (u : UnitSystem) (h : r.min = r.max) :
    r.normalize defaultSpan u.increment u.precision = ⟨0, 300⟩ := by
  have hanchor : anchor defaultSpan r = ⟨0, 300⟩ := by
    have hlength : (Scalar.eq r.min r.max || !Scalar.isFinite (r.max - r.min)) = true := by
      have heq : Scalar.eq r.min r.max = true := eq_iff.2 h
      rw [heq, Bool.true_or]
    rw [anchor, if_pos hlength]
    rfl
  rw [normalize, hanchor]
  cases u <;> decide +kernel

theorem normalized_normalize (u : UnitSystem) (r : Range Rat) :
    Normalized u r (r.normalize defaultSpan u.increment u.precision) := by
  refine ⟨normalize_of_min_eq_max u, fun h => ?_⟩
  obtain ⟨hmin, hmax, hextent⟩ := reaching_spec h
  have hlt : r.reaching.min < r.reaching.max := by
    have hpos : 0 < r.reaching.extent := by
      rw [hextent]
      exact abs_pos.2 (sub_ne_zero.2 h.symm)
    exact sub_pos.1 hpos
  refine ⟨anchor_eq_reaching h, hmin, hmax, hextent, ?_⟩
  rw [normalize, anchor_eq_reaching h]
  exact covers_of_outward hmin hmax hlt (outward_snap u _) (outward_snap u _)

end Range

/-- **Normalization is exact over the rationals.** Along each axis, a range without a length becomes the default span,
and every other range is moved to the origin and covered on the coarsest grid. -/
theorem Bounds.normalize_exact (u : UnitSystem) (b : Bounds Rat) :
    Normalized u b.x (b.normalize defaultSpan u).x ∧ Normalized u b.y (b.normalize defaultSpan u).y ∧
      Normalized u b.z (b.normalize defaultSpan u).z :=
  ⟨b.x.normalized_normalize u, b.y.normalized_normalize u, b.z.normalized_normalize u⟩

end Overlay
end SolidScript
