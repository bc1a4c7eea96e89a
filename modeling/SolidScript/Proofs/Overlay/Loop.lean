import SolidScript.Proofs.Overlay.Exact

/-!
# The loops of an overlay

A header of an overlay names the first value, the step and the last value of a loop, rounded to the places of a script.
Over the rationals, where nothing else is rounded, the loops over a normalized range do the following at each spacing.

* An end is a multiple of the spacing and is written as it is (`Outward.multiple_or_kept`, `rounded_multiple`), unless
  normalization has kept it because it lies within the tolerance beyond a multiple of the coarsest spacing.
* A loop that begins at a multiple of its step visits the multiples of the step and nothing else (`Loop.visits_iff`);
  only such a loop around zero visits zero (`Loop.visits_zero_iff`).
* So the mark at the origin is left out just where the first value is a multiple, and otherwise one is drawn beside the
  origin (`Range.looped_normalize`). In inches the tolerance is less than half of the last place that is written, and
  all ends are written as multiples.
-/

namespace SolidScript

namespace Rational

/-- Rounding moves a value by a half at most. -/
theorem abs_round_sub_le (a : Rat) : |round a - a| ≤ 1 / 2 := by
  unfold round
  split
  · have hle := Rat.floor_le (-a + 1 / 2)
    have hlt : -a + 1 / 2 - 1 < ((-a + 1 / 2).floor : Rat) := Rat.lt_floor
    rw [abs_le]
    constructor <;> linarith
  · have hle := Rat.floor_le (a + 1 / 2)
    have hlt : a + 1 / 2 - 1 < ((a + 1 / 2).floor : Rat) := Rat.lt_floor
    rw [abs_le]
    constructor <;> linarith

/-- A whole number that is nearer than a half is the nearest. -/
theorem round_eq_of_near {a : Rat} {n : Int} (h : |a - n| < 1 / 2) : round a = n := by
  obtain ⟨k, hk⟩ := exists_round_eq a
  have hround := abs_round_sub_le a
  rw [hk] at hround ⊢
  have hlt : |(k : Rat) - n| < 1 := by
    have htriangle := abs_sub_le (k : Rat) a n
    linarith
  have hint : |k - n| < 1 := by exact_mod_cast hlt
  rw [Int.abs_lt_one_iff, sub_eq_zero] at hint
  rw [hint]

/-- Rounding does not pass a whole number on the way up. -/
theorem round_le {a : Rat} {n : Int} (h : a ≤ n) : round a ≤ n := by
  obtain ⟨k, hk⟩ := exists_round_eq a
  have hround := (abs_le.1 (abs_round_sub_le a)).2
  rw [hk] at hround ⊢
  have hlt : (k : Rat) < n + 1 := by linarith
  have hint : k < n + 1 := by exact_mod_cast hlt
  exact_mod_cast Int.lt_add_one_iff.1 hint

/-- Rounding does not pass a whole number on the way down. -/
theorem le_round {a : Rat} {n : Int} (h : n ≤ a) : n ≤ round a := by
  obtain ⟨k, hk⟩ := exists_round_eq a
  have hround := (abs_le.1 (abs_round_sub_le a)).1
  rw [hk] at hround ⊢
  have hlt : (n : Rat) < k + 1 := by linarith
  have hint : n < k + 1 := by exact_mod_cast hlt
  exact_mod_cast Int.lt_add_one_iff.1 hint

end Rational

namespace Overlay

open Script (rounded)

/-! ## Multiples and written values -/

/-- Whether a value is a whole multiple of a spacing. -/
def Multiple (t x : Rat) : Prop := ∃ k : Int, x = k * t

/-- Whether a value has no more places than a script writes. -/
def Placed (x : Rat) : Prop := Multiple (1 / 1000000) x

theorem Multiple.zero (t : Rat) : Multiple t 0 := ⟨0, by simp⟩

theorem Multiple.trans {s t x : Rat} (hs : Multiple t s) (h : Multiple s x) : Multiple t x := by
  obtain ⟨m, rfl⟩ := hs
  obtain ⟨k, rfl⟩ := h
  exact ⟨k * m, by push_cast; ring⟩

theorem Multiple.add {t x y : Rat} (hx : Multiple t x) (hy : Multiple t y) : Multiple t (x + y) := by
  obtain ⟨k, rfl⟩ := hx
  obtain ⟨l, rfl⟩ := hy
  exact ⟨k + l, by push_cast; ring⟩

theorem rounded_eq (x : Rat) : rounded x = Rational.round (x * 1000000) / 1000000 := by
  have hplaces : (Scalar.tenTo Script.places : Rat) = 1000000 := by decide +kernel
  have hfinite : Scalar.isFinite (x * Scalar.tenTo Script.places) = true := rfl
  rw [rounded, if_pos hfinite, Scalar.roundTo, hplaces]
  rfl

/-- A value with few places is written in place of all that are nearer than half of the last place. -/
theorem rounded_eq_of_near {x y : Rat} (hy : Placed y) (h : |x - y| < 1 / 2000000) : rounded x = y := by
  obtain ⟨n, rfl⟩ := hy
  have hscaled : |x * 1000000 - n| < 1 / 2 := by
    have hfactor : x * 1000000 - n = (x - n * (1 / 1000000)) * 1000000 := by ring
    rw [hfactor, abs_mul, abs_of_pos (by norm_num : (0 : Rat) < 1000000)]
    linarith
  rw [rounded_eq, Rational.round_eq_of_near hscaled]
  ring

theorem rounded_of_placed {x : Rat} (h : Placed x) : rounded x = x := rounded_eq_of_near h (by simp)

theorem rounded_le {x y : Rat} (hy : Placed y) (h : x ≤ y) : rounded x ≤ y := by
  obtain ⟨n, rfl⟩ := hy
  have hround := Rational.round_le (a := x * 1000000) (n := n) (by linarith)
  rw [rounded_eq, div_le_iff₀ (by norm_num)]
  linarith

theorem le_rounded {x y : Rat} (hy : Placed y) (h : y ≤ x) : y ≤ rounded x := by
  obtain ⟨n, rfl⟩ := hy
  have hround := Rational.le_round (a := x * 1000000) (n := n) (by linarith)
  rw [rounded_eq, le_div_iff₀ (by norm_num)]
  linarith

/-! ## Loops -/

/-- The values in the header of a loop. -/
structure Loop where
  first : Rat
  step : Rat
  last : Rat

/-- The loop over a range, with its values as they are written. -/
def Range.loop (r : Range Rat) (step : Rat) : Loop := ⟨rounded r.min, rounded step, rounded r.max⟩

namespace Loop

/-- The loop visits a value: it goes on from the first value by the step, up to the last. -/
def Visits (l : Loop) (v : Rat) : Prop := ∃ i : Nat, v = l.first + i * l.step ∧ v ≤ l.last

/-- A mark is drawn at a value: the loop visits it, and it is not zero. -/
def Draws (l : Loop) (v : Rat) : Prop := l.Visits v ∧ v ≠ 0

variable {l : Loop}

theorem visits_first (h : l.first ≤ l.last) : l.Visits l.first := ⟨0, by simp, h⟩

/-- A loop that begins at a multiple of its step visits the multiples between its ends. -/
theorem visits_iff (hstep : 0 < l.step) (hfirst : Multiple l.step l.first) (v : Rat) :
    l.Visits v ↔ Multiple l.step v ∧ l.first ≤ v ∧ v ≤ l.last := by
  obtain ⟨k, hk⟩ := hfirst
  constructor
  · rintro ⟨i, rfl, hlast⟩
    have hnonneg : 0 ≤ i * l.step := by positivity
    exact ⟨.add ⟨k, hk⟩ ⟨i, by simp⟩, by linarith, hlast⟩
  · rintro ⟨⟨n, rfl⟩, hle, hlast⟩
    rw [hk] at hle
    have hkn : k ≤ n := by exact_mod_cast le_of_mul_le_mul_right hle hstep
    obtain ⟨i, hi⟩ := Int.eq_ofNat_of_zero_le (sub_nonneg.2 hkn)
    have hn : (n : Rat) = k + i := by
      have hint : n = k + i := by omega
      exact_mod_cast hint
    refine ⟨i, ?_, hlast⟩
    rw [hk, hn]
    ring

/-- A loop around zero visits it only if it begins at a multiple of its step. -/
theorem visits_zero_iff (hstep : 0 < l.step) (hfirst : l.first ≤ 0) (hlast : 0 ≤ l.last) :
    l.Visits 0 ↔ Multiple l.step l.first := by
  constructor
  · rintro ⟨i, hi, -⟩
    refine ⟨-i, ?_⟩
    push_cast
    linarith
  · intro h
    exact (visits_iff hstep h 0).2 ⟨.zero _, hfirst, hlast⟩

/-- A loop goes through the distance from its first value to a multiple of the step above it. -/
theorem visits_add {d : Rat} (hstep : 0 < l.step) (hd : Multiple l.step d) (hnonneg : 0 ≤ d)
    (hlast : l.first + d ≤ l.last) : l.Visits (l.first + d) := by
  obtain ⟨k, rfl⟩ := hd
  have hk : 0 ≤ k := by exact_mod_cast nonneg_of_mul_nonneg_left hnonneg hstep
  obtain ⟨i, rfl⟩ := Int.eq_ofNat_of_zero_le hk
  exact ⟨i, by simp, hlast⟩

end Loop

/-! ## The spacings of the grid -/

section Spacings

variable {u : UnitSystem} {t : Rat} (ht : t ∈ (u.tiers : Tiers Rat).toList)
include ht

theorem tier_cases : (u = .metric ∧ (t = 20 ∨ t = 10 ∨ t = 5 ∨ t = 1)) ∨
    (u = .imperial ∧ (t = 1 / 4 ∨ t = 1 / 8 ∨ t = 1 / 16 ∨ t = 1 / 32)) := by
  cases u
  · left
    simpa [UnitSystem.tiers, Tiers.toList] using ht
  · right
    simpa [UnitSystem.tiers, Tiers.toList] using ht

theorem tier_pos : 0 < t := by
  rcases tier_cases ht with ⟨-, rfl | rfl | rfl | rfl⟩ | ⟨-, rfl | rfl | rfl | rfl⟩ <;> norm_num

/-- The spacings are nested. -/
theorem multiple_first : Multiple t u.tiers.first := by
  rw [first_tier]
  rcases tier_cases ht with ⟨rfl, rfl | rfl | rfl | rfl⟩ | ⟨rfl, rfl | rfl | rfl | rfl⟩
  · exact ⟨1, by norm_num⟩
  · exact ⟨2, by norm_num⟩
  · exact ⟨4, by norm_num⟩
  · exact ⟨20, by norm_num⟩
  · exact ⟨1, by norm_num⟩
  · exact ⟨2, by norm_num⟩
  · exact ⟨4, by norm_num⟩
  · exact ⟨8, by norm_num⟩

/-- A thirty-second has five places. -/
theorem placed_tier : Placed t := by
  rcases tier_cases ht with ⟨-, rfl | rfl | rfl | rfl⟩ | ⟨-, rfl | rfl | rfl | rfl⟩
  · exact ⟨20000000, by norm_num⟩
  · exact ⟨10000000, by norm_num⟩
  · exact ⟨5000000, by norm_num⟩
  · exact ⟨1000000, by norm_num⟩
  · exact ⟨250000, by norm_num⟩
  · exact ⟨125000, by norm_num⟩
  · exact ⟨62500, by norm_num⟩
  · exact ⟨31250, by norm_num⟩

end Spacings

/-! ## Normalized ranges -/

variable {u : UnitSystem}

/-- Whether normalization has kept an end: it is where it was, within the tolerance beyond a multiple of the coarsest
spacing. -/
def Kept (u : UnitSystem) (x y : Rat) : Prop := y = x ∧ NearGrid u x

theorem Outward.multiple_or_kept {x y : Rat} (h : Outward u x y) : Multiple u.tiers.first y ∨ Kept u x y := by
  cases h with
  | kept near => exact .inr ⟨rfl, near⟩
  | moved k => exact .inl ⟨k, rfl⟩

/-- The tolerance in units. -/
theorem NearGrid.beyond {x : Rat} (h : NearGrid u x) :
    ∃ k : Int, Beyond (k * u.tiers.first) (5 / 1000000 / u.precision) x := by
  obtain ⟨k, hk⟩ := h
  have hp : (0 : Rat) < u.precision := precision_pos u
  have hscaled := hk.scale (inv_pos.2 hp)
  refine ⟨k, ?_⟩
  have hmultiple : k * (u.increment : Rat) * (u.precision : Rat)⁻¹ = k * u.tiers.first := by
    show (k : Rat) * (u.tiers.first * u.precision) * (u.precision : Rat)⁻¹ = _
    field_simp
  rwa [hmultiple, mul_inv_cancel_right₀ hp.ne', ← div_eq_mul_inv] at hscaled

/-- What the loops over a range do at the spacing `t`, where `anchored` is the range before its ends are moved to the
grid. -/
structure Looped (u : UnitSystem) (t : Rat) (anchored r : Range Rat) : Prop where
  /-- An end is a multiple of the spacing, or it has been kept. -/
  ends : (Multiple t r.min ∨ Kept u anchored.min r.min) ∧ (Multiple t r.max ∨ Kept u anchored.max r.max)
  /-- The step and the ends that are multiples are written as they are. -/
  written : (r.loop t).step = t ∧ (Multiple t r.min → (r.loop t).first = r.min) ∧
    (Multiple t r.max → (r.loop t).last = r.max)
  /-- The loop begins at its first value. -/
  start : (r.loop t).Visits (r.loop t).first
  /-- It comes to zero only from a multiple of the spacing. -/
  origin : (r.loop t).Visits 0 ↔ Multiple t (r.loop t).first
  /-- From there it comes to its last value if that is a multiple too. -/
  stop : Multiple t (r.loop t).first → ((r.loop t).Visits (r.loop t).last ↔ Multiple t (r.loop t).last)
  /-- And it draws a mark at every multiple between its ends but zero. -/
  marks : Multiple t (r.loop t).first → ∀ v, (r.loop t).Draws v ↔
    Multiple t v ∧ v ≠ 0 ∧ (r.loop t).first ≤ v ∧ v ≤ (r.loop t).last
  /-- From elsewhere it draws a mark beside the origin. -/
  beside : ¬ Multiple t (r.loop t).first → ∃ v, (r.loop t).Draws v ∧ |v| ≤ 5 / 1000000
  /-- In inches, all ends are written as multiples. -/
  inches : u = .imperial → Multiple t (r.loop t).first ∧ Multiple t (r.loop t).last

section Around

variable {t : Rat} (ht : t ∈ (u.tiers : Tiers Rat).toList)
include ht

theorem placed_of_multiple {x : Rat} (h : Multiple t x) : Placed x := Multiple.trans (placed_tier ht) h

/-- In inches, an end near the grid is written as the multiple beside it. -/
theorem multiple_rounded_of_inches {x : Rat} (hinches : u = .imperial) (h : NearGrid u x) : Multiple t (rounded x) := by
  obtain ⟨k, hk⟩ := h.beyond
  have hmultiple : Multiple t (k * u.tiers.first) := .trans (multiple_first ht) ⟨k, rfl⟩
  have hnear : |x - k * u.tiers.first| < 1 / 2000000 := by
    have hprecision : (u.precision : Rat) = 32 := by
      rw [hinches]
      decide +kernel
    have hlt := hk.lt
    rw [hprecision] at hlt
    rw [hk.abs_sub]
    linarith
  rw [rounded_eq_of_near (placed_of_multiple ht hmultiple) hnear]
  exact hmultiple

/-- From a first value that is off the grid, a loop comes closer to zero than the tolerance, but not to zero. -/
theorem draws_beside {r : Range Rat} (hmin : r.min ≤ 0) (hmax : 0 ≤ r.max) (hnear : NearGrid u r.min)
    (hoff : ¬ Multiple t (r.loop t).first) : ∃ v, (r.loop t).Draws v ∧ |v| ≤ 5 / 1000000 := by
  obtain ⟨k, hk⟩ := hnear.beyond
  obtain ⟨m, hm⟩ : ∃ m, m = k * (u.tiers.first : Rat) := ⟨_, rfl⟩
  rw [← hm] at hk
  have hmultiple : Multiple t m := .trans (multiple_first ht) ⟨k, hm⟩
  have hstep : (r.loop t).step = t := rounded_of_placed (placed_tier ht)
  have hone : (1 : Rat) ≤ u.precision := by cases u <;> decide +kernel
  have htolerance : 5 / 1000000 / (u.precision : Rat) ≤ 5 / 1000000 := div_le_self (by norm_num) hone
  have hside : m ≤ 0 ∧ r.min ≤ m ∧ m - 5 / 1000000 ≤ r.min := by
    have hlt := hk.lt
    rcases lt_trichotomy m 0 with hneg | rfl | hpos
    · obtain ⟨hle, hlow⟩ := hk.of_neg hneg
      exact ⟨hneg.le, hle, by linarith⟩
    · rw [abs_zero, abs_of_nonpos hmin] at hlt
      exact ⟨le_rfl, hmin, by linarith⟩
    · exact absurd (hk.of_pos hpos).1 (not_le.2 (lt_of_le_of_lt hmin hpos))
  obtain ⟨hnonpos, hle, hlow⟩ := hside
  have hplaced : Placed m := placed_of_multiple ht hmultiple
  have hfirst : (r.loop t).first ≤ m := rounded_le hplaced hle
  have hfirst' : m - 5 / 1000000 ≤ (r.loop t).first :=
    le_rounded (sub_eq_add_neg m (5 / 1000000) ▸ hplaced.add ⟨-5, by norm_num⟩) hlow
  have hlast : 0 ≤ (r.loop t).last := le_rounded (.zero _) hmax
  have hd : Multiple t (-m) := by
    obtain ⟨l, rfl⟩ := hmultiple
    exact ⟨-l, by push_cast; ring⟩
  refine ⟨(r.loop t).first + -m, ⟨Loop.visits_add ?_ ?_ (by linarith) (by linarith), fun hzero => hoff ?_⟩, ?_⟩
  · rw [hstep]
    exact tier_pos ht
  · rwa [hstep]
  · have heq : (r.loop t).first = m := by linarith
    rwa [heq]
  · rw [abs_le]
    constructor <;> linarith

/-- The loops over a range around zero whose ends have gone outward. -/
theorem looped_of_outward {anchored r : Range Rat} (hmin : r.min ≤ 0) (hmax : 0 ≤ r.max)
    (hlow : Outward u anchored.min r.min) (hhigh : Outward u anchored.max r.max) : Looped u t anchored r := by
  have hstep : (r.loop t).step = t := rounded_of_placed (placed_tier ht)
  have hpos : 0 < (r.loop t).step := by
    rw [hstep]
    exact tier_pos ht
  have hfirst : (r.loop t).first ≤ 0 := rounded_le (.zero _) hmin
  have hlast : 0 ≤ (r.loop t).last := le_rounded (.zero _) hmax
  have hexact : ∀ {x}, Multiple u.tiers.first x → Multiple t x := Multiple.trans (multiple_first ht)
  exact {
    ends := ⟨hlow.multiple_or_kept.imp_left hexact, hhigh.multiple_or_kept.imp_left hexact⟩
    written := ⟨hstep, fun h => rounded_of_placed (placed_of_multiple ht h),
      fun h => rounded_of_placed (placed_of_multiple ht h)⟩
    start := Loop.visits_first (hfirst.trans hlast)
    origin := by
      have hzero := Loop.visits_zero_iff hpos hfirst hlast
      rwa [hstep] at hzero
    stop := by
      intro h
      rw [← hstep] at h
      rw [Loop.visits_iff hpos h, hstep]
      exact and_iff_left ⟨hfirst.trans hlast, le_rfl⟩
    marks := by
      intro h v
      rw [← hstep] at h
      rw [Loop.Draws, Loop.visits_iff hpos h, hstep]
      tauto
    beside := draws_beside ht hmin hmax hlow.nearGrid
    inches := fun h => ⟨multiple_rounded_of_inches ht h hlow.nearGrid, multiple_rounded_of_inches ht h hhigh.nearGrid⟩ }

end Around

/-- The range moved to the origin reaches zero, whatever it was. -/
theorem anchor_around (r : Range Rat) : (anchor defaultSpan r).min ≤ 0 ∧ 0 ≤ (anchor defaultSpan r).max := by
  by_cases h : r.min = r.max
  · have hlength : (Scalar.eq r.min r.max || !Scalar.isFinite (r.max - r.min)) = true := by
      rw [Rational.eq_iff.2 h, Bool.true_or]
    rw [anchor, if_pos hlength]
    decide +kernel
  · obtain ⟨hmin, hmax, -⟩ := Range.reaching_spec h
    rw [Range.anchor_eq_reaching h]
    exact ⟨hmin, hmax⟩

/-- **The loops over a normalized range lie on the grid and hit the origin**, but for ends that normalization has kept
because they were near the grid. -/
theorem Range.looped_normalize (u : UnitSystem) (r : Range Rat) {t : Rat} (ht : t ∈ (u.tiers : Tiers Rat).toList) :
    Looped u t (anchor defaultSpan r) (r.normalize defaultSpan u.increment u.precision) := by
  obtain ⟨hmin, hmax⟩ := anchor_around r
  have hlow : Outward u _ (r.normalize defaultSpan u.increment u.precision).min := outward_snap u _
  have hhigh : Outward u _ (r.normalize defaultSpan u.increment u.precision).max := outward_snap u _
  exact looped_of_outward ht ((hlow.of_nonpos hmin).1.trans hmin) (hmax.trans (hhigh.of_nonneg hmax).1) hlow hhigh

/-- A swapped range in inches, at the finest spacing. -/
theorem Range.looped_normalize_swapped :
    1 / 32 ∈ (UnitSystem.imperial.tiers : Tiers Rat).toList ∧
      Looped .imperial (1 / 32) (anchor defaultSpan ⟨33 / 10, -1 / 10⟩)
        (Range.normalize defaultSpan UnitSystem.imperial.increment UnitSystem.imperial.precision
          ⟨33 / 10, -1 / 10⟩) := by
  have ht : 1 / 32 ∈ (UnitSystem.imperial.tiers : Tiers Rat).toList := by decide +kernel
  exact ⟨ht, Range.looped_normalize .imperial ⟨33 / 10, -1 / 10⟩ ht⟩

/-- **A kept end puts a loop off the grid.** The lower end of this range lies a millionth beyond a multiple and is kept.
Its loop comes neither to zero nor to the upper end, and draws a mark a millionth beside the origin. -/
theorem Range.loop_beside_origin :
    let r : Range Rat := Range.normalize defaultSpan UnitSystem.metric.increment UnitSystem.metric.precision
      ⟨-40000001 / 1000000, 40⟩
    ¬ Multiple 20 r.min ∧ ¬ (r.loop 20).Visits 0 ∧ ¬ (r.loop 20).Visits r.max ∧
      (r.loop 20).Draws (-1 / 1000000) := by
  intro r
  have hr : r = ⟨-40000001 / 1000000, 40⟩ := by decide +kernel
  have hmin : rounded r.min = -40000001 / 1000000 := by decide +kernel
  have hstep : rounded (20 : Rat) = 20 := by decide +kernel
  have hmax : rounded r.max = 40 := by decide +kernel
  have hoff : ∀ k : Int, (k : Rat) * 20 ≠ -40000001 / 1000000 := by
    intro k hk
    have hint : k * 20000000 = -40000001 := by
      have hscaled : (k : Rat) * 20000000 = -40000001 := by linarith
      exact_mod_cast hscaled
    omega
  refine ⟨?_, ?_, ?_, ⟨2, ?_, ?_⟩, by norm_num⟩
  · rintro ⟨k, hk⟩
    rw [hr] at hk
    exact hoff k hk.symm
  · rintro ⟨i, hi, -⟩
    simp only [Range.loop, hmin, hstep] at hi
    exact hoff (-i) (by push_cast; linarith)
  · rintro ⟨i, hi, -⟩
    simp only [Range.loop, hmin, hstep] at hi
    rw [hr] at hi
    exact hoff (2 - i) (by push_cast; linarith)
  · simp only [Range.loop, hmin, hstep]
    norm_num
  · simp only [Range.loop, hmax]
    norm_num

end Overlay
end SolidScript
