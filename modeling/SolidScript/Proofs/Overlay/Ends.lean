import SolidScript.Proofs.Double.Whole
import SolidScript.Proofs.Overlay.Exact
import SolidScript.Proofs.Scalar.Order

/-!
# Moving ends in doubles

What `snap` does with a double (`snapped`), for the increments and precisions of the two unit systems. The remainder
test is decided by one rounded product (`isMultiple_iff_abs_lt`); an end that fails it is moved to the next whole number
of spacings away from zero (`OffGrid.away`). In inches that many spacings are a double, so that a second move finds the
end on the grid (`snapped_snapped_imperial`). In millimetres they are rounded from `2 ^ 55` on. There a second move
counts either the same spacings (`OffGrid.again_same`) or spacings that are rounded to the same end
(`OffGrid.again_near`), unless the magnitude of the end is in one of two ranges (`Unsettled`, `snapped_snapped_metric`).
No end goes beyond the range of the doubles (`isFinite_snapped`) or to the other side of the origin (`snapped_side`).
-/

namespace SolidScript.Overlay

open Double
open Float.Model.UnpackedFloat (Sign)

/-! ## Rounded multiples of twenty

A large double `y` is taken as a multiple of its last place, `32 * k * unit e`; a twentieth of it is compared with
representable values near it.
-/

section Twenty

variable {f n q y : Rat} {e k : Int}

/-- Above five eighths of a power of two, a representable value that is near to a twentieth is a multiple of two of the
smaller units. -/
theorem eq_mul_of_near_twentieth (hf : Representable f) (hk : 5 * 2 ^ 50 ≤ k)
    (hnear : |f - 8 / 5 * k * unit e| ≤ 4 / 5 * unit e) : ∃ l : Int, f = 2 * l * unit e := by
  have hpos := unit_pos e
  have hk' : (5 * 2 ^ 50 : Rat) * unit e ≤ k * unit e := mul_le_mul_of_nonneg_right (by exact_mod_cast hk) hpos.le
  obtain ⟨hlow, -⟩ := abs_le.1 hnear
  have hlarge : (2 ^ 53 - 1) * unit e < f := by linarith
  have hfine : 2 ^ 52 * unit e ≤ |f| := le_trans (by linarith) (le_abs_self f)
  obtain ⟨l, rfl⟩ := hf.eq_mul_unit hfine
  have hl : (2 ^ 53 : Int) ≤ l := by
    have hlt : (2 ^ 53 - 1 : Rat) < l := lt_of_mul_lt_mul_right hlarge hpos.le
    have hint : (2 ^ 53 - 1 : Int) < l := by exact_mod_cast hlt
    omega
  have hcoarse : 2 ^ 52 * unit (e + (1 : Nat)) ≤ |(l : Rat) * unit e| := by
    have hscaled : (2 ^ 53 : Rat) * unit e ≤ l * unit e := mul_le_mul_of_nonneg_right (by exact_mod_cast hl) hpos.le
    rw [unit_add_natCast]
    exact le_trans (by linarith) (le_abs_self _)
  obtain ⟨m, hm⟩ := hf.eq_mul_unit hcoarse
  refine ⟨m, ?_⟩
  rw [hm, unit_add_natCast]
  ring

/-- So there is only one such value. -/
theorem eq_of_near_twentieth (hn : Representable n) (hq : Representable q) (hk : 5 * 2 ^ 50 ≤ k)
    (hnear : |n - 8 / 5 * k * unit e| ≤ 4 / 5 * unit e) (hnear' : |q - 8 / 5 * k * unit e| ≤ 4 / 5 * unit e) :
    q = n := by
  have hpos := unit_pos e
  obtain ⟨l, rfl⟩ := eq_mul_of_near_twentieth hn hk hnear
  obtain ⟨m, rfl⟩ := eq_mul_of_near_twentieth hq hk hnear'
  obtain ⟨hlow, hhigh⟩ := abs_le.1 hnear
  obtain ⟨hlow', hhigh'⟩ := abs_le.1 hnear'
  have hlt : (m : Rat) < l + 1 := by
    have hscaled : (m : Rat) * unit e < (l + 1) * unit e := by linarith
    exact lt_of_mul_lt_mul_right hscaled hpos.le
  have hlt' : (l : Rat) < m + 1 := by
    have hscaled : (l : Rat) * unit e < (m + 1) * unit e := by linarith
    exact lt_of_mul_lt_mul_right hscaled hpos.le
  have hm : m < l + 1 := by exact_mod_cast hlt
  have hl : l < m + 1 := by exact_mod_cast hlt'
  have heq : m = l := by omega
  rw [heq]

/-- Below five eighths of a power of two, a twentieth is rounded to a multiple of the smaller unit. -/
theorem exists_mul_of_twentieth (he : -1074 ≤ e) (hlow : 2 ^ 52 ≤ k) (hhigh : k ≤ 5 * 2 ^ 50)
    (hq : Nearest (8 / 5 * k * unit e) q) : ∃ l : Int, q = l * unit e ∧ 16 * k - 5 ≤ 10 * l ∧ 10 * l ≤ 16 * k + 5 := by
  have hpos := unit_pos e
  have hk : (2 ^ 52 : Rat) * unit e ≤ k * unit e := mul_le_mul_of_nonneg_right (by exact_mod_cast hlow) hpos.le
  have hk' : (k : Rat) * unit e ≤ 5 * 2 ^ 50 * unit e := mul_le_mul_of_nonneg_right (by exact_mod_cast hhigh) hpos.le
  have hhalf := hq.half_unit he (by rw [abs_of_nonneg (by linarith)]; linarith)
  have hlarge : 2 ^ 52 * unit e ≤ q := hq.le_of_le (.hidden_bit he) (by linarith)
  obtain ⟨l, rfl⟩ := hq.representable.eq_mul_unit (le_trans hlarge (le_abs_self q))
  obtain ⟨hleft, hright⟩ := abs_le.1 hhalf
  refine ⟨l, rfl, ?_, ?_⟩
  · have hscaled : (16 * k - 5 : Rat) * unit e ≤ 10 * l * unit e := by linarith
    exact_mod_cast le_of_mul_le_mul_right hscaled hpos
  · have hscaled : (10 * l : Rat) * unit e ≤ (16 * k + 5) * unit e := by linarith
    exact_mod_cast le_of_mul_le_mul_right hscaled hpos

/-- Twenty times such a multiple is rounded back to `y`, which is the only value that is near enough. -/
theorem eq_of_mul_twenty {l : Int} (he : -1074 ≤ e) (hlow : 2 ^ 52 ≤ k) (hhigh : k ≤ 5 * 2 ^ 50)
    (hl : 16 * k - 5 ≤ 10 * l) (hl' : 10 * l ≤ 16 * k + 5) (hf : Nearest (20 * (l * unit e)) f) :
    f = 32 * k * unit e := by
  have hpos := unit_pos e
  have hmultiple : (2 ^ 52 : Rat) * unit (e + (5 : Nat)) ≤ 20 * (l * unit e) := by
    have hint : (2 ^ 57 : Int) ≤ 20 * l := by omega
    have hscaled : (2 ^ 57 : Rat) * unit e ≤ 20 * l * unit e :=
      mul_le_mul_of_nonneg_right (by exact_mod_cast hint) hpos.le
    rw [unit_add_natCast]
    linarith
  have hlarge : 2 ^ 52 * unit (e + (5 : Nat)) ≤ f := hf.le_of_le (.hidden_bit (by omega)) hmultiple
  obtain ⟨m, hm⟩ := hf.representable.eq_mul_unit (le_trans hlarge (le_abs_self f))
  have hrepresentable : Representable (k * unit (e + (5 : Nat))) := by
    refine .mk ?_ (by omega)
    rw [abs_of_nonneg (by omega)]
    omega
  have hbest := hf.le _ hrepresentable
  rw [unit_add_natCast] at hm hbest
  have hbound : |(k : Rat) * (2 ^ 5 * unit e) - 20 * (l * unit e)| ≤ 10 * unit e := by
    have hleft : (16 * k - 5 : Rat) * unit e ≤ 10 * l * unit e :=
      mul_le_mul_of_nonneg_right (by exact_mod_cast hl) hpos.le
    have hright : (10 * l : Rat) * unit e ≤ (16 * k + 5) * unit e :=
      mul_le_mul_of_nonneg_right (by exact_mod_cast hl') hpos.le
    rw [abs_le]
    constructor <;> linarith
  obtain ⟨hleft, hright⟩ := abs_le.1 (le_trans hbest hbound)
  have hmk : m = k := by
    have hscaled : (32 * m : Rat) * unit e ≤ (20 * l + 10) * unit e := by linarith
    have hscaled' : (20 * l : Rat) * unit e ≤ (32 * m + 10) * unit e := by linarith
    have hint : 32 * m ≤ 20 * l + 10 := by exact_mod_cast le_of_mul_le_mul_right hscaled hpos
    have hint' : 20 * l ≤ 32 * m + 10 := by exact_mod_cast le_of_mul_le_mul_right hscaled' hpos
    omega
  rw [hm, hmk]
  ring

/-- What is rounded after the multiplication by twenty is near to a twentieth of the result. -/
theorem near_twentieth (hy : Nearest (20 * n) y) (he : -1074 ≤ e) (hlt : |y| < 2 ^ 53 * unit (e + (5 : Nat))) :
    |n - y / 20| ≤ 4 / 5 * unit e := by
  have hhalf := hy.half_unit_of_lt (by omega) hlt
  have hunit : unit (e + (5 : Nat)) = 32 * unit e := by
    rw [unit_add_natCast]
    norm_num
  have hscaled : |n - y / 20| = |y - 20 * n| / 20 := by
    rw [abs_sub_comm, ← abs_of_pos (by norm_num : (0 : Rat) < 20), ← abs_div, abs_of_pos (by norm_num : (0 : Rat) < 20)]
    congr 1
    ring
  rw [hunit] at hhalf
  rw [hscaled]
  linarith

end Twenty

/-! ## The remainder test -/

theorem value_tenTo : (Scalar.tenTo remainderPlaces : Float).isFinite = true ∧
    value (Scalar.tenTo remainderPlaces) = 100000 := by
  decide +kernel

/-- A whole number other than zero is not so small that a power of ten makes it vanish. -/
theorem div_tenTo_eq_zero_iff {w : Float} (hw : w.isFinite = true) {n : Int} (hn : value w = n) :
    value (w / Scalar.tenTo remainderPlaces) = 0 ↔ value w = 0 := by
  obtain ⟨hten, hvten⟩ := value_tenTo
  have hfinite : (w / Scalar.tenTo remainderPlaces).isFinite = true := isFinite_div hw hten (by rw [hvten]; norm_num)
  have hnearest := (div_rounds hw hten (by rw [hvten]; norm_num)).nearest hfinite
  constructor
  · intro hzero
    by_contra hne
    rw [hn, Int.cast_eq_zero] at hne
    have hone : (1 : Rat) ≤ |(n : Rat)| := by exact_mod_cast Int.one_le_abs hne
    have hlarge : unit (-17) ≤ |value w / value (Scalar.tenTo remainderPlaces)| := by
      have hunit : unit (-17) = 1 / 131072 := by norm_num [unit]
      rw [hn, hvten, abs_div, abs_of_pos (by norm_num : (0 : Rat) < 100000), hunit,
        div_le_div_iff₀ (by norm_num) (by norm_num)]
      linarith
    have hbound := hnearest.le_abs_of_le (.of_unit (by decide)) hlarge
    rw [hzero, abs_zero] at hbound
    exact absurd hbound (not_le.2 (unit_pos _))
  · intro hzero
    rw [hzero, zero_div] at hnearest
    exact hnearest.eq_self .zero

/-- Only the product with a power of ten is rounded before the test decides. -/
theorem roundTo_eq_zero_iff {r : Float} (hr : r.isFinite = true) (hsmall : |value r| ≤ 32) :
    Scalar.eq (Scalar.roundTo r remainderPlaces) 0 = true ↔ |value (r * Scalar.tenTo remainderPlaces)| < 1 / 2 := by
  obtain ⟨hten, hvten⟩ := value_tenTo
  obtain ⟨hzero, hvzero⟩ := value_zero
  have hproduct : (r * Scalar.tenTo remainderPlaces).isFinite = true := by
    refine (mul_rounds hr hten).isFinite_of_le (.of_unit (by decide : -1074 ≤ 22)) (unit_lt_unit (by decide)) ?_
    have hunit : unit 22 = 4194304 := by norm_num [unit]
    rw [abs_mul, hvten, abs_of_pos (by norm_num : (0 : Rat) < 100000), hunit]
    linarith
  have hround : (Double.round (r * Scalar.tenTo remainderPlaces)).isFinite = true := isFinite_roundWith hproduct _
  have hfinite : (Double.round (r * Scalar.tenTo remainderPlaces) / Scalar.tenTo remainderPlaces).isFinite = true :=
    isFinite_div hround hten (by rw [hvten]; norm_num)
  obtain ⟨n, hn⟩ : ∃ n : Int, value (Double.round (r * Scalar.tenTo remainderPlaces)) = n := by
    rw [value_round hproduct]
    exact Rational.exists_round_eq _
  calc Scalar.eq (Scalar.roundTo r remainderPlaces) 0 = true
      ↔ value (Double.round (r * Scalar.tenTo remainderPlaces) / Scalar.tenTo remainderPlaces) = 0 := by
        have hbeq := beq_iff hfinite hzero
        rw [hvzero] at hbeq
        exact hbeq
    _ ↔ value (Double.round (r * Scalar.tenTo remainderPlaces)) = 0 := div_tenTo_eq_zero_iff hround hn
    _ ↔ |value (r * Scalar.tenTo remainderPlaces)| < 1 / 2 := by
        rw [value_round hproduct, Rational.round_eq_zero_iff]

section Remainder

variable {i x : Float} (hi : i.isFinite = true) (hx : x.isFinite = true) (hpos : 0 < value i) (hle : value i ≤ 32)
include hi hx hpos hle

theorem isMultiple_iff_abs_lt :
    isMultiple i x = true ↔ |value (Double.rem x i * Scalar.tenTo remainderPlaces)| < 1 / 2 := by
  obtain ⟨hrem, hvrem⟩ := value_rem hx hi hpos
  obtain ⟨k, hsub, hbeyond⟩ := Rational.rem_eq_sub (value x) hpos
  refine roundTo_eq_zero_iff hrem ?_
  show |value (Double.rem x i)| ≤ 32
  rw [hvrem, hsub, hbeyond.abs_sub]
  linarith [hbeyond.lt]

/-- Exact multiples pass. -/
theorem isMultiple_of_eq_mul {k : Int} (hk : value x = k * value i) : isMultiple i x = true := by
  obtain ⟨hrem, hvrem⟩ := value_rem hx hi hpos
  obtain ⟨hten, -⟩ := value_tenTo
  obtain ⟨l, hsub, hbeyond⟩ := Rational.rem_eq_sub (value x) hpos
  have hzero : value (Double.rem x i) = 0 := by
    have hself : Beyond (k * value i) (value i) (value x) := by
      rw [hk]
      exact .refl _ hpos
    rw [hvrem, hsub, ← abs_eq_zero, hbeyond.abs_sub, hbeyond.abs_eq hpos hself, hk, sub_self]
  have hproduct := mul_rounds hrem hten
  rw [hzero, zero_mul] at hproduct
  have hvalue := hproduct.exact .zero (by simpa using unit_pos 1024)
  rw [isMultiple_iff_abs_lt hi hx hpos hle, hvalue.2]
  norm_num

/-- What is very small passes. -/
theorem isMultiple_of_abs_le (hsmall : |value x| ≤ unit (-40)) : isMultiple i x = true := by
  obtain ⟨hrem, hvrem⟩ := value_rem hx hi hpos
  obtain ⟨hten, hvten⟩ := value_tenTo
  obtain ⟨l, hsub, hbeyond⟩ := Rational.rem_eq_sub (value x) hpos
  have hkeep : |value (Double.rem x i)| ≤ unit (-40) := by
    rw [hvrem, hsub, hbeyond.abs_sub]
    linarith [abs_nonneg ((l : Rat) * value i)]
  have hproduct := mul_rounds hrem hten
  have hbound : |value (Double.rem x i) * value (Scalar.tenTo remainderPlaces)| ≤ unit (-2) := by
    have hunit : unit (-40) * 100000 ≤ unit (-2) := by norm_num [unit]
    rw [abs_mul, hvten, abs_of_pos (by norm_num : (0 : Rat) < 100000)]
    exact le_trans (mul_le_mul_of_nonneg_right hkeep (by norm_num)) hunit
  have hfinite := hproduct.isFinite_of_le (.of_unit (by decide)) (unit_lt_unit (by decide)) hbound
  have hvalue := (hproduct.nearest hfinite).abs_le_of_le (.of_unit (by decide)) hbound
  have hquarter : unit (-2) < 1 / 2 := by norm_num [unit]
  rw [isMultiple_iff_abs_lt hi hx hpos hle]
  exact lt_of_le_of_lt hvalue hquarter

end Remainder

/-! ## Moving an end -/

/-- An end as a unit system moves it to its coarsest grid. -/
def snapped (u : UnitSystem) (x : Float) : Float := snap u.increment u.precision x

/-- The number of spacings from the origin to an end. -/
def spacings (u : UnitSystem) (x : Float) : Float := x * u.precision / u.increment

/-- The whole number of spacings that an end off the grid is moved to. -/
def moved (u : UnitSystem) (x : Float) : Float :=
  if 0 < x * u.precision then ceil (spacings u x) else floor (spacings u x)

/-- An end that is moved. -/
structure OffGrid (u : UnitSystem) (x : Float) : Prop where
  finite : x.isFinite = true
  inside : (x * u.precision).isFinite = true
  off : isMultiple u.increment (x * u.precision) = false

section Ends

variable {u : UnitSystem} {x : Float}

theorem isFinite_precision (u : UnitSystem) : (u.precision : Float).isFinite = true := by
  cases u <;> decide +kernel

theorem value_precision (u : UnitSystem) : value u.precision = (u.precision : Rat) := by
  cases u <;> decide +kernel

theorem isFinite_increment (u : UnitSystem) : (u.increment : Float).isFinite = true := by
  cases u <;> decide +kernel

theorem value_increment (u : UnitSystem) : value u.increment = (u.increment : Rat) := by
  cases u <;> decide +kernel

theorem increment_bounds (u : UnitSystem) : 1 ≤ value u.increment ∧ value u.increment ≤ 32 := by
  cases u <;> decide +kernel

theorem increment_pos (u : UnitSystem) : 0 < value u.increment := lt_of_lt_of_le one_pos (increment_bounds u).1

theorem doubles_nonzero (u : UnitSystem) :
    (Scalar.eq (u.increment : Float) 0 || Scalar.eq (u.precision : Float) 0) = false := by
  cases u <;> decide +kernel

theorem pos_iff (hx : x.isFinite = true) : 0 < x ↔ 0 < value x := by
  rw [lt_iff value_zero.1 hx, value_zero.2]

theorem neg_iff (hx : x.isFinite = true) : x < 0 ↔ value x < 0 := by
  rw [lt_iff hx value_zero.1, value_zero.2]

/-- Grid steps are counted exactly. -/
theorem value_scaled (hx : x.isFinite = true) (hscaled : (x * u.precision).isFinite = true) :
    value (x * u.precision) = value x * (u.precision : Rat) := by
  obtain ⟨k, hk⟩ : ∃ k : Nat, (u.precision : Rat) = 2 ^ k := by
    cases u with
    | metric => exact ⟨0, by decide +kernel⟩
    | imperial => exact ⟨5, by decide +kernel⟩
  have hnearest := (mul_rounds hx (isFinite_precision u)).nearest hscaled
  rw [value_precision, hk] at hnearest
  rw [hk]
  exact hnearest.eq_self ((representable_value x).mul_two_pow k)

theorem snapped_eq (u : UnitSystem) (x : Float) : snapped u x =
    if !(x * u.precision).isFinite || isMultiple u.increment (x * u.precision) then x
    else moved u x * u.increment / u.precision := by
  simp only [snapped, snap, doubles_nonzero, Bool.false_eq_true, if_false]
  rfl

/-- A multiple of the spacing is on the grid. -/
theorem isMultiple_of_multiple (hx : x.isFinite = true) (hinside : (x * u.precision).isFinite = true) {k : Int}
    (hk : value x = k * (u.tiers.first : Rat)) : isMultiple u.increment (x * u.precision) = true := by
  refine isMultiple_of_eq_mul (isFinite_increment u) hinside (increment_pos u) (increment_bounds u).2 (k := k) ?_
  rw [value_scaled hx hinside, hk, value_increment]
  exact mul_assoc _ _ _

/-- So it is kept. -/
theorem snapped_of_multiple (hx : x.isFinite = true) {k : Int} (hk : value x = k * (u.tiers.first : Rat)) :
    snapped u x = x := by
  rw [snapped_eq]
  by_cases hinside : (x * u.precision).isFinite = true
  · rw [isMultiple_of_multiple hx hinside hk, Bool.or_true, if_pos rfl]
  · rw [Bool.eq_false_iff.2 hinside]
    rfl

/-- An end is kept, or it is off the grid. -/
theorem snapped_eq_self_or (u : UnitSystem) (hx : x.isFinite = true) : snapped u x = x ∨ OffGrid u x := by
  rw [snapped_eq]
  by_cases hinside : (x * u.precision).isFinite = true
  · by_cases hmultiple : isMultiple u.increment (x * u.precision) = true
    · exact .inl (by rw [hmultiple, Bool.or_true, if_pos rfl])
    · exact .inr ⟨hx, hinside, Bool.eq_false_iff.2 hmultiple⟩
  · refine .inl ?_
    rw [Bool.eq_false_iff.2 hinside]
    rfl

namespace OffGrid

variable (h : OffGrid u x)
include h

theorem snapped_eq_moved : snapped u x = moved u x * u.increment / u.precision := by
  rw [snapped_eq, h.inside, h.off]
  rfl

theorem scaled_div : value (x * u.precision) / value u.increment = value x / (u.tiers.first : Rat) := by
  rw [value_scaled h.finite h.inside, value_increment]
  exact mul_div_mul_right _ _ (precision_pos u).ne'

/-- What is near zero is not off the grid, so that the spacings are not rounded to zero. -/
theorem large : unit (-1074) ≤ |value x / (u.tiers.first : Rat)| := by
  have hpos := increment_pos u
  obtain ⟨-, hbound⟩ := increment_bounds u
  have hscaled : unit (-40) < |value (x * u.precision)| := by
    by_contra hsmall
    have hmultiple := isMultiple_of_abs_le (isFinite_increment u) h.inside hpos hbound (not_lt.1 hsmall)
    rw [h.off] at hmultiple
    cases hmultiple
  have hunit : unit (-1074) * 32 ≤ unit (-40) := by
    have h32 : unit 5 = 32 := by norm_num [unit]
    rw [← h32, ← unit_add]
    exact unit_le_unit (by decide)
  rw [← h.scaled_div, abs_div, abs_of_pos hpos, le_div_iff₀ hpos]
  calc unit (-1074) * value u.increment ≤ unit (-1074) * 32 := mul_le_mul_of_nonneg_left hbound (unit_pos _).le
    _ ≤ unit (-40) := hunit
    _ ≤ |value (x * u.precision)| := hscaled.le

theorem isFinite_spacings : (spacings u x).isFinite = true := by
  obtain ⟨hone, -⟩ := increment_bounds u
  exact isFinite_div h.inside (isFinite_increment u) (le_trans hone (le_abs_self _))

theorem nearest : Nearest (value x / (u.tiers.first : Rat)) (value (spacings u x)) := by
  rw [← h.scaled_div]
  exact (div_rounds h.inside (isFinite_increment u) (increment_pos u).ne').nearest h.isFinite_spacings

theorem spacings_pos_iff : 0 < value (spacings u x) ↔ 0 < value x := by
  rw [h.nearest.pos_iff h.large, div_pos_iff_of_pos_right (spacing_pos u)]

theorem spacings_neg_iff : value (spacings u x) < 0 ↔ value x < 0 := by
  have hneg := h.nearest.neg.pos_iff (by rw [abs_neg]; exact h.large)
  rwa [neg_pos, neg_pos, div_lt_iff₀ (spacing_pos u), zero_mul] at hneg

theorem value_ne_zero : value x ≠ 0 := by
  intro hzero
  have hlarge := h.large
  rw [hzero, zero_div, abs_zero] at hlarge
  exact absurd hlarge (not_le.2 (unit_pos _))

theorem isFinite_moved : (moved u x).isFinite = true := by
  unfold moved
  split
  · exact isFinite_roundWith h.isFinite_spacings _
  · exact isFinite_roundWith h.isFinite_spacings _

/-- The whole number is the next one away from zero. -/
theorem away : ∃ k : Int, value (moved u x) = k ∧ Beyond (value (spacings u x)) 1 k := by
  obtain ⟨k, hk, haway⟩ := Rational.beyond_away (value (spacings u x))
  have hside : 0 < x * u.precision ↔ 0 < value (spacings u x) := by
    rw [pos_iff h.inside, h.spacings_pos_iff, value_scaled h.finite h.inside,
      mul_pos_iff_of_pos_right (precision_pos u)]
  refine ⟨k, ?_, haway⟩
  rw [← hk, moved]
  by_cases hup : 0 < x * u.precision
  · rw [if_pos hup, if_pos (hside.1 hup), value_ceil h.isFinite_spacings]
  · rw [if_neg hup, if_neg (mt hside.2 hup), value_floor h.isFinite_spacings]

/-- It is one at least. -/
theorem count : (0 < value x → 1 ≤ value (moved u x)) ∧ (value x < 0 → value (moved u x) ≤ -1) := by
  obtain ⟨k, hk, haway⟩ := h.away
  rw [hk]
  constructor
  · intro hx
    have hs := h.spacings_pos_iff.2 hx
    have hkpos : (0 : Rat) < k := lt_of_lt_of_le hs (haway.of_pos hs).1
    have hint : 0 < k := by exact_mod_cast hkpos
    exact_mod_cast hint
  · intro hx
    have hs := h.spacings_neg_iff.2 hx
    have hkneg : (k : Rat) < 0 := lt_of_le_of_lt (haway.of_neg hs).1 hs
    have hint : k < 0 := by exact_mod_cast hkneg
    have hle : k ≤ -1 := by omega
    exact_mod_cast hle

theorem moved_ne_zero : value (moved u x) ≠ 0 := by
  obtain ⟨hup, hdown⟩ := h.count
  rcases lt_or_gt_of_ne h.value_ne_zero with hneg | hpos
  · linarith [hdown hneg]
  · linarith [hup hpos]

/-- If the spacings are a whole number, the end is moved to that many. -/
theorem moved_of_whole {k : Int} (hk : value (spacings u x) = k) : value (moved u x) = value (spacings u x) := by
  obtain ⟨l, hl, haway⟩ := h.away
  have hpos := h.spacings_pos_iff
  have hneg := h.spacings_neg_iff
  rw [hk] at haway hpos hneg ⊢
  rw [hl]
  rcases lt_or_gt_of_ne h.value_ne_zero with hx | hx
  · obtain ⟨hle, hlt⟩ := haway.of_neg (hneg.2 hx)
    have hle' : l ≤ k := by exact_mod_cast hle
    have hlt' : k - 1 < l := by exact_mod_cast hlt
    have heq : l = k := by omega
    rw [heq]
  · obtain ⟨hle, hlt⟩ := haway.of_pos (hpos.2 hx)
    have hle' : k ≤ l := by exact_mod_cast hle
    have hlt' : l < k + 1 := by exact_mod_cast hlt
    have heq : l = k := by omega
    rw [heq]

end OffGrid

/-! ## Inches -/

theorem imperial_values : value (UnitSystem.imperial.precision : Float) = 32 ∧
    value (UnitSystem.imperial.increment : Float) = 8 ∧ (UnitSystem.imperial.precision : Rat) = 32 ∧
    (UnitSystem.imperial.tiers.first : Rat) = 1 / 4 := by
  decide +kernel

theorem unit_quarter : unit (-2) = 1 / 4 := by
  norm_num [unit]

/-- The next multiple of a quarter of an inch needs no more than 53 bits, because what is so large that it would need
them is on the grid. -/
theorem OffGrid.count_le (h : OffGrid .imperial x) : ∃ k : Int, value (moved .imperial x) = k ∧ |k| ≤ 2 ^ 53 := by
  obtain ⟨-, -, -, hspacing⟩ := imperial_values
  have hquotient : |value x / (UnitSystem.imperial.tiers.first : Rat)| ≤ 2 ^ 53 := by
    by_contra hlarge
    rw [hspacing, abs_div, abs_of_pos (by norm_num : (0 : Rat) < 1 / 4), not_le, lt_div_iff₀ (by norm_num)] at hlarge
    obtain ⟨k, hk⟩ := (representable_value x).eq_mul_unit (t := -1) (by norm_num [unit]; linarith)
    have hmultiple : value x = (2 * k : Int) * (UnitSystem.imperial.tiers.first : Rat) := by
      rw [hk, hspacing]
      norm_num [unit]
      ring
    have hyes := isMultiple_of_multiple h.finite h.inside hmultiple
    rw [h.off] at hyes
    cases hyes
  obtain ⟨k, hk, haway⟩ := h.away
  have hs := h.nearest.abs_le_of_le (.two_pow 53) hquotient
  have hlt : |(k : Rat)| < 2 ^ 53 + 1 := lt_of_lt_of_le haway.lt (by linarith)
  have hint : |k| < 2 ^ 53 + 1 := by exact_mod_cast hlt
  exact ⟨k, hk, by omega⟩

/-- So the multiple is exact. -/
theorem OffGrid.inches (h : OffGrid .imperial x) :
    (snapped .imperial x).isFinite = true ∧ value (snapped .imperial x) = value (moved .imperial x) / 4 := by
  obtain ⟨hvp, hvi, -, -⟩ := imperial_values
  obtain ⟨k, hk, hk53⟩ := h.count_le
  have hcast : |(k : Rat)| ≤ 2 ^ 53 := by exact_mod_cast hk53
  have hlimit : (2 ^ 56 : Rat) < unit 1024 := by
    rw [← unit_natCast]
    exact unit_lt_unit (by decide)
  have hproduct := mul_rounds h.isFinite_moved (isFinite_increment .imperial)
  rw [hk, hvi, (by norm_num : (8 : Rat) = 2 ^ 3)] at hproduct
  obtain ⟨hfinite, hvalue⟩ := hproduct.exact ((Representable.intCast hk53).mul_two_pow 3) (by
    rw [abs_mul, abs_of_pos (by norm_num : (0 : Rat) < 2 ^ 3)]
    linarith)
  have hquotient := div_rounds hfinite (isFinite_precision .imperial) (by rw [hvp]; norm_num)
  have hquarter : (k : Rat) * 2 ^ 3 / 32 = k * unit (-2) := by
    rw [unit_quarter]
    ring
  rw [hvalue, hvp, hquarter] at hquotient
  rw [h.snapped_eq_moved, hk, div_eq_mul_one_div, ← unit_quarter]
  refine hquotient.exact (.mk hk53 (by decide)) ?_
  rw [unit_quarter, abs_mul, abs_of_pos (by norm_num : (0 : Rat) < 1 / 4)]
  linarith

/-- In inches an end that was moved is on the grid. -/
theorem snapped_snapped_imperial (hx : x.isFinite = true) :
    (snapped .imperial x).isFinite = true ∧ snapped .imperial (snapped .imperial x) = snapped .imperial x := by
  rcases snapped_eq_self_or .imperial hx with hkeep | h
  · rw [hkeep]
    exact ⟨hx, hkeep⟩
  · obtain ⟨-, -, -, hspacing⟩ := imperial_values
    obtain ⟨k, hk, -⟩ := h.away
    obtain ⟨hfinite, hvalue⟩ := h.inches
    refine ⟨hfinite, snapped_of_multiple (k := k) hfinite ?_⟩
    rw [hvalue, hk, hspacing, div_eq_mul_one_div]

/-! ## Millimetres -/

theorem metric_values : value (UnitSystem.metric.precision : Float) = 1 ∧
    value (UnitSystem.metric.increment : Float) = 20 ∧ (UnitSystem.metric.tiers.first : Rat) = 20 := by
  decide +kernel

theorem div_precision_metric {z : Float} (hz : z.isFinite = true) :
    (z / UnitSystem.metric.precision).isFinite = true ∧ value (z / UnitSystem.metric.precision) = value z := by
  obtain ⟨hvp, -, -⟩ := metric_values
  have hrounds := div_rounds hz (isFinite_precision .metric) (by rw [hvp]; norm_num)
  rw [hvp, div_one] at hrounds
  exact hrounds.exact (representable_value z) (abs_value_lt z)

/-- In millimetres the multiple is rounded. -/
theorem OffGrid.millimetres (h : OffGrid .metric x) (hy : (snapped .metric x).isFinite = true) :
    Nearest (20 * value (moved .metric x)) (value (snapped .metric x)) := by
  obtain ⟨-, hvi, -⟩ := metric_values
  rw [h.snapped_eq_moved] at hy ⊢
  have hproduct := isFinite_of_div hy
  have hnearest := (mul_rounds h.isFinite_moved (isFinite_increment .metric)).nearest hproduct
  rw [hvi, mul_comm] at hnearest
  rwa [(div_precision_metric hproduct).2]

/-- The magnitudes at which the double next to a multiple of 20 may count as more than that many spacings, since a
twentieth of it is still rounded to a fraction. -/
def Unsettled (x : Float) : Prop :=
  (2 ^ 55 ≤ |value x| ∧ |value x| < 5 * 2 ^ 53) ∨ (2 ^ 56 ≤ |value x| ∧ |value x| < 5 * 2 ^ 54)

instance (x : Float) : Decidable (Unsettled x) := inferInstanceAs (Decidable (_ ∨ _))

/-- Below `2 ^ 55` multiples of 20 are exact. -/
theorem OffGrid.exact (h : OffGrid .metric x) (hy : (snapped .metric x).isFinite = true)
    (hsmall : |value (snapped .metric x)| < 2 ^ 55) : value (snapped .metric x) = 20 * value (moved .metric x) := by
  have hnearest := h.millimetres hy
  obtain ⟨k, hk, -⟩ := h.away
  have hk5 : |5 * k| ≤ 2 ^ 53 := by
    by_contra hlarge
    have hint : (2 ^ 53 : Int) ≤ |5 * k| := (not_le.1 hlarge).le
    have hcast : (2 ^ 53 : Rat) ≤ |5 * (k : Rat)| := by exact_mod_cast hint
    have hle : (2 ^ 55 : Rat) ≤ |20 * value (moved .metric x)| := by
      have hmul : 20 * value (moved .metric x) = 4 * (5 * (k : Rat)) := by
        rw [hk]
        ring
      rw [hmul, abs_mul, abs_of_pos (by norm_num : (0 : Rat) < 4)]
      linarith
    exact absurd (hnearest.le_abs_of_le (.two_pow 55) hle) (not_le.2 hsmall)
  have hrepresentable : Representable (20 * value (moved .metric x)) := by
    have hunit : 20 * value (moved .metric x) = (5 * k : Int) * 2 ^ 2 := by
      rw [hk]
      push_cast
      ring
    rw [hunit]
    exact (Representable.intCast hk5).mul_two_pow 2
  exact hnearest.eq_self hrepresentable

/-- The last place of a large double is 32 of the units that a twentieth of it is counted in. -/
theorem exists_last_place (hx : x.isFinite = true) (hlarge : 2 ^ 55 ≤ |value x|) :
    ∃ (g : Sign) (m e : Int), factor g * value x = 32 * m * unit e ∧ 2 ^ 52 ≤ m ∧ m < 2 ^ 53 ∧
      -2 ≤ e := by
  obtain ⟨g, m, t, hcanonical, -, hux⟩ := exists_assemble hx
  have hvalue : value x = factor g * (m * unit t) := by rw [value, hux, unpackedValue_assemble]
  have hupper : (m : Rat) < 2 ^ 53 := by exact_mod_cast hcanonical.upper
  have ht : 3 ≤ t := by
    by_contra hsmall
    have hunit : unit t ≤ unit 2 := unit_le_unit (by omega)
    have hunit2 : unit 2 = 4 := by norm_num [unit]
    have hle : (m : Rat) * unit t < 2 ^ 53 * 4 := by
      calc (m : Rat) * unit t ≤ m * unit 2 := mul_le_mul_of_nonneg_left hunit (Nat.cast_nonneg m)
        _ < 2 ^ 53 * 4 := by rw [hunit2]; linarith
    rw [hvalue, abs_factor_mul] at hlarge
    linarith
  have hlower := hcanonical.lower.resolve_right (by omega)
  obtain ⟨e, rfl⟩ : ∃ e, t = e + (5 : Nat) := ⟨t - 5, by omega⟩
  refine ⟨g, m, e, ?_, by exact_mod_cast hlower, by exact_mod_cast hcanonical.upper, by omega⟩
  rw [hvalue, factor_mul_self, unit_add_natCast]
  push_cast
  ring

/-- Its magnitude in last places. -/
theorem abs_of_last_place {g : Sign} {m e : Int} (hlast : factor g * value x = 32 * m * unit e)
    (hm : 0 ≤ m) : |value x| = 32 * m * unit e := by
  have hm0 : (0 : Rat) ≤ m := by exact_mod_cast hm
  have hpos := unit_pos e
  have habs := congrArg abs hlast
  rwa [abs_mul, abs_factor, one_mul, abs_of_nonneg (by positivity : (0 : Rat) ≤ 32 * m * unit e)] at habs

section Again

variable {y : Float} {g : Sign} {m e : Int} (h : OffGrid .metric y)
  (hlast : factor g * value y = 32 * m * unit e)
include h hlast

/-- Above five eighths of a power of two, the same number of spacings is found again. -/
theorem OffGrid.again_same {n : Float} (hn : n.isFinite = true) (hwhole : ∃ k : Int, value n = k) (h0 : value n ≠ 0)
    (hy : Nearest (20 * value n) (value y)) (hm : 5 * 2 ^ 50 ≤ m) (hm53 : m < 2 ^ 53) (he : -2 ≤ e) :
    moved .metric y = n := by
  obtain ⟨k, hk⟩ := hwhole
  obtain ⟨-, -, hspacing⟩ := metric_values
  have hlt : |value y| < 2 ^ 53 * unit (e + (5 : Nat)) := by
    have hcast : (m : Rat) * unit e < 2 ^ 53 * unit e := mul_lt_mul_of_pos_right (by exact_mod_cast hm53) (unit_pos e)
    rw [abs_of_last_place hlast (by omega), unit_add_natCast]
    linarith
  have hdistance := near_twentieth hy (by omega) hlt
  have hclose := h.nearest.le (value n) (representable_value n)
  rw [hspacing] at hclose
  have hfactor : ∀ q, |factor g * q - 8 / 5 * m * unit e| = |q - value y / 20| := by
    intro q
    have htwentieth : 8 / 5 * m * unit e = factor g * (value y / 20) := by
      rw [mul_div_assoc', hlast]
      ring
    rw [htwentieth, ← mul_sub, abs_mul, abs_factor, one_mul]
  have hsame : factor g * value (spacings .metric y) = factor g * value n := by
    refine eq_of_near_twentieth (e := e) ((Nearest.self (representable_value n)).factor_mul g).representable
      ((Nearest.self (representable_value _)).factor_mul g).representable hm ?_ ?_
    · rwa [hfactor]
    · rw [hfactor]
      exact le_trans hclose hdistance
  have hs : value (spacings .metric y) = value n := by
    have htwice := congrArg (factor g * ·) hsame
    simpa only [factor_mul_self] using htwice
  have hmoved : value (moved .metric y) = value n := by rw [h.moved_of_whole (hs.trans hk), hs]
  exact eq_of_value_eq h.isFinite_moved hn hmoved (hmoved ▸ h0)

/-- Below five eighths of a power of two, the end is found again from the rounded number of spacings. -/
theorem OffGrid.again_near (hm : 2 ^ 52 ≤ m) (hm' : m ≤ 5 * 2 ^ 50) (he : 0 ≤ e) :
    (snapped .metric y).isFinite = true ∧ value (snapped .metric y) = value y := by
  obtain ⟨-, hvi, hspacing⟩ := metric_values
  have hnearest : Nearest (8 / 5 * m * unit e) (factor g * value (spacings .metric y)) := by
    have htwentieth : 8 / 5 * m * unit e = factor g * (value y / (UnitSystem.metric.tiers.first : Rat)) := by
      rw [hspacing, mul_div_assoc', hlast]
      ring
    rw [htwentieth]
    exact h.nearest.factor_mul g
  obtain ⟨l, hl, hleast, hgreatest⟩ := exists_mul_of_twentieth (by omega) hm hm' hnearest
  obtain ⟨j, rfl⟩ := Int.eq_ofNat_of_zero_le he
  obtain ⟨k, hk⟩ : ∃ k : Int, value (spacings .metric y) = k := by
    have hs : value (spacings .metric y) = factor g * (l * unit (j : Int)) := by rw [← hl, factor_mul_self]
    rw [hs, unit_natCast]
    cases g with
    | positive => exact ⟨l * 2 ^ j, by push_cast [factor]; ring⟩
    | negative => exact ⟨-(l * 2 ^ j), by push_cast [factor]; ring⟩
  have hmoved := h.moved_of_whole hk
  obtain ⟨w, hw, hcase⟩ := mul_rounds h.isFinite_moved (isFinite_increment .metric)
  have hwy : w = value y := by
    have hfactored := hw.factor_mul g
    rw [hmoved, hvi, mul_comm _ (20 : Rat), mul_left_comm, hl] at hfactored
    have heq := eq_of_mul_twenty (by omega) hm hm' hleast hgreatest hfactored
    rw [← hlast] at heq
    have htwice := congrArg (factor g * ·) heq
    simpa only [factor_mul_self] using htwice
  rw [hwy, if_pos (abs_value_lt y)] at hcase
  obtain ⟨hfinite, hvalue⟩ := div_precision_metric hcase.1
  rw [h.snapped_eq_moved]
  exact ⟨hfinite, hvalue.trans hcase.2⟩

end Again

/-- The two unsettled ranges are those in which a unit of a twentieth is less than one. -/
theorem nonneg_of_settled {g : Sign} {m e : Int} (hlast : factor g * value x = 32 * m * unit e)
    (hm : 2 ^ 52 ≤ m) (hm' : m < 5 * 2 ^ 50) (he : -2 ≤ e) (hsettled : ¬ Unsettled x) : 0 ≤ e := by
  have habs := abs_of_last_place hlast (by omega)
  have hlow : (2 ^ 52 : Rat) ≤ m := by exact_mod_cast hm
  have hhigh : (m : Rat) < 5 * 2 ^ 50 := by exact_mod_cast hm'
  by_contra hneg
  have hcases : e = -2 ∨ e = -1 := by omega
  rcases hcases with rfl | rfl
  · rw [unit_quarter] at habs
    exact hsettled (.inl ⟨by linarith, by linarith⟩)
  · have hhalf : unit (-1) = 1 / 2 := by norm_num [unit]
    rw [hhalf] at habs
    exact hsettled (.inr ⟨by linarith, by linarith⟩)

/-- In millimetres an end that was moved stays, unless its magnitude is unsettled. -/
theorem snapped_snapped_metric (hx : x.isFinite = true) (hy : (snapped .metric x).isFinite = true)
    (hsettled : ¬ Unsettled (snapped .metric x)) :
    (snapped .metric (snapped .metric x)).isFinite = true ∧
      value (snapped .metric (snapped .metric x)) = value (snapped .metric x) := by
  rcases snapped_eq_self_or .metric hx with hkeep | h
  · rw [hkeep, hkeep]
    exact ⟨hx, rfl⟩
  · obtain ⟨-, -, hspacing⟩ := metric_values
    obtain ⟨k, hk, -⟩ := h.away
    rcases lt_or_ge |value (snapped .metric x)| (2 ^ 55) with hsmall | hlarge
    · have hexact := h.exact hy hsmall
      have hkeep : snapped .metric (snapped .metric x) = snapped .metric x :=
        snapped_of_multiple (k := k) hy (by rw [hexact, hk, hspacing, mul_comm])
      rw [hkeep]
      exact ⟨hy, rfl⟩
    · rcases snapped_eq_self_or .metric hy with hkeep | h'
      · rw [hkeep]
        exact ⟨hy, rfl⟩
      · obtain ⟨g, m, e, hlast, hm, hm53, he⟩ := exists_last_place hy hlarge
        rcases le_or_gt (5 * 2 ^ 50) m with hbig | hless
        · have hsame := h'.again_same hlast h.isFinite_moved ⟨k, hk⟩ h.moved_ne_zero (h.millimetres hy) hbig hm53 he
          rw [h'.snapped_eq_moved, hsame, ← h.snapped_eq_moved]
          exact ⟨hy, rfl⟩
        · exact h'.again_near hlast hm hless.le (nonneg_of_settled hlast hm hless he hsettled)

/-! ## Large ends -/

/-- A whole number of spacings of 20 mm that no end is beyond. -/
def greatestCount : Rat := 7205759403792793 * unit 967

theorem representable_greatestCount : Representable greatestCount := by
  have hcount : Representable ((7205759403792793 : Int) * unit 967) := .mk (by norm_num) (by norm_num)
  exact_mod_cast hcount

theorem exists_greatestCount : ∃ c : Int, greatestCount = c := by
  obtain ⟨k, -, hk⟩ := unit_eq_mul (by decide : (0 : Int) ≤ 967)
  refine ⟨7205759403792793 * k, ?_⟩
  rw [greatestCount, hk, unit_zero]
  push_cast
  ring

/-- Its product with the spacing is beyond the greatest double, but by less than half of the last place. -/
theorem twenty_mul_greatestCount : 20 * greatestCount = greatest + unit 969 := by
  have hunit : unit 971 = 2 ^ 4 * unit 967 := unit_add_natCast 967 4
  have hunit' : unit 969 = 2 ^ 2 * unit 967 := unit_add_natCast 967 2
  rw [greatest, greatestCount, hunit, hunit']
  ring

/-- The number of spacings that an end is moved to is not beyond it. -/
theorem OffGrid.abs_moved_le (h : OffGrid .metric x) : |value (moved .metric x)| ≤ greatestCount := by
  obtain ⟨-, -, hspacing⟩ := metric_values
  obtain ⟨c, hc⟩ := exists_greatestCount
  have hspacings : |value (spacings .metric x)| ≤ greatestCount := by
    refine h.nearest.abs_le_of_le representable_greatestCount ?_
    rw [hspacing, abs_div, abs_of_pos (by norm_num : (0 : Rat) < 20), div_le_iff₀ (by norm_num)]
    linarith [abs_value_le_greatest h.finite, twenty_mul_greatestCount, unit_pos 969]
  obtain ⟨k, hk, haway⟩ := h.away
  rw [hc] at hspacings ⊢
  rw [hk]
  have hlt : |(k : Rat)| < c + 1 := lt_of_lt_of_le haway.lt (by linarith)
  have hint : |k| < c + 1 := by exact_mod_cast hlt
  exact_mod_cast Int.lt_add_one_iff.1 hint

/-- **A finite end is moved to a finite one.** -/
theorem isFinite_snapped (hx : x.isFinite = true) : (snapped u x).isFinite = true := by
  cases u with
  | imperial => exact (snapped_snapped_imperial hx).1
  | metric =>
    rcases snapped_eq_self_or .metric hx with hkeep | h
    · rwa [hkeep]
    · obtain ⟨-, hvi, -⟩ := metric_values
      have hsize : |value (moved .metric x) * value (UnitSystem.metric.increment : Float)| ≤ greatest + unit 969 := by
        rw [hvi, abs_mul, abs_of_pos (by norm_num : (0 : Rat) < 20), ← twenty_mul_greatestCount]
        linarith [h.abs_moved_le]
      have hhalf : 2 * unit 969 < unit 971 := by
        rw [← unit_succ]
        exact unit_lt_unit (by decide)
      have hproduct := (mul_rounds h.isFinite_moved (isFinite_increment .metric)).isFinite_of_le_add hhalf hsize
      rw [h.snapped_eq_moved]
      exact (div_precision_metric hproduct).1

/-! ## The side of an end -/

/-- Moving an end to the grid keeps it on its side of the origin. -/
theorem snapped_side (hx : x.isFinite = true) :
    (0 < value x → 0 < value (snapped u x)) ∧ (value x < 0 → value (snapped u x) < 0) ∧
      (value x = 0 → value (snapped u x) = 0) := by
  rcases snapped_eq_self_or u hx with hkeep | h
  · rw [hkeep]
    exact ⟨id, id, id⟩
  · obtain ⟨hup, hdown⟩ := h.count
    cases u with
    | imperial =>
      obtain ⟨-, hvalue⟩ := h.inches
      rw [hvalue]
      refine ⟨fun hpos => ?_, fun hneg => ?_, fun h0 => absurd h0 h.value_ne_zero⟩
      · linarith [hup hpos]
      · linarith [hdown hneg]
    | metric =>
      have hnearest := h.millimetres (isFinite_snapped hx)
      have hone : Representable 1 := by simpa using Representable.two_pow 0
      refine ⟨fun hpos => ?_, fun hneg => ?_, fun h0 => absurd h0 h.value_ne_zero⟩
      · have hle := hnearest.le_of_le hone (by linarith [hup hpos])
        linarith
      · have hge := hnearest.ge_of_ge hone.neg (by linarith [hdown hneg])
        linarith

theorem snapped_nonneg (hx : x.isFinite = true) (h : 0 ≤ value x) : 0 ≤ value (snapped u x) := by
  obtain ⟨hup, -, hzero⟩ := snapped_side (u := u) hx
  rcases h.eq_or_lt with h0 | hpos
  · exact (hzero h0.symm).ge
  · exact (hup hpos).le

theorem snapped_nonpos (hx : x.isFinite = true) (h : value x ≤ 0) : value (snapped u x) ≤ 0 := by
  obtain ⟨-, hdown, hzero⟩ := snapped_side (u := u) hx
  rcases h.eq_or_lt with h0 | hneg
  · exact (hzero h0).le
  · exact (hdown hneg).le

end Ends

end SolidScript.Overlay
