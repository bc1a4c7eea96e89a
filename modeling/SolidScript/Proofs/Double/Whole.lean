import SolidScript.Proofs.Double.Arithmetic
import SolidScript.Proofs.Double.Count

/-!
# Whole numbers and remainders of doubles

Some operations of the doubles do not round, because their results are representable. They are those of the rationals:
rounding to a whole number (`value_ceil`, `value_floor`, `value_round`), the whole part (`toNat_of_lt`), the
double of a count (`value_ofNat`), and the remainder (`value_rem`).
-/

namespace SolidScript.Double

open Float.Model (Format UnpackedFloat)
open Float.Model.UnpackedFloat

/-! ## Exact results -/

/-- The sign that a flag stands for. -/
def signOf (negative : Bool) : Sign := if negative then .negative else .positive

theorem signOf_isNegative (s : Sign) : signOf (isNegative s) = s := by
  cases s <;> rfl

/-- A representable value within the range is packed exactly. -/
theorem ofScaled_eq_packed (negative : Bool) {m : Nat} {e : Int} (h : Representable (m * unit e))
    (hlt : m * unit e < unit 1024) : ∃ n t, Canonical n t ∧ t ≤ 971 ∧ n * unit t = m * unit e ∧
      ofScaled negative m e = packed (assemble (signOf negative) n t) := by
  obtain ⟨n, t, hcanonical, hvalue, hround⟩ : ∃ n t, Canonical n t ∧ n * unit t = m * unit e ∧
      ofScaled negative m e = Float.ofBits ⟨pack Format.binary64 (assemble (signOf negative) n t)⟩ := by
    rcases Nat.eq_zero_or_pos m with rfl | hm
    · exact ⟨0, -1074, .zero, by simp, rfl⟩
    · obtain ⟨n, t, ⟨hcanonical, hnearest, -⟩, hround⟩ := round_spec hm e
      refine ⟨n, t, hcanonical, hnearest.eq_self h, ?_⟩
      rw [ofScaled, if_neg (Nat.ne_of_gt hm), ← hround]
      rfl
  have ht : t ≤ 971 := by
    rw [← hvalue] at hlt
    exact hcanonical.lt_limit_iff.1 hlt
  refine ⟨n, t, hcanonical, ht, hvalue, ?_⟩
  rw [hround]
  show packed (unpack Format.binary64 (pack Format.binary64 (assemble (signOf negative) n t))) = _
  rw [unpack_pack_assemble _ hcanonical ht]

theorem ofScaled_exact (negative : Bool) {m : Nat} {e : Int} (h : Representable (m * unit e))
    (hlt : m * unit e < unit 1024) : (ofScaled negative m e).isFinite = true ∧
      value (ofScaled negative m e) = factor (signOf negative) * (m * unit e) := by
  obtain ⟨n, t, hcanonical, ht, hvalue, hpacked⟩ := ofScaled_eq_packed negative h hlt
  rw [hpacked, isFinite_packed _ hcanonical, decide_eq_true ht, value_packed _ hcanonical ht, hvalue]
  exact ⟨rfl, rfl⟩

/-- A count of at most 53 bits is a value within the range. -/
theorem representable_count {n : Nat} (h : n ≤ 2 ^ 53) : Representable (n * unit 0) ∧ n * unit 0 < unit 1024 := by
  have hcast : (n : Rat) ≤ 2 ^ 53 := by exact_mod_cast h
  constructor
  · have hn : |(n : Int)| ≤ 2 ^ 53 := by
      rw [abs_of_nonneg (by omega)]
      exact_mod_cast h
    rw [unit_zero, mul_one]
    exact_mod_cast Representable.intCast hn
  · calc n * unit 0 ≤ 2 ^ 53 := by rw [unit_zero, mul_one]; exact hcast
      _ = unit 53 := (unit_natCast 53).symm
      _ < unit 1024 := unit_lt_unit (by decide)

theorem ofScaled_count (negative : Bool) {n : Nat} (h : n ≤ 2 ^ 53) : (ofScaled negative n 0).isFinite = true ∧
    value (ofScaled negative n 0) = factor (signOf negative) * n := by
  obtain ⟨hrepresentable, hlt⟩ := representable_count h
  have hexact := ofScaled_exact negative hrepresentable hlt
  rwa [unit_zero, mul_one] at hexact

/-! ## Whole numbers -/

/-- The whole part of a quotient and what is left. -/
theorem quotient_split (m : Nat) {d : Nat} (hd : 0 < d) : (m : Rat) / d = (m / d : Nat) + (m % d : Nat) / d := by
  have hd' : (0 : Rat) < d := by exact_mod_cast hd
  have hsum : (m : Rat) = d * (m / d : Nat) + (m % d : Nat) := by
    rw [← Nat.cast_mul, ← Nat.cast_add, Nat.div_add_mod]
  rw [hsum]
  field_simp

/-- A double with nothing behind the point is kept. Else its significand is cut off there, and the rule is asked. -/
theorem roundWith_of_unpack (rule : Bool → Nat → Nat → Bool) {x : Float} {s : Sign} {m : Nat} {t : Int}
    (h : Canonical m t) (hux : x.toModel.unpack = assemble s m t) :
    (roundWith rule x = x ∧ (m = 0 ∨ 0 ≤ t)) ∨ ∃ k n : Nat, 0 < m ∧ t = -k ∧ n ≤ 2 ^ 53 ∧
      n = (if rule (isNegative s) (m % 2 ^ k) (2 ^ k) then m / 2 ^ k + 1 else m / 2 ^ k) ∧
      roundWith rule x = ofScaled (isNegative s) n 0 := by
  rcases Nat.eq_zero_or_pos m with rfl | hm
  · refine .inl ⟨?_, .inl rfl⟩
    rw [roundWith, hux, assemble_zero]
  · by_cases ht : 0 ≤ t
    · refine .inl ⟨?_, .inr ht⟩
      rw [roundWith, hux, assemble_pos s t hm]
      exact if_pos ht
    · obtain ⟨k, rfl⟩ : ∃ k : Nat, t = -k := ⟨(-t).toNat, by omega⟩
      refine .inr ⟨k, _, hm, rfl, ?_, rfl, ?_⟩
      · have hdiv : m / 2 ^ k ≤ m := Nat.div_le_self _ _
        have hupper := h.upper
        split <;> omega
      · rw [roundWith, hux, assemble_pos s _ hm]
        simp only [if_neg ht, Int.natAbs_neg, Int.natAbs_natCast]
        rfl

/-- A whole number next to a double: either the double is whole already and kept, or the rule decides between the two
whole numbers around it. -/
theorem roundWith_spec (rule : Bool → Nat → Nat → Bool) {x : Float} (hx : x.isFinite = true) :
    (roundWith rule x = x ∧ ∃ n : Int, value x = n) ∨
      ∃ (s : Sign) (q r d : Nat), r < d ∧ value x = factor s * (q + r / d) ∧ 0 < (q : Rat) + r / d ∧
        (roundWith rule x).isFinite = true ∧
        value (roundWith rule x) = factor s * (if rule (isNegative s) r d then q + 1 else q : Nat) := by
  obtain ⟨s, m, t, hcanonical, -, hux⟩ := exists_assemble hx
  have hvalue : value x = factor s * (m * unit t) := by rw [value, hux, unpackedValue_assemble]
  rcases roundWith_of_unpack rule hcanonical hux with ⟨hkeep, rfl | ht⟩ | ⟨k, n, hm, rfl, hle, hn, hround⟩
  · exact .inl ⟨hkeep, 0, by simp [hvalue]⟩
  · refine .inl ⟨hkeep, ?_⟩
    obtain ⟨k, rfl⟩ := Int.eq_ofNat_of_zero_le ht
    rw [hvalue, unit_natCast]
    cases s with
    | positive => exact ⟨m * 2 ^ k, by push_cast [factor]; ring⟩
    | negative => exact ⟨-(m * 2 ^ k), by push_cast [factor]; ring⟩
  · have hpow : 0 < 2 ^ k := Nat.two_pow_pos k
    have hquotient : (m : Rat) * unit (-k) = m / (2 ^ k : Nat) := by
      rw [unit, zpow_neg, zpow_natCast, ← div_eq_mul_inv]
      push_cast
      rfl
    obtain ⟨hfinite, hresult⟩ := ofScaled_count (isNegative s) hle
    have hsplit := quotient_split m hpow
    refine .inr ⟨s, m / 2 ^ k, m % 2 ^ k, 2 ^ k, Nat.mod_lt m hpow, ?_, ?_, ?_, ?_⟩
    · rw [hvalue, hquotient, hsplit]
    · rw [← hsplit, ← hquotient]
      exact magnitude_pos hm _
    · rwa [hround]
    · rw [hround, hresult, signOf_isNegative, hn]

theorem ceil_eq {v : Rat} {n : Int} (hlt : (n : Rat) - 1 < v) (hle : v ≤ n) : v.ceil = n := by
  have hupper : v.ceil ≤ n := Rat.ceil_le_iff.2 hle
  have hlower : (n : Rat) - 1 < v.ceil := lt_of_lt_of_le hlt Rat.le_ceil
  have hint : n - 1 < v.ceil := by exact_mod_cast hlower
  omega

theorem floor_eq {v : Rat} {n : Int} (hle : (n : Rat) ≤ v) (hlt : v < n + 1) : v.floor = n := by
  have hlower : n ≤ v.floor := Rat.le_floor_iff.2 hle
  have hupper : (v.floor : Rat) < n + 1 := lt_of_le_of_lt (Rat.floor_le v) hlt
  have hint : v.floor < n + 1 := by exact_mod_cast hupper
  omega

/-- What is behind the point is less than one. -/
theorem fraction_bounds {r d : Nat} (h : r < d) : 0 ≤ (r : Rat) / d ∧ (r : Rat) / d < 1 ∧ ((r : Rat) / d = 0 ↔ r = 0) ∧
    (1 / 2 ≤ (r : Rat) / d ↔ d ≤ 2 * r) := by
  have hd : (0 : Rat) < d := by exact_mod_cast Nat.lt_of_le_of_lt (Nat.zero_le r) h
  have hr : (r : Rat) < d := by exact_mod_cast h
  refine ⟨by positivity, (div_lt_one hd).2 hr, ?_, ?_⟩
  · rw [div_eq_zero_iff, Nat.cast_eq_zero, or_iff_left hd.ne']
  · rw [div_le_div_iff₀ (by norm_num) hd, one_mul]
    constructor <;> intro hle
    · have hcast : ((d : Nat) : Rat) ≤ ((2 * r : Nat) : Rat) := by push_cast; linarith
      exact_mod_cast hcast
    · have hcast : ((d : Nat) : Rat) ≤ ((2 * r : Nat) : Rat) := by exact_mod_cast hle
      push_cast at hcast
      linarith

section Rounded

variable {x : Float} (hx : x.isFinite = true)
include hx

theorem isFinite_roundWith (rule : Bool → Nat → Nat → Bool) : (roundWith rule x).isFinite = true := by
  rcases roundWith_spec rule hx with ⟨hkeep, -⟩ | ⟨s, q, r, d, -, -, -, hfinite, -⟩
  · rwa [hkeep]
  · exact hfinite

theorem value_ceil : value (ceil x) = (value x).ceil := by
  rcases roundWith_spec (fun negative rest _ => !negative && decide (0 < rest)) hx with
    ⟨hkeep, n, hn⟩ | ⟨s, q, r, d, hr, hvalue, -, -, hresult⟩
  · rw [ceil, hkeep, hn, Rat.ceil_intCast]
  · obtain ⟨hrest, hone, hzero, -⟩ := fraction_bounds hr
    rw [ceil, hresult, hvalue]
    cases s with
    | negative =>
      have hceil : (factor .negative * (q + r / d)).ceil = -(q : Int) := by
        apply ceil_eq <;> simp only [factor] <;> push_cast <;> linarith
      rw [hceil]
      simp [factor, isNegative]
    | positive =>
      by_cases hr0 : r = 0
      · have hceil : (factor .positive * (q + r / d)).ceil = (q : Int) := by
          apply ceil_eq <;> simp only [factor, hzero.2 hr0] <;> push_cast <;> linarith
        rw [hceil]
        simp [factor, isNegative, hr0]
      · have hpos : 0 < (r : Rat) / d := lt_of_le_of_ne hrest fun h => hr0 (hzero.1 h.symm)
        have hceil : (factor .positive * (q + r / d)).ceil = (q + 1 : Nat) := by
          apply ceil_eq <;> simp only [factor] <;> push_cast <;> linarith
        rw [hceil]
        simp [factor, isNegative, Nat.pos_of_ne_zero hr0]

theorem value_floor : value (floor x) = (value x).floor := by
  rcases roundWith_spec (fun negative rest _ => negative && decide (0 < rest)) hx with
    ⟨hkeep, n, hn⟩ | ⟨s, q, r, d, hr, hvalue, -, -, hresult⟩
  · rw [floor, hkeep, hn, Rat.floor_intCast]
  · obtain ⟨hrest, hone, hzero, -⟩ := fraction_bounds hr
    rw [floor, hresult, hvalue]
    cases s with
    | positive =>
      have hfloor : (factor .positive * (q + r / d)).floor = (q : Int) := by
        apply floor_eq <;> simp only [factor] <;> push_cast <;> linarith
      rw [hfloor]
      simp [factor, isNegative]
    | negative =>
      by_cases hr0 : r = 0
      · have hfloor : (factor .negative * (q + r / d)).floor = -(q : Int) := by
          apply floor_eq <;> simp only [factor, hzero.2 hr0] <;> push_cast <;> linarith
        rw [hfloor]
        simp [factor, isNegative, hr0]
      · have hpos : 0 < (r : Rat) / d := lt_of_le_of_ne hrest fun h => hr0 (hzero.1 h.symm)
        have hfloor : (factor .negative * (q + r / d)).floor = -((q + 1 : Nat) : Int) := by
          apply floor_eq <;> simp only [factor] <;> push_cast <;> linarith
        rw [hfloor]
        simp [factor, isNegative, Nat.pos_of_ne_zero hr0]

theorem value_round : value (round x) = Rational.round (value x) := by
  rcases roundWith_spec (fun _ rest unit => decide (unit ≤ 2 * rest)) hx with
    ⟨hkeep, n, hn⟩ | ⟨s, q, r, d, hr, hvalue, hpos, -, hresult⟩
  · rw [round, hkeep, hn]
    unfold Rational.round
    split
    · have hfloor : (-(n : Rat) + 1 / 2).floor = -n := by
        apply floor_eq <;> push_cast <;> linarith
      rw [hfloor]
      push_cast
      ring
    · have hfloor : ((n : Rat) + 1 / 2).floor = n := by
        apply floor_eq <;> linarith
      rw [hfloor]
  · obtain ⟨hrest, hone, -, hhalf⟩ := fraction_bounds hr
    obtain ⟨n, hn, hfloor⟩ : ∃ n : Nat, (if decide (d ≤ 2 * r) then q + 1 else q) = n ∧
        ((q : Rat) + r / d + 1 / 2).floor = n := by
      by_cases hd : d ≤ 2 * r
      · have hle := hhalf.2 hd
        refine ⟨q + 1, by rw [decide_eq_true hd]; rfl, ?_⟩
        apply floor_eq <;> push_cast <;> linarith
      · have hlt := not_le.1 (mt hhalf.1 hd)
        refine ⟨q, by rw [decide_eq_false hd]; rfl, ?_⟩
        apply floor_eq <;> push_cast <;> linarith
    rw [round, hresult, hvalue, hn]
    unfold Rational.round
    cases s with
    | positive =>
      have hnot : ¬ factor .positive * ((q : Rat) + r / d) < 0 := by
        simp only [factor]
        linarith
      rw [if_neg hnot]
      simp only [factor, one_mul, hfloor, Int.cast_natCast]
    | negative =>
      have hneg : factor .negative * ((q : Rat) + r / d) < 0 := by
        simp only [factor]
        linarith
      rw [if_pos hneg]
      simp only [factor, neg_one_mul, neg_neg, hfloor, Int.cast_natCast]

end Rounded

/-! ## Whole parts -/

/-- A magnitude is cut off at the point. -/
theorem roundToInt_positive (n : Nat) (t : Int) : roundToInt .positive n t = ((n : Rat) * unit t).floor := by
  obtain ⟨a, ha⟩ : ∃ a, (t - 0).toNat = a := ⟨_, rfl⟩
  obtain ⟨b, hb⟩ : ∃ b, (0 - (t - (a : Int))).toNat = b := ⟨_, rfl⟩
  have hshift : roundToInt .positive n t = ((n <<< a) / 2 ^ b : Nat) := by
    simp only [roundToInt, decreaseExponent, shiftToExponent, ha, hb, mantissa_shiftRight,
      mantissa_ofMantissaAndAccuracy]
    rfl
  have hvalue : (n : Rat) * unit t = (n <<< a : Nat) / (2 ^ b : Nat) := by
    have hunit : unit t = unit a / unit b := by
      rw [eq_div_iff (unit_pos b).ne', ← unit_add]
      congr 1
      omega
    rw [hunit, unit_natCast, unit_natCast, Nat.shiftLeft_eq]
    push_cast
    ring
  have hsplit := quotient_split (n <<< a) (Nat.two_pow_pos b)
  obtain ⟨hrest, hone, -, -⟩ := fraction_bounds (Nat.mod_lt (n <<< a) (Nat.two_pow_pos b))
  rw [hshift, hvalue, hsplit]
  refine (floor_eq ?_ ?_).symm
  · rw [Int.cast_natCast]
    linarith
  · rw [Int.cast_natCast]
    linarith

/-- **The whole part of a double as a count.** -/
theorem toNat_of_lt {x : Float} (hx : x.isFinite = true) (h0 : 0 ≤ value x) (h : value x < 2 ^ 64) :
    Scalar.toNat x = (value x).floor.toNat := by
  have hint : x.toModel.unpack.toInt 0 (UInt64.size - 1) = (value x).floor := by
    obtain ⟨s, n, t, -, -, hux⟩ := exists_assemble hx
    have hvalue : value x = factor s * (n * unit t) := by rw [value, hux, unpackedValue_assemble]
    rcases Nat.eq_zero_or_pos n with rfl | hn
    · rw [hvalue, hux, assemble_zero, Nat.cast_zero, zero_mul, mul_zero]
      rfl
    · cases s with
      | positive =>
        rw [hux, assemble_pos .positive t hn, hvalue, factor, one_mul, ← roundToInt_positive]
        rfl
      | negative =>
        have hmagnitude := magnitude_pos hn t
        simp only [factor] at hvalue
        linarith
  have hsmall : (value x).floor.toNat < UInt64.size := by
    have hcast : ((value x).floor : Rat) < (2 ^ 64 : Int) := lt_of_le_of_lt (Rat.floor_le _) (by exact_mod_cast h)
    have hlt : (value x).floor < 2 ^ 64 := by exact_mod_cast hcast
    show (value x).floor.toNat < 2 ^ 64
    omega
  show (UInt64.ofNatClamp (x.toModel.unpack.toInt 0 (UInt64.size - 1)).toNat).toNat = _
  rw [hint, UInt64.ofNatClamp, dif_pos hsmall]
  rfl

/-- The double of a count has its value. -/
theorem value_ofNat {n : Nat} (h : n < 2 ^ 53) : value (Float.ofNat n) = n := by
  rcases Nat.eq_zero_or_pos n with rfl | h0
  · rw [value, ofNat_zero]
    rfl
  · have hcancel : unit (lift n) * unit (-(lift n : Int)) = 1 := by
      rw [← unit_add, add_neg_cancel, unit_zero]
    rw [value, unpack_ofNat h0 h, unpackedValue, factor, one_mul]
    push_cast
    rw [← unit_natCast, mul_assoc, hcancel, mul_one]

/-! ## Remainders -/

/-- The remainder of two counts of a unit. -/
theorem rem_counts (s : Sign) (a : Nat) {b : Nat} (hb : 0 < b) (e : Int) :
    Rational.rem (factor s * (a * unit e)) (b * unit e) = factor s * ((a % b : Nat) * unit e) := by
  have hunit := unit_pos e
  obtain ⟨q, hq⟩ : ∃ q : Nat, a / b = q := ⟨_, rfl⟩
  obtain ⟨hrest, hone, -, -⟩ := fraction_bounds (Nat.mod_lt a hb)
  have hsplit := quotient_split a hb
  have hmod : ((a % b : Nat) : Rat) = a - b * q := by
    rw [← hq, ← Nat.cast_mul, eq_sub_iff_add_eq, ← Nat.cast_add, Nat.mod_add_div]
  have hnonneg : 0 ≤ (a : Rat) / b := by positivity
  rw [hq] at hsplit
  have hquotient : factor s * (a * unit e) / (b * unit e) = factor s * ((a : Rat) / b) := by
    rw [mul_div_assoc, mul_div_mul_right _ _ hunit.ne']
  have hwhole : (if factor s * ((a : Rat) / b) < 0 then ((factor s * ((a : Rat) / b)).ceil : Rat)
      else ((factor s * ((a : Rat) / b)).floor : Rat)) = factor s * q := by
    cases s with
    | positive =>
      have hfloor : ((a : Rat) / b).floor = q := by
        apply floor_eq <;> push_cast <;> linarith
      simp only [factor, one_mul]
      rw [if_neg (not_lt.2 hnonneg), hfloor, Int.cast_natCast]
    | negative =>
      simp only [factor, neg_one_mul]
      by_cases hneg : -((a : Rat) / b) < 0
      · have hceil : (-((a : Rat) / b)).ceil = -(q : Int) := by
          apply ceil_eq <;> push_cast <;> linarith
        rw [if_pos hneg, hceil]
        push_cast
        rfl
      · have hzero : (a : Rat) / b = 0 := by linarith
        have hq0 : (q : Rat) = 0 := by
          have hnat : (0 : Rat) ≤ q := Nat.cast_nonneg q
          linarith
        have hfloor : Rat.floor 0 = 0 := rfl
        rw [if_neg hneg, hzero, hq0, neg_zero, hfloor, Int.cast_zero]
  show factor s * (a * unit e) - b * unit e * (if factor s * (a * unit e) / (b * unit e) < 0 then
    ((factor s * (a * unit e) / (b * unit e)).ceil : Rat) else (factor s * (a * unit e) / (b * unit e)).floor) = _
  rw [hquotient, hwhole, hmod]
  ring

/-- In the smaller of two units, one of the significands is not longer than before, so the remainder is not either. -/
theorem remainder_short {m n : Nat} {e f : Int} (h₁ : Canonical m e) (h₂ : Canonical n f) (hn : 0 < n) :
    m * 2 ^ (e - min e f).toNat % (n * 2 ^ (f - min e f).toNat) < 2 ^ 53 := by
  rcases le_total e f with hle | hle
  · have hshift : (e - min e f).toNat = 0 := by omega
    rw [hshift, pow_zero, mul_one]
    exact lt_of_le_of_lt (Nat.mod_le _ _) h₁.upper
  · have hshift : (f - min e f).toNat = 0 := by omega
    rw [hshift, pow_zero, mul_one]
    exact lt_trans (Nat.mod_lt _ hn) h₂.upper

theorem value_rem {x y : Float} (hx : x.isFinite = true) (hy : y.isFinite = true) (hpos : 0 < value y) :
    (rem x y).isFinite = true ∧ value (rem x y) = Rational.rem (value x) (value y) := by
  obtain ⟨s, m, e, h₁, he, hux⟩ := exists_assemble hx
  obtain ⟨n, f, h₂, hn, huy, hvaluey⟩ := exists_assemble_pos hy hpos
  have hvaluex : value x = factor s * (m * unit e) := by rw [value, hux, unpackedValue_assemble]
  rcases Nat.eq_zero_or_pos m with rfl | hm
  · have hrem : rem x y = x := by
      rw [rem, hux, huy, assemble_zero, assemble_pos .positive f hn]
    have hzero : value x = 0 := by simp [hvaluex]
    refine ⟨by rwa [hrem], ?_⟩
    have hfloor : Rat.floor 0 = 0 := rfl
    rw [hrem, hzero, Rational.rem, zero_div]
    simp [hfloor]
  · -- Both are counted in the smaller unit.
    obtain ⟨low, hlow⟩ : ∃ low, low = min e f := ⟨_, rfl⟩
    obtain ⟨a, ha⟩ : ∃ a, a = m * 2 ^ (e - low).toNat := ⟨_, rfl⟩
    obtain ⟨b, hb⟩ : ∃ b, b = n * 2 ^ (f - low).toNat := ⟨_, rfl⟩
    have hbpos : 0 < b := by
      rw [hb]
      exact Nat.mul_pos hn (Nat.two_pow_pos _)
    have hrem : rem x y = ofScaled (isNegative s) (a % b) low := by
      rw [rem, hux, huy, assemble_pos s e hm, assemble_pos .positive f hn, ha, hb, hlow]
      rfl
    have hvaluea : (m : Rat) * unit e = a * unit low := by
      rw [ha, ← Nat.shiftLeft_eq, shiftLeft_mul_unit m (by omega)]
    have hvalueb : (n : Rat) * unit f = b * unit low := by
      rw [hb, ← Nat.shiftLeft_eq, shiftLeft_mul_unit n (by omega)]
    have hrepresentable : Representable ((a % b : Nat) * unit low) := by
      have hshort := remainder_short h₁ h₂ hn
      rw [← hlow, ← ha, ← hb] at hshort
      have hk : |((a % b : Nat) : Int)| ≤ 2 ^ 53 := by
        rw [abs_of_nonneg (by omega)]
        omega
      have hleast₁ := h₁.least
      have hleast₂ := h₂.least
      exact_mod_cast Representable.mk hk (by omega : -1074 ≤ low)
    have hlt : ((a % b : Nat) : Rat) * unit low < unit 1024 := by
      have hle : ((a % b : Nat) : Rat) ≤ a := by exact_mod_cast Nat.mod_le a b
      calc ((a % b : Nat) : Rat) * unit low ≤ a * unit low := mul_le_mul_of_nonneg_right hle (unit_pos low).le
        _ = m * unit e := hvaluea.symm
        _ < unit 1024 := h₁.lt_limit_iff.2 he
    obtain ⟨hfinite, hvalue⟩ := ofScaled_exact (isNegative s) hrepresentable hlt
    rw [hrem, hvalue, hvaluex, hvaluey, hvaluea, hvalueb, rem_counts s a hbpos low, signOf_isNegative]
    exact ⟨hfinite, rfl⟩

end SolidScript.Double
