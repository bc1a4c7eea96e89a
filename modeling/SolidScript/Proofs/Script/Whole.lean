import SolidScript.Proofs.Overlay.Loop
import SolidScript.Proofs.Script.Measure

/-!
# Whole measures

A whole double is scaled by a million, which may take more bits than a double has, and divided by a million again. The
first step rounds off at most `2 ^ 13` of the last places of the product; the second makes good for up to 7812 of these,
so that the double is written as itself just if no more are rounded off (`number_of_whole`). Where they are more the
measure `Drifts`: the least is 576460752305, which is written with a fraction (`exists_drift`).
-/

namespace SolidScript

namespace Double

/-- A whole number is rounded to a whole number. -/
theorem Nearest.exists_int {n : Int} {w : Rat} (h : Nearest n w) : ∃ k : Int, w = k := by
  by_cases hsmall : |n| ≤ 2 ^ 53
  · exact ⟨n, h.eq_self (.intCast hsmall)⟩
  · have hlarge : (2 ^ 53 : Rat) ≤ |(n : Rat)| := by exact_mod_cast (not_le.1 hsmall).le
    have hw := h.le_abs_of_le (.two_pow 53) hlarge
    obtain ⟨k, hk⟩ := h.representable.eq_mul_unit (t := 0) (by norm_num [unit] at hw ⊢; linarith)
    exact ⟨k, by rw [hk]; norm_num [unit]⟩

/-! ## Scaling by a million -/

/-- Whether a significand, scaled by a million, is rounded too far for the division to give it back. A million is 15625
times a power of two. -/
def Lossy (m : Nat) : Prop := 2 ^ 66 ≤ 15625 * m ∧ 7813 ≤ 15625 * m % 2 ^ 14 ∧ 15625 * m % 2 ^ 14 ≤ 8571

instance : DecidablePred Lossy := fun _ => inferInstanceAs (Decidable (_ ∧ _))

section Scaled

variable {m : Nat} {q : Int} {w : Rat}

theorem unit_million (q : Int) : unit q * 1000000 = 15625 * unit (q + 6) := by
  have hunit : unit (q + 6) = 2 ^ 6 * unit q := unit_add_natCast q 6
  rw [hunit]
  ring

/-- A long product is rounded to a multiple of so many units, and by no more than half as many. -/
theorem exists_offset {M j : Nat} {e : Int} (he : -1074 ≤ e) (hlow : 2 ^ 52 * 2 ^ j ≤ M) (hhigh : M ≤ 2 ^ 53 * 2 ^ j)
    (hw : Nearest (M * unit e) w) :
    ∃ d : Int, w = (M + d) * unit e ∧ 2 * |d| ≤ 2 ^ j ∧ (2 ^ j : Int) ∣ M + d := by
  have hpos := unit_pos e
  have hunit : unit (e + j) = 2 ^ j * unit e := unit_add_natCast e j
  have hvalue : 0 ≤ (M : Rat) * unit e := by positivity
  have hlow' : 2 ^ 52 * unit (e + j) ≤ M * unit e := by
    have hcast : (2 ^ 52 * 2 ^ j : Rat) ≤ M := by exact_mod_cast hlow
    rw [hunit, ← mul_assoc]
    exact mul_le_mul_of_nonneg_right hcast hpos.le
  have hhigh' : |(M : Rat) * unit e| ≤ 2 ^ 53 * unit (e + j) := by
    have hcast : (M : Rat) ≤ 2 ^ 53 * 2 ^ j := by exact_mod_cast hhigh
    rw [abs_of_nonneg hvalue, hunit, ← mul_assoc]
    exact mul_le_mul_of_nonneg_right hcast hpos.le
  have hlarge : 2 ^ 52 * unit (e + j) ≤ w := hw.le_of_le (.hidden_bit (by omega)) hlow'
  obtain ⟨k, rfl⟩ := hw.representable.eq_mul_unit (hlarge.trans (le_abs_self w))
  have hhalf := hw.half_unit (by omega) hhigh'
  refine ⟨k * 2 ^ j - M, ?_, ?_, ⟨k, by ring⟩⟩
  · rw [hunit]
    push_cast
    ring
  · have hdistance : (k : Rat) * unit (e + j) - M * unit e = ((k * 2 ^ j - M : Int) : Rat) * unit e := by
      rw [hunit]
      push_cast
      ring
    rw [hdistance, abs_mul, abs_of_pos hpos, hunit, ← Int.cast_abs] at hhalf
    have hbound : 2 * ((|k * 2 ^ j - M| : Int) : Rat) * unit e ≤ 2 ^ j * unit e := by linarith
    exact_mod_cast le_of_mul_le_mul_right hbound hpos

/-- The interval of a significand reaches 7812 places of its scaled form to either side. -/
theorem holds_offset {d : Int} (hgap : gap m q = unit q) :
    Holds m q (m * unit q + d * (unit q / 15625)) ↔ |d| ≤ 7812 := by
  have hpos := unit_pos q
  have hstep : ∀ {a b : Int}, a < b → ((a : Rat) + 1) * unit q ≤ b * unit q := by
    intro a b hlt
    have hint : a + 1 ≤ b := hlt
    exact mul_le_mul_of_nonneg_right (by exact_mod_cast hint) hpos.le
  rw [abs_le]
  unfold Holds
  rw [hgap]
  constructor
  · intro h
    have hbounds : m * unit q - unit q / 2 ≤ m * unit q + d * (unit q / 15625) ∧
        m * unit q + d * (unit q / 15625) ≤ m * unit q + unit q / 2 := by
      split at h
      · exact h
      · exact ⟨h.1.le, h.2.le⟩
    refine ⟨?_, ?_⟩
    · by_contra hlt
      have hmul := hstep (not_le.1 hlt)
      push_cast at hmul
      linarith
    · by_contra hlt
      have hmul := hstep (not_le.1 hlt)
      push_cast at hmul
      linarith
  · rintro ⟨hlow, hhigh⟩
    have hlow' : (-7812 : Rat) * unit q ≤ d * unit q :=
      mul_le_mul_of_nonneg_right (by exact_mod_cast hlow) hpos.le
    have hhigh' : (d : Rat) * unit q ≤ 7812 * unit q :=
      mul_le_mul_of_nonneg_right (by exact_mod_cast hhigh) hpos.le
    split <;> constructor <;> linarith

/-- **A scaled significand is given back** by the division unless it is lossy. -/
theorem holds_scaled_iff (h : Canonical m q) (hlong : 2 ^ 52 ≤ m)
    (hw : Nearest (m * unit q * 1000000) w) : Holds m q (w / 1000000) ↔ ¬ Lossy m := by
  have hleast := h.least
  have hupper := h.upper
  have hmillion : (m : Rat) * unit q * 1000000 = (15625 * m : Nat) * unit (q + 6) := by
    rw [mul_assoc, unit_million]
    push_cast
    ring
  rw [hmillion] at hw
  have hresult : ∀ d : Int, ((15625 * m : Nat) + d) * unit (q + 6) / 1000000 = m * unit q + d * (unit q / 15625) := by
    intro d
    have hunit : unit (q + 6) = 2 ^ 6 * unit q := unit_add_natCast q 6
    rw [hunit]
    push_cast
    ring
  unfold Lossy
  by_cases hshort : 15625 * m < 2 ^ 66
  · obtain ⟨d, rfl, hd, hdvd⟩ := exists_offset (j := 13) (by omega) (by omega) (by omega) hw
    have hd' : |d| ≤ 4096 := by omega
    rw [hresult]
    refine iff_of_true ?_ (by omega)
    by_cases hpower : m = 2 ^ 52
    · -- the product is a double, and nothing is rounded off
      obtain ⟨k, hk⟩ := hdvd
      rw [abs_le] at hd'
      have hzero : d = 0 := by omega
      rw [hzero, Int.cast_zero, zero_mul, add_zero]
      exact Holds.self m q
    · have hgap : gap m q = unit q := if_neg fun hboth => hpower hboth.1
      exact (holds_offset hgap).2 (by omega)
  · obtain ⟨d, rfl, hd, hdvd⟩ := exists_offset (j := 14) (by omega) (by omega) (by omega) hw
    have hgap : gap m q = unit q := if_neg fun hboth => by omega
    have hd' : |d| ≤ 8192 := by omega
    rw [hresult, holds_offset hgap]
    obtain ⟨k, hk⟩ := hdvd
    generalize 15625 * m = M at hshort hk ⊢
    rw [abs_le] at hd' ⊢
    omega

/-- What is not less than one has a long significand. -/
theorem Canonical.long_of_one_le (h : Canonical m q) (hone : 1 ≤ m * unit q) : 2 ^ 52 ≤ m := by
  refine h.lower.resolve_right ?_
  rintro rfl
  have hupper : (m : Rat) ≤ 2 ^ 53 := by exact_mod_cast h.upper.le
  have hsmall : m * unit (-1074) ≤ 2 ^ 53 * unit (-54) :=
    mul_le_mul hupper (unit_le_unit (by decide)) (unit_pos _).le (by norm_num)
  have hunit : 2 ^ 53 * unit (-54) < 1 := by norm_num [unit]
  linarith

/-- Below the least whole number that is lost, a significand ends in so many zeros that nothing is rounded off. -/
theorem not_lossy_of_le (h : Canonical m q) (hlong : 2 ^ 52 ≤ m) {n : Nat} (hn : m * unit q = n)
    (hle : n ≤ 576460752304) : ¬ Lossy m := by
  have hnat : ∀ {j : Nat}, q = -j → m = n * 2 ^ j := by
    rintro j rfl
    have hcast : (m : Rat) = n * 2 ^ j := by
      rw [← hn, mul_assoc, ← unit_natCast, ← unit_add, neg_add_cancel]
      simp [unit]
    exact_mod_cast hcast
  have hneg : q < 0 := by
    by_contra hq
    have hunit : 1 ≤ unit q := by simpa [unit] using unit_le_unit (not_lt.1 hq)
    have hmul : (m : Rat) ≤ n := hn ▸ le_mul_of_one_le_right (Nat.cast_nonneg m) hunit
    have hcast : m ≤ n := by exact_mod_cast hmul
    omega
  obtain ⟨j, hj⟩ : ∃ j : Nat, q = -j := ⟨q.natAbs, by omega⟩
  have hm := hnat hj
  have hthirteen : 13 ≤ j := by
    by_contra hshort
    have hpow : 2 ^ j ≤ 2 ^ 12 := Nat.pow_le_pow_right (by decide) (by omega)
    have hmul := Nat.mul_le_mul hle hpow
    omega
  obtain ⟨i, rfl⟩ := Nat.exists_eq_add_of_le hthirteen
  rw [pow_add, mul_left_comm] at hm
  unfold Lossy
  -- the bound itself is even, so that its product ends in a zero more
  cases i with
  | zero => omega
  | succ i =>
    rw [pow_succ 2 i, ← mul_assoc n] at hm
    omega

end Scaled

/-- The significand of a finite double. -/
def significand (x : Float) : Nat :=
  match x.toModel.unpack with
  | .finite _ m _ _ => m
  | _ => 0

theorem significand_eq {x : Float} {s : Float.Model.UnpackedFloat.Sign} {m : Nat} {q : Int}
    (h : x.toModel.unpack = assemble s m q) : significand x = m := by
  unfold significand
  rw [h]
  rcases Nat.eq_zero_or_pos m with rfl | hm
  · rfl
  · rw [assemble_pos s q hm]

end Double

namespace Script

open Double

variable {x : Float} {n : Int}

/-! ## Scaling and dividing -/

/-- The magnitude of a whole double, which is zero or has a long significand. -/
theorem exists_whole (hx : x.isFinite = true) (hn : value x = n) : ∃ s m q, Canonical m q ∧
    x.toModel.unpack = assemble s m q ∧ m * unit q = (n.natAbs : Rat) ∧ (0 < m → 2 ^ 52 ≤ m) := by
  obtain ⟨s, m, q, h, -, hux⟩ := exists_assemble hx
  have hmagnitude : m * unit q = (n.natAbs : Rat) := by
    rw [← abs_factor_mul s, ← unpackedValue_assemble, ← hux, ← value, hn, Nat.cast_natAbs, Int.cast_abs]
  refine ⟨s, m, q, h, hux, hmagnitude, fun hm => h.long_of_one_le ?_⟩
  have hpos := magnitude_pos hm q
  rw [hmagnitude] at hpos ⊢
  exact_mod_cast hpos

/-- Whether a whole double is lost between its scaling and the division. If scaling it overflows, it is not scaled. -/
def Drifts (x : Float) : Prop := (x * Scalar.tenTo places).isFinite = true ∧ Lossy (significand x)

instance : DecidablePred Drifts := fun _ => inferInstanceAs (Decidable (_ ∧ _))

/-- Of a whole double only the product and the quotient are rounded. -/
theorem rounded_roundsEven (hx : x.isFinite = true) (hn : value x = n)
    (hscaled : (x * Scalar.tenTo places).isFinite = true) :
    RoundsEven (value (x * Scalar.tenTo places) / 1000000) (rounded x) := by
  obtain ⟨hten, hvten⟩ := value_tenTo_places
  have hround : (Double.round (x * Scalar.tenTo places)).isFinite = true := isFinite_roundWith hscaled _
  have hproduct := (mul_rounds hx hten).nearest hscaled
  have hwhole : value x * value (Scalar.tenTo places) = ((n * 1000000 : Int) : Rat) := by
    rw [hn, hvten]
    push_cast
    rfl
  rw [hwhole] at hproduct
  obtain ⟨k, hk⟩ := hproduct.exists_int
  have hkept : value (Double.round (x * Scalar.tenTo places)) = value (x * Scalar.tenTo places) := by
    rw [value_round hscaled, hk]
    exact Rational.round_eq_of_near (by norm_num)
  have hquotient := div_roundsEven hround hten (by rw [hvten]; norm_num)
  rw [hkept, hvten] at hquotient
  have hrounded : rounded x = Double.round (x * Scalar.tenTo places) / Scalar.tenTo places := if_pos hscaled
  rwa [hrounded]

/-- **A whole double that does not drift is kept, and no other.** -/
theorem value_rounded_iff (hx : x.isFinite = true) (hn : value x = n) :
    value (rounded x) = value x ↔ ¬ Drifts x := by
  obtain ⟨s, m, q, h, hux, -, hlong⟩ := exists_whole hx hn
  have hvalue : value x = factor s * (m * unit q) := by rw [value, hux, unpackedValue_assemble]
  obtain ⟨hten, hvten⟩ := value_tenTo_places
  unfold Drifts
  rw [significand_eq hux]
  by_cases hscaled : (x * Scalar.tenTo places).isFinite = true
  · have hquotient := rounded_roundsEven hx hn hscaled
    have hfinite := isFinite_rounded hx
    -- both steps keep the sign, so that they can be followed on magnitudes
    obtain ⟨w, hw, hproduct⟩ : ∃ w, value (x * Scalar.tenTo places) = factor s * w ∧
        Nearest (m * unit q * 1000000) w := by
      have hnearest := ((mul_rounds hx hten).nearest hscaled).factor_mul s
      rw [hvten, hvalue, mul_assoc, factor_mul_self] at hnearest
      exact ⟨_, (factor_mul_self s _).symm, hnearest⟩
    have hpositive : 0 ≤ w := hproduct.le_of_le .zero (by have hunit := unit_pos q; positivity)
    rw [hw, mul_div_assoc] at hquotient
    rcases Nat.eq_zero_or_pos m with rfl | hm
    · have hzero : w = 0 := by simpa using hproduct.eq_self (by simpa using Representable.zero)
      rw [hzero, zero_div, mul_zero] at hquotient
      have hkept : value (rounded x) = 0 := (hquotient.roundsTo.nearest hfinite).eq_self .zero
      simp [hkept, hvalue, Lossy]
    · rw [hvalue, hquotient.value_eq_iff hfinite (by positivity) h hm, holds_scaled_iff h (hlong hm) hproduct]
      simp [hscaled]
  · have hkept : rounded x = x := if_neg hscaled
    simp [hkept, hscaled]

/-- Up to the bound no whole double drifts. -/
theorem not_drifts_of_le (hx : x.isFinite = true) (hn : value x = n) (hle : |n| ≤ 576460752304) : ¬ Drifts x := by
  obtain ⟨s, m, q, h, hux, hmagnitude, hlong⟩ := exists_whole hx hn
  rintro ⟨-, hlossy⟩
  rw [significand_eq hux] at hlossy
  have hpos : 0 < m := by
    unfold Lossy at hlossy
    omega
  rw [Int.abs_eq_natAbs] at hle
  exact not_lossy_of_le h (hlong hpos) hmagnitude (by omega) hlossy

/-! ## The text of a whole measure -/

/-- A measure is read back as itself if nothing is rounded off, and only then. -/
theorem float?_number_iff (hx : x.isFinite = true) :
    (∃ y, Decimal.float? (number x) = some y ∧ (y == x) = true) ↔ value (rounded x) = value x := by
  obtain ⟨y, hread, hy, hvalue⟩ := float?_number hx
  rw [← hvalue, ← beq_iff hy hx]
  constructor
  · rintro ⟨z, hz, heq⟩
    rw [hread] at hz
    obtain rfl := Option.some.inj hz
    exact heq
  · exact fun heq => ⟨y, hread, heq⟩

/-- What is rounded to a whole number is written without a fraction. -/
theorem no_point (hx : x.isFinite = true) (hn : value (rounded x) = n) : '.' ∉ (number x).toList := by
  obtain ⟨s, m, q, h, hq, hrounded, hzero, hpositive⟩ := exists_text hx
  rcases Nat.eq_zero_or_pos m with hm | hm
  · rw [hzero hm]
    decide
  · obtain ⟨whole, fraction, hmeasure, -, hwhole, htext⟩ := hpositive hm
    have hmagnitude : (m * unit q : Rat) = (n.natAbs : Nat) := by
      rw [← abs_factor_mul s, ← value_packed s h hq, ← hrounded, hn, Nat.cast_natAbs, Int.cast_abs]
    have hnone := hwhole ⟨n.natAbs, hmagnitude ▸ Holds.self m q⟩
    have hdigits : '.' ∉ whole := fun hmem => absurd (hmeasure.digits _ hmem) (by decide)
    rw [htext, hnone]
    cases isNegative s <;> simpa [Json.signText, Json.numeral] using hdigits

/-- **Whole measures print as themselves** unless they drift, which none does up to 576460752304. -/
theorem number_of_whole (hx : x.isFinite = true) (hn : value x = n) :
    (('.' ∉ (number x).toList ∧ ∃ y, Decimal.float? (number x) = some y ∧ (y == x) = true) ↔ ¬ Drifts x) ∧
    (|n| ≤ 576460752304 → ¬ Drifts x) := by
  refine ⟨?_, not_drifts_of_le hx hn⟩
  rw [float?_number_iff hx, ← value_rounded_iff hx hn]
  exact ⟨fun h => h.2, fun hkept => ⟨no_point hx (hkept.trans hn), hkept⟩⟩

/-- The bound prints as itself. -/
theorem number_of_whole_bound : (576460752304 : Float).isFinite = true ∧ value 576460752304 = (576460752304 : Int) ∧
    '.' ∉ (number 576460752304).toList ∧
    ∃ y, Decimal.float? (number 576460752304) = some y ∧ (y == 576460752304) = true := by
  have hx : (576460752304 : Float).isFinite = true := by decide +kernel
  have hn : value 576460752304 = (576460752304 : Int) := by decide +kernel
  have h := number_of_whole hx hn
  exact ⟨hx, hn, h.1.2 (h.2 (by decide))⟩

/-- The next whole double prints with a fraction. -/
theorem exists_drift : ¬ ∀ (x : Float) (n : Int), x.isFinite = true → value x = n →
    '.' ∉ (number x).toList ∧ ∃ y, Decimal.float? (number x) = some y ∧ (y == x) = true := by
  intro h
  have htext : number 576460752305 = "576460752304.9999" := by decide +kernel
  have hplain := (h 576460752305 576460752305 (by decide +kernel) (by decide +kernel)).1
  rw [htext] at hplain
  exact hplain (by decide)

/-- Where doubles have no fraction, another whole number is printed. -/
example : number 4722474569260711 = "4722474569260710" := by decide +kernel

end Script

end SolidScript
