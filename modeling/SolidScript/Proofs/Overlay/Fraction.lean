import Mathlib.Data.Nat.Cast.Field
import Mathlib.Data.Rat.Cast.Order
import Mathlib.Logic.Function.Iterate
import Mathlib.Tactic.Linarith
import Mathlib.Tactic.Positivity
import Mathlib.Tactic.Ring
import SolidScript.Overlay.Length
import SolidScript.Proofs.Scalar.Order

/-!
# Mixed fractions

In exact arithmetic, the text of a length as a mixed fraction means the length, rounded to the nearest step.

* `exists_turns`: the turns of Euclid's algorithm come to an end, with the greatest common divisor
  (`commonDivisor_eq_gcd`).
* `steps_eq`, `steps_spec`: the steps of a length are its nearest number of steps; a half goes away from zero.
* `mixedNumber_eq`: a number of steps is written as a mixed number in lowest terms (`isReduced_mixed`) of the same
  value (`value_mixed`).
-/

namespace SolidScript.Length

/-! ## Common divisors -/

/-- One turn of Euclid's algorithm. -/
def turn (p : Nat × Nat) : Nat × Nat := (p.2, p.1 % p.2)

@[simp] theorem commonDivisor_zero (a : Nat) : commonDivisor a 0 = a := by
  rw [commonDivisor, if_pos rfl]

theorem commonDivisor_of_ne_zero (a : Nat) {b : Nat} (hb : b ≠ 0) : commonDivisor a b = commonDivisor b (a % b) := by
  rw [commonDivisor, if_neg hb]

/-- As long as the second count is not zero there is one more turn. The last one leaves the common divisor. -/
theorem exists_turns (a b : Nat) :
    ∃ n ≤ b, turn^[n] (a, b) = (commonDivisor a b, 0) ∧ ∀ i < n, (turn^[i] (a, b)).2 ≠ 0 := by
  induction a, b using commonDivisor.induct with
  | case1 a =>
    refine ⟨0, le_rfl, ?_, fun i hi => absurd hi (Nat.not_lt_zero i)⟩
    rw [commonDivisor_zero, Function.iterate_zero_apply]
  | case2 a b hb ih =>
    obtain ⟨n, hn, hlast, hbefore⟩ := ih
    have hlt := Nat.mod_lt a (Nat.pos_of_ne_zero hb)
    have hturn : turn (a, b) = (b, a % b) := rfl
    refine ⟨n + 1, by omega, ?_, ?_⟩
    · rw [Function.iterate_succ_apply, hturn, hlast, commonDivisor_of_ne_zero a hb]
    · intro i hi
      cases i with
      | zero => exact hb
      | succ i =>
        rw [Function.iterate_succ_apply, hturn]
        exact hbefore i (by omega)

theorem commonDivisor_eq_gcd (a b : Nat) : commonDivisor a b = Nat.gcd a b := by
  induction a, b using commonDivisor.induct with
  | case1 a => rw [commonDivisor_zero, Nat.gcd_zero_right]
  | case2 a b hb ih => rw [commonDivisor_of_ne_zero a hb, ih, Nat.gcd_comm, ← Nat.gcd_rec, Nat.gcd_comm]

/-! ## Steps -/

/-- The steps of a length are its rounded number of steps. -/
theorem steps_eq (x : Rat) (d : UInt32) : (steps x d : Rat) = Rational.round (|x| * d.toNat) := by
  have hnonneg : 0 ≤ |x| * d.toNat := by positivity
  have hround : Rational.round (|x| * d.toNat) = ((|x| * d.toNat + 1 / 2).floor : Rat) := if_neg (not_lt.2 hnonneg)
  have hsteps : steps x d = (|x| * d.toNat + 1 / 2).floor.toNat := by
    rw [steps, Rational.abs_eq]
    show (Rational.round (|x| * d.toNat)).floor.toNat = _
    rw [hround, Rat.floor_intCast]
  have hfloor : 0 ≤ (|x| * d.toNat + 1 / 2).floor := Rat.le_floor_iff.2 (by push_cast; linarith)
  rw [hround, hsteps]
  exact_mod_cast Int.toNat_of_nonneg hfloor

/-- The steps of a length are nearest to it, and a half goes away from zero. -/
theorem steps_spec (x : Rat) (d : UInt32) :
    (steps x d : Rat) - 1 / 2 ≤ |x| * d.toNat ∧ |x| * d.toNat < steps x d + 1 / 2 := by
  have hnonneg : 0 ≤ |x| * d.toNat := by positivity
  have hsteps : (steps x d : Rat) = ((|x| * d.toNat + 1 / 2).floor : Rat) := by
    rw [steps_eq]
    exact if_neg (not_lt.2 hnonneg)
  have hle := Rat.floor_le (|x| * d.toNat + 1 / 2)
  have hlt : |x| * d.toNat + 1 / 2 - 1 < ((|x| * d.toNat + 1 / 2).floor : Rat) := Rat.lt_floor
  rw [hsteps]
  constructor <;> linarith

/-! ## Mixed numbers -/

/-- A whole part and a fraction, which may be missing. -/
structure Mixed where
  whole : Nat
  fraction : Option (Nat × Nat)

namespace Mixed

/-- The sum of both parts. -/
def value (m : Mixed) : Rat := m.whole + m.fraction.elim 0 fun f => (f.1 : Rat) / f.2

/-- The parts with a space between them. A whole part of zero is left out. -/
def text (m : Mixed) : String :=
  " ".intercalate ((if m.whole = 0 then [] else [toString m.whole]) ++
    m.fraction.toList.map fun f => toString f.1 ++ "/" ++ toString f.2)

theorem text_whole {w : Nat} (hw : w ≠ 0) : (⟨w, none⟩ : Mixed).text = toString w := by
  simp [text, hw]

theorem text_fraction (f : Nat × Nat) : (⟨0, some f⟩ : Mixed).text = toString f.1 ++ "/" ++ toString f.2 := by
  simp [text]

theorem text_both {w : Nat} (hw : w ≠ 0) (f : Nat × Nat) :
    (⟨w, some f⟩ : Mixed).text = toString w ++ " " ++ (toString f.1 ++ "/" ++ toString f.2) := by
  simp [text, hw]

/-- The fraction is a proper one in lowest terms, and its denominator divides `d`. -/
def IsReduced (m : Mixed) (d : Nat) : Prop :=
  ∀ f ∈ m.fraction, 0 < f.1 ∧ f.1 < f.2 ∧ Nat.gcd f.1 f.2 = 1 ∧ f.2 ∣ d

end Mixed

/-- The number `k / d` as a mixed number. -/
def mixed (k d : Nat) : Mixed :=
  ⟨k / d, if k % d = 0 then none else some (k % d / Nat.gcd (k % d) d, d / Nat.gcd (k % d) d)⟩

section Mixed

variable {k d : Nat}

theorem isReduced_mixed (hd : 0 < d) : (mixed k d).IsReduced d := by
  intro f hf
  by_cases hrest : k % d = 0
  · simp [mixed, hrest] at hf
  · simp only [mixed, if_neg hrest, Option.mem_some_iff] at hf
    subst hf
    have hpos := Nat.pos_of_ne_zero hrest
    have hgcd := Nat.gcd_pos_of_pos_right (k % d) hd
    refine ⟨Nat.div_pos (Nat.gcd_le_left d hpos) hgcd, ?_, Nat.coprime_div_gcd_div_gcd hgcd,
      Nat.div_dvd_of_dvd (Nat.gcd_dvd_right _ _)⟩
    exact Nat.div_lt_div_of_lt_of_dvd (Nat.gcd_dvd_right _ _) (Nat.mod_lt k hd)

/-- Both parts together are what was divided. -/
theorem value_mixed (hd : 0 < d) : (mixed k d).value = k / d := by
  have hd0 : (d : Rat) ≠ 0 := by exact_mod_cast hd.ne'
  have hsum : ((k / d : Nat) : Rat) + (k % d : Nat) / d = k / d := by
    have hcast : (k : Rat) = d * (k / d : Nat) + (k % d : Nat) := by exact_mod_cast (Nat.div_add_mod k d).symm
    rw [eq_div_iff hd0, add_mul, div_mul_cancel₀ _ hd0, hcast]
    ring
  rw [← hsum, Mixed.value, mixed]
  congr 1
  by_cases hrest : k % d = 0
  · rw [if_pos hrest, Option.elim_none, hrest, Nat.cast_zero, zero_div]
  · have hgcd : ((Nat.gcd (k % d) d : Nat) : Rat) ≠ 0 := by
      exact_mod_cast (Nat.gcd_pos_of_pos_right (k % d) hd).ne'
    rw [if_neg hrest, Option.elim_some, Nat.cast_div (Nat.gcd_dvd_left _ _) hgcd,
      Nat.cast_div (Nat.gcd_dvd_right _ _) hgcd, div_div_div_cancel_right₀ hgcd]

theorem write_eq_toString (n : Nat) : Decimal.Digits.write n = toString n := rfl

/-- A number of steps other than zero is written as a mixed number. -/
theorem mixedNumber_eq (negative : Bool) (hk : k ≠ 0) :
    mixedNumber negative k d = (if negative then "-" else "") ++ (mixed k d).text := by
  simp only [mixedNumber, commonDivisor_eq_gcd, write_eq_toString]
  by_cases hrest : k % d = 0
  · have hmixed : mixed k d = ⟨k / d, none⟩ := by rw [mixed, if_pos hrest]
    have hwhole : k / d ≠ 0 := by
      intro hzero
      have hsum := Nat.div_add_mod k d
      rw [hzero, hrest, Nat.mul_zero] at hsum
      exact hk hsum.symm
    rw [hmixed, Mixed.text_whole hwhole, if_pos hrest, if_neg hwhole]
  · have hmixed : mixed k d = ⟨k / d, some (k % d / Nat.gcd (k % d) d, d / Nat.gcd (k % d) d)⟩ := by
      rw [mixed, if_neg hrest]
    rw [hmixed, if_neg hrest]
    by_cases hwhole : k / d = 0
    · rw [if_pos hwhole, hwhole, Mixed.text_fraction]
    · rw [if_neg hwhole, Mixed.text_both hwhole]
      simp only [String.append_assoc]

end Mixed

/-- **A length is written as a mixed fraction exactly.** Let `k` be the number of steps of `1/d` nearest to the length,
where a half goes away from zero. If it is zero the text is a zero. Otherwise it is the sign of the length and a mixed
number in lowest terms whose value is `k/d`. Euclid's algorithm comes to an end for all counts, and what it divides by
here is not zero. Counts have 64 bits up to half a step below `2 ^ 64`. -/
theorem mixedFraction_exact (x : Rat) {d : UInt32} (hd : d ≠ 0) :
    ∃ k : Nat, ((k : Rat) - 1 / 2 ≤ |x| * d.toNat ∧ |x| * d.toNat < k + 1 / 2) ∧
      (k = 0 → mixedFraction x d = "0") ∧
      (k ≠ 0 → ∃ m : Mixed, mixedFraction x d = (if x < 0 then "-" else "") ++ m.text ∧
        m.value = k / d.toNat ∧ m.IsReduced d.toNat) ∧
      (|x| * d.toNat < 2 ^ 64 - 1 / 2 → k < 2 ^ 64) ∧
      commonDivisor (k % d.toNat) d.toNat ≠ 0 ∧
      ∀ a b, ∃ n ≤ b, turn^[n] (a, b) = (commonDivisor a b, 0) ∧ ∀ i < n, (turn^[i] (a, b)).2 ≠ 0 := by
  have hpos : 0 < d.toNat := Nat.pos_of_ne_zero fun hzero => hd (UInt32.toNat_inj.1 hzero)
  obtain ⟨hlow, hhigh⟩ := steps_spec x d
  refine ⟨steps x d, ⟨hlow, hhigh⟩, fun hk => ?_, fun hk => ?_, fun hbound => ?_, ?_, exists_turns⟩
  · rw [mixedFraction, hk]
    simp [mixedNumber]
  · refine ⟨mixed (steps x d) d.toNat, ?_, value_mixed hpos, isReduced_mixed hpos⟩
    rw [mixedFraction, mixedNumber_eq _ hk]
    simp only [decide_eq_true_eq]
  · have hcast : (steps x d : Rat) < 2 ^ 64 := by linarith
    exact_mod_cast hcast
  · rw [commonDivisor_eq_gcd]
    exact (Nat.gcd_pos_of_pos_right _ hpos).ne'

/-- A half step below zero that is carried into the whole part. -/
theorem mixedFraction_exact_carry : (32 : UInt32) ≠ 0 ∧
    ∃ k : Nat, ((k : Rat) - 1 / 2 ≤ |(-127 / 64 : Rat)| * (32 : UInt32).toNat ∧
        |(-127 / 64 : Rat)| * (32 : UInt32).toNat < k + 1 / 2) ∧
      (k ≠ 0 → ∃ m : Mixed, mixedFraction (-127 / 64 : Rat) 32 = (if (-127 / 64 : Rat) < 0 then "-" else "") ++ m.text ∧
        m.value = k / (32 : UInt32).toNat ∧ m.IsReduced (32 : UInt32).toNat) := by
  have hd : (32 : UInt32) ≠ 0 := by decide
  obtain ⟨k, hnearest, -, htext, -⟩ := mixedFraction_exact (-127 / 64) hd
  exact ⟨hd, k, hnearest, htext⟩

example : mixedFraction (-127 / 64 : Rat) 32 = "-2" ∧ mixedFraction (-45 / 32 : Rat) 32 = "-1 13/32" := by
  decide +kernel

end SolidScript.Length
