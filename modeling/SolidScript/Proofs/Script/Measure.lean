import SolidScript.Proofs.Decimal.Places
import SolidScript.Proofs.Json.Decimal
import SolidScript.Proofs.Overlay.Exact
import SolidScript.Proofs.Script.Numeral

/-!
# The grammar of measures

A measure is written as a zero, or as a decimal behind a sign: no zero in front of other digits, no exponent, and behind
the point, if there is one, at most six digits that do not end in a zero (`IsMeasure`). What is rounded to the places of
a script is the double of a decimal of six places, or so large that it is whole (`exists_rounded`); its shortest decimal
has no more places (`Decimal.shortest_places`), and is laid out by the grammar (`exists_measure`).

* `number_grammar`: so every double is written.
* `float?_number`: what is written is read back as the rounded measure.
-/

namespace SolidScript

namespace Decimal.Digits

/-- The last digit of a count. -/
theorem getLast?_toDigits (n : Nat) : (Nat.toDigits 10 n).getLast? = some (Nat.digitChar (n % 10)) := by
  rw [Nat.toDigits_eq_if (by decide)]
  split
  · next hlt => rw [Nat.mod_eq_of_lt hlt]; rfl
  · rw [List.getLast?_concat]

/-- The digits of what is no multiple of ten do not end in a zero. -/
theorem getLast?_toDigits_ne {n : Nat} (h : n % 10 ≠ 0) : (Nat.toDigits 10 n).getLast? ≠ some '0' := by
  have hdigits : ∀ d < 10, d ≠ 0 → Nat.digitChar d ≠ '0' := by decide
  rw [getLast?_toDigits]
  simpa using hdigits (n % 10) (Nat.mod_lt n (by decide)) h

end Decimal.Digits

namespace Script

open Decimal.Digits
open Double (unit unit_pos Canonical Holds RoundsEven packed assemble factor value_packed isFinite_packed limit)
open Float.Model.UnpackedFloat (Sign)

/-! ## Decimals -/

/-- The parts of the text of a measure that is not zero: its digits before the point, and those behind it if it has
a point. -/
structure IsMeasure (whole : List Char) (fraction : Option (List Char)) : Prop extends
    Json.Grammatical whole fraction where
  short : ∀ ds ∈ fraction, ds.length ≤ 6
  last : ∀ ds ∈ fraction, ds.getLast? ≠ some '0'
  nonzero : fraction = none → whole ≠ ['0']

/-- The value of the parts of a measure. -/
def partsValue (whole : List Char) (fraction : Option (List Char)) : Rat :=
  value (whole ++ fraction.getD []) * 10 ^ (0 - ((fraction.getD []).length : Int))

/-- A decimal with a few places and no zero at its end is laid out by the grammar of measures. -/
theorem exists_measure {d : Decimal} (hd : 0 < d.coefficient) (hplaces : -6 ≤ d.exponent)
    (hlast : d.exponent < 0 → d.coefficient % 10 ≠ 0) : ∃ whole fraction, IsMeasure whole fraction ∧
      (fraction = none ↔ 0 ≤ d.exponent) ∧ partsValue whole fraction = d.value ∧
      (Decimal.writePositional false d).toList = Json.numeral whole fraction none := by
  have hdigits := isDigit_toDigits d.coefficient
  have hfilled : Nat.toDigits 10 d.coefficient ≠ [] := Nat.toDigits_ne_nil
  have hfront := head_toDigits hd
  have hvalue : d.value = value (Nat.toDigits 10 d.coefficient) * 10 ^ d.exponent := by
    rw [value_toDigits, Decimal.value]
  unfold Decimal.writePositional
  by_cases he : 0 ≤ d.exponent
  · obtain ⟨k, hk⟩ := Int.eq_ofNat_of_zero_le he
    have hwhole := (Json.whole_means hdigits hfilled hfront k).toGrammatical
    refine ⟨_, none, ⟨⟨hwhole.digits, hwhole.filled, hwhole.front, by simp⟩, by simp, by simp, fun _ hzero => ?_⟩,
      iff_of_true rfl he, ?_, ?_⟩
    · refine hfront ?_
      rw [← List.head?_append_of_ne_nil _ hfilled, hzero]
      rfl
    · rw [hvalue, hk, partsValue, Option.getD_none, List.append_nil, value_append_zeros]
      simp
    · rw [if_pos he]
      simp [Json.numeral, hk]
  · obtain ⟨k, hk⟩ : ∃ k : Nat, d.exponent = -k := ⟨d.exponent.natAbs, by omega⟩
    have hend := getLast?_toDigits_ne (hlast (by omega))
    rw [if_neg he]
    simp only [hk, Int.natAbs_neg, Int.natAbs_natCast]
    split
    · next hlt =>
      have hmeans := Json.mixed_means hdigits hfilled hfront (by omega : 0 < k) hlt
      rw [← hk, ← hvalue] at hmeans
      refine ⟨_, _, ⟨hmeans.toGrammatical, ?_, ?_, by simp⟩, iff_of_false (by simp) (by omega), hmeans.meaning, ?_⟩
      · rintro _ ⟨⟩
        rw [List.length_drop]
        omega
      · rintro _ ⟨⟩
        rwa [List.getLast?_drop, if_neg (by omega)]
      · simp [Json.numeral]
    · next hle =>
      have hmeans := Json.small_means hdigits hfilled (k - (Nat.toDigits 10 d.coefficient).length)
      rw [Nat.sub_add_cancel (Nat.le_of_not_lt hle), ← hk, ← hvalue] at hmeans
      refine ⟨_, _, ⟨hmeans.toGrammatical, ?_, ?_, by simp⟩, iff_of_false (by simp) (by omega), hmeans.meaning, ?_⟩
      · rintro _ ⟨⟩
        rw [List.length_append, List.length_replicate]
        omega
      · rintro _ ⟨⟩
        rwa [List.getLast?_append_of_ne_nil _ hfilled]
      · simp [Json.numeral]

/-! ## Rounded measures -/

/-- A double that is too large to be scaled has no places. -/
theorem exponent_nonneg_of_overflow {x : Float} {s : Sign} {m : Nat} {q : Int} (hx : x.isFinite = true)
    (h : Canonical m q) (hux : x.toModel.unpack = assemble s m q)
    (hscaled : ¬ (x * Scalar.tenTo places).isFinite = true) : 0 ≤ q := by
  obtain ⟨hten, hvten⟩ := value_tenTo_places
  have hproduct := Double.mul_roundsEven hx hten
  rw [hvten] at hproduct
  by_contra hneg
  have hmagnitude : |Double.value x| ≤ unit 53 := by
    have hupper : (m : Rat) ≤ 2 ^ 53 := by exact_mod_cast h.upper.le
    have hsmall : unit q ≤ 1 := (Double.unit_le_unit (by omega : q ≤ 0)).trans_eq (by norm_num [unit])
    rw [Double.value, hux, Double.unpackedValue_assemble, Double.abs_factor_mul,
      show unit 53 = 2 ^ 53 * 1 by norm_num [unit]]
    exact mul_le_mul hupper hsmall (unit_pos q).le (by norm_num)
  have hlimit : unit 73 < limit := by
    have hadd := Double.limit_add
    have hdouble : unit 1024 = 2 * unit 1023 := Double.unit_succ 1023
    have hhigh : unit 970 < unit 1023 := Double.unit_lt_unit (by decide)
    have hlow : unit 73 < unit 1023 := Double.unit_lt_unit (by decide)
    linarith
  refine hscaled (hproduct.isFinite_iff.2 (lt_of_le_of_lt ?_ hlimit))
  rw [abs_mul, abs_of_pos (by norm_num : (0 : Rat) < 1000000), show unit 73 = unit 53 * 2 ^ 20 by norm_num [unit]]
  exact mul_le_mul hmagnitude (by norm_num) (by norm_num) (unit_pos 53).le

/-- A finite double is written as a finite one whose magnitude a decimal of six places is rounded to. -/
theorem exists_rounded {x : Float} (hx : x.isFinite = true) : ∃ s m q, Canonical m q ∧ q ≤ 971 ∧
    rounded x = packed (assemble s m q) ∧ (0 < m → ∃ c : Nat, Holds m q (c * 10 ^ (-((6 : Nat) : Int)))) := by
  obtain ⟨hten, hvten⟩ := value_tenTo_places
  unfold rounded
  split
  · next hscaled =>
    -- a count divided by the sixth power of ten
    have hround : (Double.round (x * Scalar.tenTo places)).isFinite = true := Double.isFinite_roundWith hscaled _
    obtain ⟨n, hn⟩ : ∃ n : Int, Double.value (Double.round (x * Scalar.tenTo places)) = n := by
      rw [Double.value_round hscaled]
      exact Rational.exists_round_eq _
    have hquotient := Double.div_roundsEven hround hten (by rw [hvten]; norm_num)
    have hfinite : (Double.round (x * Scalar.tenTo places) / Scalar.tenTo places).isFinite = true :=
      Double.isFinite_div hround hten (by rw [hvten]; norm_num)
    rw [hn, hvten] at hquotient
    obtain ⟨s, m, q, -, hrounded, hresult⟩ := hquotient
    refine ⟨s, m, q, hrounded.canonical, ?_, hresult, fun hm => ⟨n.natAbs, ?_⟩⟩
    · rw [hresult, isFinite_packed s hrounded.canonical] at hfinite
      exact of_decide_eq_true hfinite
    · have hvalue : |(n : Rat) / 1000000| = (n.natAbs : Rat) * 10 ^ (-((6 : Nat) : Int)) := by
        rw [abs_div, abs_of_pos (by norm_num : (0 : Rat) < 1000000), Nat.cast_natAbs, Int.cast_abs]
        norm_num
        ring
      rw [← hvalue]
      exact hrounded.holds hm
  · next hscaled =>
    -- so large a double is whole
    obtain ⟨s, m, q, h, hq, hux⟩ := Double.exists_assemble hx
    refine ⟨s, m, q, h, hq, by rw [← hux, Double.packed_unpack], fun _ => ?_⟩
    exact Decimal.holds_of_nonneg m (exponent_nonneg_of_overflow hx h hux hscaled) 6

/-! ## The text of a measure -/

section Packed

variable (s : Sign) {m : Nat} {q : Int} (h : Canonical m q) (hq : q ≤ 971)
include h hq

theorem packed_beq_zero_iff : (packed (assemble s m q) == 0.0) = true ↔ m = 0 := by
  have hfinite : (packed (assemble s m q)).isFinite = true := by rw [isFinite_packed s h, decide_eq_true hq]
  obtain ⟨hzero, hvzero⟩ : (0.0 : Float).isFinite = true ∧ Double.value 0.0 = 0 := by decide +kernel
  rw [Double.beq_iff hfinite hzero, hvzero, value_packed s h hq]
  constructor
  · intro hvalue
    have habs := Double.abs_factor_mul s m q
    rw [hvalue, abs_zero] at habs
    exact Nat.eq_zero_of_not_pos fun hm => (Double.magnitude_pos hm q).ne habs
  · rintro rfl
    simp

/-- A double that is not zero is written as its shortest decimal behind its sign. -/
theorem toList_write_packed (hm : 0 < m) : (Decimal.plain.write (packed (assemble s m q))).toList =
    Json.signText (Double.isNegative s) ++ (Decimal.writePositional false (Decimal.shortest .up m q)).toList := by
  have hunpack : (packed (assemble s m q)).toModel.unpack = assemble s m q := Double.unpack_pack_assemble s h hq
  have hsign : (if Double.isNegative s then "-" else "").toList = Json.signText (Double.isNegative s) := by
    cases s <;> rfl
  rw [Decimal.Layout.write, hunpack, Double.assemble_pos s q hm]
  simp only [String.toList_append, hsign]
  rfl

end Packed

/-- The text of a finite measure: a zero, or the shortest decimal of its rounded magnitude behind a sign, without
a fraction if a whole number is rounded to that magnitude. -/
theorem exists_text {x : Float} (hx : x.isFinite = true) : ∃ s m q, Canonical m q ∧ q ≤ 971 ∧
    rounded x = packed (assemble s m q) ∧ (m = 0 → number x = "0") ∧
      (0 < m → ∃ whole fraction, IsMeasure whole fraction ∧ Holds m q (partsValue whole fraction) ∧
        ((∃ n : Nat, Holds m q n) → fraction = none) ∧
        (number x).toList = Json.signText (Double.isNegative s) ++ Json.numeral whole fraction none) := by
  obtain ⟨s, m, q, h, hq, hrounded, hplaces⟩ := exists_rounded hx
  have hiszero := packed_beq_zero_iff s h hq
  refine ⟨s, m, q, h, hq, hrounded, fun hm => ?_, fun hm => ?_⟩
  · simp only [number, hx, hrounded, hiszero.2 hm, if_true]
  · obtain ⟨c, hc⟩ := hplaces hm
    obtain ⟨hlow, hlast⟩ := Decimal.shortest_places .up h hm (by decide) hc
    have hheld := Decimal.shortest_holds .up hm q
    obtain ⟨whole, fraction, hmeasure, hnone, hvalue, htext⟩ :=
      exists_measure (Decimal.coefficient_pos hm hheld) hlow hlast
    refine ⟨whole, fraction, hmeasure, hvalue ▸ hheld, fun ⟨n, hn⟩ => hnone.2 ?_, ?_⟩
    · have hplain : Holds m q (n * 10 ^ (-((0 : Nat) : Int))) := by simpa using hn
      simpa using (Decimal.shortest_places .up h hm (Nat.zero_le 6) hplain).1
    have hnonzero : (packed (assemble s m q) == 0.0) = false := Bool.eq_false_iff.2 (mt hiszero.1 hm.ne')
    have hwrite : number x = Decimal.plain.write (packed (assemble s m q)) := by
      simp only [number, hx, hrounded, hnonzero, if_true, Bool.false_eq_true, if_false]
    rw [hwrite, toList_write_packed s h hq hm, htext]

/-- A measure begins with a digit, which is no zero if it stands alone. -/
theorem IsMeasure.exists_head {whole : List Char} {fraction : Option (List Char)} (h : IsMeasure whole fraction) :
    ∃ c rest, Json.numeral whole fraction none = c :: rest ∧ c.isDigit = true ∧ (c = '0' → rest ≠ []) := by
  obtain ⟨c, tail, rfl⟩ := List.exists_cons_of_ne_nil h.filled
  refine ⟨c, _, rfl, h.digits c List.mem_cons_self, ?_⟩
  rintro rfl hrest
  obtain ⟨rfl, hbehind⟩ := List.append_eq_nil_iff.1 hrest
  cases fraction with
  | none => exact h.nonzero rfl rfl
  | some ds => cases hbehind

/-- No measure is empty, a zero with a sign, or a word. -/
theorem IsMeasure.no_word {whole : List Char} {fraction : Option (List Char)} (h : IsMeasure whole fraction)
    {negative : Bool} {text : String}
    (htext : text.toList = Json.signText negative ++ Json.numeral whole fraction none) :
    text ∉ ["-0", "", "inf", "-inf", "NaN"] := by
  obtain ⟨c, rest, hnumeral, hc, hlone⟩ := h.exists_head
  rw [hnumeral] at htext
  intro hmem
  simp only [List.mem_cons, List.not_mem_nil, or_false] at hmem
  cases negative with
  | true =>
    have hback : text.toList = '-' :: c :: rest := htext
    rcases hmem with rfl | rfl | rfl | rfl | rfl <;> cases hback
    · exact hlone rfl rfl
    · exact absurd hc (by decide)
  | false =>
    have hback : text.toList = c :: rest := htext
    rcases hmem with rfl | rfl | rfl | rfl | rfl <;> cases hback <;> exact absurd hc (by decide)

/-- **Measures follow one grammar.** -/
theorem number_grammar (x : Float) :
    (number x = "0" ∨ ∃ negative whole fraction, IsMeasure whole fraction ∧
      (number x).toList = Json.signText negative ++ Json.numeral whole fraction none) ∧
    number x ∉ ["-0", "", "inf", "-inf", "NaN"] ∧ (x.isFinite = false → number x = "0") := by
  have hzero : ∀ {text : String}, text = "0" → text ∉ ["-0", "", "inf", "-inf", "NaN"] := by
    rintro _ rfl
    decide
  cases hx : x.isFinite with
  | false =>
    have htext : number x = "0" := by simp only [number, hx, Bool.false_eq_true, if_false]
    exact ⟨.inl htext, hzero htext, fun _ => htext⟩
  | true =>
    obtain ⟨s, m, q, -, -, -, hnone, hsome⟩ := exists_text hx
    rcases Nat.eq_zero_or_pos m with hm | hm
    · exact ⟨.inl (hnone hm), hzero (hnone hm), nofun⟩
    · obtain ⟨whole, fraction, hmeasure, -, -, htext⟩ := hsome hm
      exact ⟨.inr ⟨_, whole, fraction, hmeasure, htext⟩, hmeasure.no_word htext, nofun⟩

/-- **What is written is read back as the rounded measure.** -/
theorem float?_number {x : Float} (hx : x.isFinite = true) : ∃ y, Decimal.float? (number x) = some y ∧
    y.isFinite = true ∧ Double.value y = Double.value (rounded x) := by
  obtain ⟨s, m, q, h, hq, hrounded, hzero, hpositive⟩ := exists_text hx
  rcases Nat.eq_zero_or_pos m with rfl | hm
  · refine ⟨0, ?_, by decide +kernel, ?_⟩
    · rw [hzero rfl]
      decide +kernel
    · have hvzero : Double.value 0 = 0 := by decide +kernel
      rw [hrounded, value_packed s h hq, hvzero]
      simp
  · obtain ⟨whole, fraction, hmeasure, hheld, -, htext⟩ := hpositive hm
    have hread := Json.float?_numeral hmeasure.toGrammatical none (Double.isNegative s) htext
    have hmagnitude : Decimal.ofDigits whole (fraction.getD []) 0 = packed (assemble .positive m q) :=
      Json.ofDigits_eq_of_holds h hm hq hheld
    have hsigned : Json.partsDouble (Double.isNegative s) whole fraction none = rounded x := by
      rw [hrounded, ← Json.signed_magnitude h hq, ← hmagnitude]
      rfl
    exact ⟨_, hread, hsigned ▸ isFinite_rounded hx, by rw [hsigned]⟩

end Script
end SolidScript
