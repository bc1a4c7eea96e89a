import SolidScript.Decimal.Read
import SolidScript.Text.Basic
import SolidScript.Proofs.Json.Number

/-!
# Numbers in strings

A numeral can be read without the grammar of JSON as well: as the double of its parts (`float?_numeral`). For the text
of a number that is the number itself as a double (`float?_write`), since the one integer that is written as it is
not held, a zero with a minus, is a double already. Such a text has no blanks to trim.
-/

namespace SolidScript.Json

open Decimal.Digits

/-! ## Numerals as decimals -/

/-- The double that the parts of a number stand for. -/
def partsDouble (negative : Bool) (whole : List Char) (fraction : Option (List Char)) (exponent : Option Int) : Float :=
  let x := Decimal.ofDigits whole (fraction.getD []) (exponent.getD 0)
  if negative then -x else x

theorem exponent?_decimal (exponent : Option Int) :
    Decimal.exponent? ((exponent.map exponentText).getD []) = some (exponent.getD 0) := by
  cases exponent with
  | none => rfl
  | some e =>
    have hfilled : (Nat.toDigits 10 e.natAbs).isEmpty = false := List.isEmpty_eq_false_iff.2 Nat.toDigits_ne_nil
    have hdigits : (Nat.toDigits 10 e.natAbs).all Char.isDigit = true := List.all_eq_true.2 (isDigit_toDigits _)
    by_cases he : e < 0
    · simp [exponentText, he, Decimal.exponent?, Decimal.splitSign, hfilled, hdigits, value_toDigits]
      rw [abs_of_neg he, neg_neg]
    · have hvalue : ((e.natAbs : Nat) : Int) = e := by omega
      simp [exponentText, he, Decimal.exponent?, Decimal.splitSign, hfilled, hdigits, value_toDigits, hvalue]

theorem decimal_magnitude?_numeral {whole : List Char} {fraction : Option (List Char)} (h : Grammatical whole fraction)
    (exponent : Option Int) : Decimal.magnitude? (numeral whole fraction exponent) =
      some (Decimal.ofDigits whole (fraction.getD []) (exponent.getD 0)) := by
  have hbehind : ∀ fraction, ∀ c ∈ ((Option.map (fun ds => '.' :: ds) fraction).getD [] ++
      (exponent.map exponentText).getD []).head?, c.isDigit = false := by
    intro fraction
    have hended : Ended [] := nofun
    have hhead := head_behind fraction exponent hended
    rwa [List.append_nil] at hhead
  have hwhole := split_append h.digits (hbehind fraction)
  have hfilled : whole.isEmpty = false := List.isEmpty_eq_false_iff.2 h.filled
  have hexponent := exponent?_decimal exponent
  rw [numeral]
  unfold Decimal.magnitude?
  simp only [hwhole]
  cases fraction with
  | some ds =>
    have hfraction := split_append (h.behind ds rfl).2 (hbehind none)
    simp only [Option.map_none, Option.getD_none, List.nil_append] at hfraction
    simp [hfraction, hfilled, hexponent]
  | none =>
    cases exponent with
    | none => simp [hfilled, Decimal.exponent?]
    | some e =>
      have hmarked : exponentText e = 'e' :: (exponentText e).tail := rfl
      simp only [Option.map_none, Option.map_some, Option.getD_none, Option.getD_some, List.nil_append]
        at hexponent ⊢
      rw [hmarked] at hexponent ⊢
      simp [hfilled, hexponent]

/-- Digits have no case. -/
theorem toLower_digit {c : Char} (hc : c.isDigit = true) : c.toLower = c := by
  have hupper : ¬c.isUpper = true := by
    simp only [Char.isDigit, Char.isUpper, decide_eq_true_eq, Bool.and_eq_true] at hc ⊢
    grind
  exact Char.toLower_eq_of_not_isUpper hupper

/-- What begins with a digit is no number in words. -/
theorem word?_of_digit {c : Char} (hc : c.isDigit = true) (tail : List Char) : Decimal.word? (c :: tail) = none := by
  have hword : ∀ (first : Char) (rest : List Char), first.isDigit = false →
      String.ofList ((c :: tail).map Char.toLower) ≠ String.ofList (first :: rest) := by
    intro first rest hfirst heq
    have hhead := (List.cons.inj (String.ofList_injective heq)).1
    rw [toLower_digit hc] at hhead
    exact ne_of_class hc hfirst hhead
  rw [Decimal.word?, if_neg (not_or.2 ⟨hword 'i' ['n', 'f'] rfl, hword 'i' ['n', 'f', 'i', 'n', 'i', 't', 'y'] rfl⟩),
    if_neg (hword 'n' ['a', 'n'] rfl)]

/-- A numeral behind a sign is read as the double of its parts. -/
theorem float?_numeral {whole : List Char} {fraction : Option (List Char)} (h : Grammatical whole fraction)
    (exponent : Option Int) (negative : Bool) {text : String}
    (htext : text.toList = signText negative ++ numeral whole fraction exponent) :
    Decimal.float? text = some (partsDouble negative whole fraction exponent) := by
  have hmagnitude := decimal_magnitude?_numeral h exponent
  obtain ⟨c, tail, hwhole⟩ := List.exists_cons_of_ne_nil h.filled
  have hc : c.isDigit = true := h.digits c (by rw [hwhole]; exact List.mem_cons_self)
  obtain ⟨behind, hnumeral⟩ : ∃ behind, numeral whole fraction exponent = c :: behind :=
    ⟨_, by rw [numeral, hwhole]; rfl⟩
  rw [hnumeral] at hmagnitude htext
  unfold Decimal.float?
  rw [htext, splitSign_signText hc]
  simp only [word?_of_digit hc, hmagnitude]
  rfl

/-! ## Texts of numbers -/

/-- A whole number is the same double whether it is held as an integer or not. -/
theorem toDouble_wholeNumber (negative : Bool) (n : Nat) :
    (wholeNumber negative n).toDouble = if negative then -Float.ofNat n else Float.ofNat n := by
  unfold wholeNumber
  cases negative with
  | false =>
    have hdouble : doubleOfInt n = Float.ofNat n := by rw [doubleOfInt, if_neg (by omega), Int.natAbs_natCast]
    simp only [Bool.false_eq_true, if_false]
    split <;> exact hdouble
  | true =>
    simp only [if_true]
    split
    · next hzero =>
      rw [hzero]
      decide +kernel
    · next hpos =>
      have hdouble : doubleOfInt (-(n : Int)) = -Float.ofNat n := by
        rw [doubleOfInt, if_pos (by omega), Int.natAbs_neg, Int.natAbs_natCast]
      split <;> exact hdouble

theorem toDouble_ofParts (negative : Bool) (whole : List Char) (fraction : Option (List Char)) (exponent : Option Int) :
    (ofParts negative whole fraction exponent).toDouble = partsDouble negative whole fraction exponent := by
  by_cases hmarked : fraction ≠ none ∨ exponent ≠ none
  · rw [ofParts_marked hmarked]
    rfl
  · obtain ⟨rfl, rfl⟩ : fraction = none ∧ exponent = none := by simpa using hmarked
    have hcount : Decimal.ofDigits whole [] 0 = Float.ofNat (value whole) := by
      rw [Decimal.ofDigits, List.append_nil]
      rfl
    have hparts : partsDouble negative whole none none =
        if negative then -Decimal.ofDigits whole [] 0 else Decimal.ofDigits whole [] 0 := rfl
    rw [hparts, hcount]
    exact toDouble_wholeNumber negative (value whole)

theorem ofNumber_eq_number {m n : Number} (h : ofNumber m = .number n) : m = n := by
  cases m with
  | integer i => exact Json.number.inj h
  | double x =>
    rw [ofNumber] at h
    split at h
    · exact Json.number.inj h
    · cases h

/-- **The text of a number is read as the number.** -/
theorem float?_write {n : Number} (hn : n.Exact) : Decimal.float? n.write = some n.toDouble := by
  obtain ⟨negative, whole, fraction, exponent, h, htext, hvalue⟩ := n.exists_text hn
  rw [float?_numeral h exponent negative htext, ← toDouble_ofParts, ofNumber_eq_number hvalue]

theorem isBlank_of_digit {c : Char} (h : c.isDigit = true) : Text.isBlank c = false := by
  obtain ⟨hlow, hhigh⟩ := Char.isDigit_iff_toNat.1 h
  have hzero : '0'.toNat = 48 := rfl
  have hnine : '9'.toNat = 57 := rfl
  simp [Text.isBlank]
  omega

theorem isBlank_of_mem_numeral {whole : List Char} {fraction : Option (List Char)} (h : Grammatical whole fraction)
    (exponent : Option Int) (negative : Bool) :
    ∀ c ∈ signText negative ++ numeral whole fraction exponent, Text.isBlank c = false := by
  have hsign : ∀ c ∈ signText negative, Text.isBlank c = false := by
    cases negative <;> simp [signText, Text.isBlank]
  have hwhole : ∀ c ∈ whole, Text.isBlank c = false := fun c hc => isBlank_of_digit (h.digits c hc)
  have hfraction : ∀ c ∈ (fraction.map fun ds => '.' :: ds).getD [], Text.isBlank c = false := by
    cases fraction with
    | none => exact List.forall_mem_nil _
    | some ds => exact List.forall_mem_cons.2 ⟨rfl, fun c hc => isBlank_of_digit ((h.behind ds rfl).2 c hc)⟩
  have hexponent : ∀ c ∈ (exponent.map exponentText).getD [], Text.isBlank c = false := by
    cases exponent with
    | none => exact List.forall_mem_nil _
    | some e =>
      have hdigits : ∀ c ∈ Nat.toDigits 10 e.natAbs, Text.isBlank c = false :=
        fun c hc => isBlank_of_digit (isDigit_toDigits _ c hc)
      have hsigned : Text.isBlank (if e < 0 then '-' else '+') = false := by split <;> rfl
      exact List.forall_mem_cons.2 ⟨rfl, List.forall_mem_cons.2 ⟨hsigned, hdigits⟩⟩
  have hbehind := List.forall_mem_append.2 ⟨hfraction, hexponent⟩
  exact List.forall_mem_append.2 ⟨hsign, List.forall_mem_append.2 ⟨hwhole, hbehind⟩⟩

/-- The text of a number has no blanks. -/
theorem trim_write {n : Number} (hn : n.Exact) : Text.trim n.write = n.write := by
  obtain ⟨negative, whole, fraction, exponent, h, htext, -⟩ := n.exists_text hn
  refine Text.trim_of_not_blank ?_
  rw [htext]
  exact isBlank_of_mem_numeral h exponent negative

end SolidScript.Json
