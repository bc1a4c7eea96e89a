import SolidScript.Json.Read
import SolidScript.Proofs.Decimal.Digits
import SolidScript.Proofs.Decimal.Shortest
import SolidScript.Proofs.Double.Scientific

/-!
# Numbers in JSON

A number is written as a run of digits, then perhaps a fraction, then perhaps an exponent (`numeral`), and is read as
the decimal of these parts (`magnitude?_numeral`). The text of a double is the numeral of its shortest decimal
(`exists_numeral`), which lies in the rounding interval of the double; so a finite double is read back from its text,
and so is every integer that 64 bits hold (`number?_write`).
-/

namespace SolidScript.Json

open Decimal.Digits

/-! ## Numerals -/

/-- The text of an exponent. -/
def exponentText (e : Int) : List Char := 'e' :: (if e < 0 then '-' else '+') :: Nat.toDigits 10 e.natAbs

/-- The text of a number without a sign. -/
def numeral (whole : List Char) (fraction : Option (List Char)) (exponent : Option Int) : List Char :=
  whole ++ ((fraction.map fun ds => '.' :: ds).getD [] ++ (exponent.map exponentText).getD [])

/-- A text that does not go on with a number. -/
def Ended (rest : List Char) : Prop := ∀ c ∈ rest.head?, c.isDigit = false ∧ c ≠ '.' ∧ c ≠ 'e' ∧ c ≠ 'E'

/-- The parts of a number as the grammar wants them. -/
structure Grammatical (whole : List Char) (fraction : Option (List Char)) : Prop where
  digits : ∀ c ∈ whole, c.isDigit = true
  filled : whole ≠ []
  /-- A zero in front stands alone. -/
  front : whole = ['0'] ∨ whole.head? ≠ some '0'
  behind : ∀ ds ∈ fraction, ds ≠ [] ∧ ∀ c ∈ ds, c.isDigit = true

theorem exponent?_exponentText (e : Int) {rest : List Char} (hrest : Ended rest) :
    exponent? (exponentText e ++ rest) = some (some e, rest) := by
  have hsplit : split (Nat.toDigits 10 e.natAbs ++ rest) = (Nat.toDigits 10 e.natAbs, rest) :=
    split_append (isDigit_toDigits _) fun c hc => (hrest c hc).1
  have hfilled : (Nat.toDigits 10 e.natAbs).isEmpty = false := by
    rw [List.isEmpty_eq_false_iff]
    exact Nat.toDigits_ne_nil
  by_cases he : e < 0
  · simp [exponentText, he, exponent?, Decimal.splitSign, hsplit, hfilled, value_toDigits]
    rw [abs_of_neg he, neg_neg]
  · have hvalue : ((e.natAbs : Nat) : Int) = e := by omega
    simp [exponentText, he, exponent?, Decimal.splitSign, hsplit, hfilled, value_toDigits, hvalue]

theorem exponent?_ended {rest : List Char} (hrest : Ended rest) : exponent? rest = some (none, rest) := by
  cases rest with
  | nil => rfl
  | cons c rest =>
    obtain ⟨-, -, he, hE⟩ := hrest c rfl
    simp [exponent?, he, hE]

/-- What is behind the digits of a numeral is no digit. -/
theorem head_behind (fraction : Option (List Char)) (exponent : Option Int) {rest : List Char} (hrest : Ended rest) :
    ∀ c ∈ ((fraction.map fun ds => '.' :: ds).getD [] ++ (exponent.map exponentText).getD [] ++ rest).head?,
      c.isDigit = false := by
  intro c hc
  cases fraction with
  | some ds =>
    obtain rfl : '.' = c := by simpa using hc
    rfl
  | none =>
    cases exponent with
    | some e =>
      obtain rfl : 'e' = c := by simpa [exponentText] using hc
      rfl
    | none => exact (hrest c (by simpa using hc)).1

theorem fraction?_behind {fraction : Option (List Char)}
    (h : ∀ ds ∈ fraction, ds ≠ [] ∧ ∀ c ∈ ds, c.isDigit = true) (exponent : Option Int) {rest : List Char}
    (hrest : Ended rest) :
    fraction? ((fraction.map fun ds => '.' :: ds).getD [] ++ (exponent.map exponentText).getD [] ++ rest) =
      some (fraction, (exponent.map exponentText).getD [] ++ rest) := by
  have hbehind := head_behind none exponent hrest
  cases fraction with
  | some ds =>
    obtain ⟨hfilled, hdigits⟩ := h ds rfl
    have hsplit := split_append hdigits hbehind
    simp only [Option.map_none, Option.getD_none, List.nil_append] at hsplit
    simp [fraction?, hsplit, hfilled]
  | none =>
    cases exponent with
    | some e => rfl
    | none =>
      cases rest with
      | nil => rfl
      | cons c rest =>
        show fraction? (c :: rest) = some (none, c :: rest)
        unfold fraction?
        split
        · next heq => exact absurd (List.cons.inj heq).1 (hrest c rfl).2.1
        · rfl

theorem wholeDigits_append {whole : List Char} {fraction : Option (List Char)} (h : Grammatical whole fraction)
    {behind : List Char} (hbehind : ∀ c ∈ behind.head?, c.isDigit = false) :
    wholeDigits (whole ++ behind) = (whole, behind) := by
  rcases h.front with rfl | hfront
  · rfl
  · unfold wholeDigits
    split
    · next heq =>
      cases whole with
      | nil => exact absurd rfl h.filled
      | cons c rest => exact absurd (congrArg some (List.cons.inj heq).1) hfront
    · exact split_append h.digits hbehind

/-- What the parts of a number mean. -/
def ofParts (negative : Bool) (whole : List Char) : Option (List Char) → Option Int → Number
  | none, none => wholeNumber negative (value whole)
  | fraction, exponent =>
    let x := Decimal.ofDigits whole (fraction.getD []) (exponent.getD 0)
    .double (if negative then -x else x)

/-- A numeral is read as its parts say. -/
theorem magnitude?_numeral {whole : List Char} {fraction : Option (List Char)} (h : Grammatical whole fraction)
    (exponent : Option Int) (negative : Bool) {rest : List Char} (hrest : Ended rest) :
    magnitude? negative (numeral whole fraction exponent ++ rest) =
      some (ofNumber (ofParts negative whole fraction exponent), rest) := by
  have hexponent : exponent? ((exponent.map exponentText).getD [] ++ rest) = some (exponent, rest) := by
    cases exponent with
    | none => exact exponent?_ended hrest
    | some e => exact exponent?_exponentText e hrest
  have hfraction := fraction?_behind h.behind exponent hrest
  have hwhole := wholeDigits_append h (head_behind fraction exponent hrest)
  have hfilled : whole.isEmpty = false := List.isEmpty_eq_false_iff.2 h.filled
  rw [numeral, List.append_assoc]
  unfold magnitude?
  simp only [hwhole, hfilled, hfraction, hexponent, Option.bind_eq_bind, Option.bind_some, Bool.false_eq_true, if_false]
  cases fraction <;> cases exponent <;> rfl

/-! ## The text of a decimal -/

/-- A numeral with a fraction or an exponent whose parts have the value `v`. -/
structure Means (whole : List Char) (fraction : Option (List Char)) (exponent : Option Int) (v : Rat) : Prop
    extends Grammatical whole fraction where
  marked : fraction ≠ none ∨ exponent ≠ none
  meaning : (value (whole ++ fraction.getD []) : Rat) * 10 ^ (exponent.getD 0 - (fraction.getD []).length) = v

section Layouts

variable {ds : List Char} (hdigits : ∀ c ∈ ds, c.isDigit = true) (hfilled : ds ≠ [])
include hdigits hfilled

/-- Digits behind zeros behind a point. -/
theorem small_means (k : Nat) :
    Means ['0'] (some (List.replicate k '0' ++ ds)) none (value ds * 10 ^ (-((k + ds.length : Nat) : Int))) := by
  refine ⟨⟨isDigit_zeros 1, by simp, .inl rfl, ?_⟩, .inl nofun, ?_⟩
  · rintro _ ⟨⟩
    exact ⟨by simp [hfilled], isDigit_append (isDigit_zeros k) hdigits⟩
  · have hvalue : value (['0'] ++ (List.replicate k '0' ++ ds)) = value ds := value_zeros_append (k + 1) ds
    simp only [Option.getD_some, Option.getD_none, hvalue, List.length_append, List.length_replicate, zero_sub]

variable (hfront : ds.head? ≠ some '0')
include hfront

/-- A whole number ends in `.0`. -/
theorem whole_means (k : Nat) : Means (ds ++ List.replicate k '0') (some ['0']) none (value ds * 10 ^ (k : Int)) := by
  refine ⟨⟨isDigit_append hdigits (isDigit_zeros k), by simp [hfilled], .inr ?_, ?_⟩, .inl nofun, ?_⟩
  · cases ds with
    | nil => exact absurd rfl hfilled
    | cons c rest => exact hfront
  · rintro _ ⟨⟩
    exact ⟨by simp, isDigit_zeros 1⟩
  · have hvalue : value (ds ++ List.replicate k '0' ++ ['0']) = value ds * 10 ^ (k + 1) := by
      rw [List.append_assoc, ← List.replicate_succ', value_append_zeros]
    simp only [Option.getD_some, Option.getD_none, hvalue]
    push_cast
    rw [pow_succ]
    simp
    ring

/-- Digits with a point among them. -/
theorem mixed_means {k : Nat} (hk : 0 < k) (hlt : k < ds.length) :
    Means (ds.take (ds.length - k)) (some (ds.drop (ds.length - k))) none (value ds * 10 ^ (-(k : Int))) := by
  refine ⟨⟨fun c hc => hdigits c (List.mem_of_mem_take hc), ?_, .inr ?_, ?_⟩, .inl nofun, ?_⟩
  · rw [← List.length_pos_iff, List.length_take]
    omega
  · cases ds with
    | nil => exact absurd rfl hfilled
    | cons c rest =>
      obtain ⟨n, hn⟩ : ∃ n, (c :: rest).length - k = n + 1 := ⟨(c :: rest).length - k - 1, by omega⟩
      rwa [hn, List.take_succ_cons]
  · rintro _ ⟨⟩
    refine ⟨?_, fun c hc => hdigits c (List.mem_of_mem_drop hc)⟩
    rw [← List.length_pos_iff, List.length_drop]
    omega
  · have hlength : (ds.drop (ds.length - k)).length = k := by
      rw [List.length_drop]
      omega
    simp only [Option.getD_some, Option.getD_none, List.take_append_drop, hlength, zero_sub]

end Layouts

/-- The first digit, the others behind a point, and an exponent. -/
theorem scientific_means {first : Char} {rest : List Char} (hdigits : ∀ c ∈ first :: rest, c.isDigit = true)
    (hfront : first ≠ '0') (e : Int) :
    Means [first] (if rest = [] then none else some rest) (some (e + rest.length))
      (value (first :: rest) * 10 ^ e) := by
  refine ⟨⟨fun c hc => ?_, by simp, .inr (by simpa using hfront), ?_⟩, .inr nofun, ?_⟩
  · rw [List.mem_singleton.1 hc]
    exact hdigits first List.mem_cons_self
  · intro ds hds
    split at hds
    · cases hds
    · next hrest =>
      obtain rfl := Option.some.inj hds
      exact ⟨hrest, fun c hc => hdigits c (List.mem_cons_of_mem _ hc)⟩
  · split
    · next hrest => simp [hrest]
    · simp

theorem toList_mark (e : Int) :
    ((if e < 0 then "e-" else "e+") ++ Decimal.Digits.write e.natAbs).toList = exponentText e := by
  unfold exponentText Decimal.Digits.write
  split <;> simp

/-- A positive decimal is laid out around a point as a numeral with a fraction that means it. -/
theorem positional_numeral {d : Decimal} (hd : 0 < d.coefficient) : ∃ whole fraction,
    Means whole (some fraction) none d.value ∧
      (Decimal.writePositional true d).toList = numeral whole (some fraction) none := by
  have hdigits := isDigit_toDigits d.coefficient
  have hfilled : Nat.toDigits 10 d.coefficient ≠ [] := Nat.toDigits_ne_nil
  have hfront := head_toDigits hd
  have hvalue : d.value = value (Nat.toDigits 10 d.coefficient) * 10 ^ d.exponent := by
    rw [value_toDigits, Decimal.value]
  unfold Decimal.writePositional
  split
  · next he =>
    obtain ⟨k, hk⟩ := Int.eq_ofNat_of_zero_le he
    have hmeans := whole_means hdigits hfilled hfront k
    rw [← hk, ← hvalue] at hmeans
    refine ⟨_, _, hmeans, ?_⟩
    simp [numeral, hk]
  · next he =>
    obtain ⟨k, hk⟩ : ∃ k : Nat, d.exponent = -k := ⟨d.exponent.natAbs, by omega⟩
    simp only [hk, Int.natAbs_neg, Int.natAbs_natCast]
    split
    · next hlt =>
      have hmeans := mixed_means hdigits hfilled hfront (by omega : 0 < k) hlt
      rw [← hk, ← hvalue] at hmeans
      refine ⟨_, _, hmeans, ?_⟩
      simp [numeral]
    · next hle =>
      have hmeans := small_means hdigits hfilled (k - (Nat.toDigits 10 d.coefficient).length)
      rw [Nat.sub_add_cancel (Nat.le_of_not_lt hle), ← hk, ← hvalue] at hmeans
      refine ⟨_, _, hmeans, ?_⟩
      simp [numeral]

/-- So it is with an exponent. -/
theorem scientific_numeral {d : Decimal} (hd : 0 < d.coefficient) : ∃ whole fraction exponent,
    Means whole fraction exponent d.value ∧ (Decimal.writeScientific d).toList = numeral whole fraction exponent := by
  have hdigits := isDigit_toDigits d.coefficient
  have hfront := head_toDigits hd
  have hvalue : d.value = value (Nat.toDigits 10 d.coefficient) * 10 ^ d.exponent := by
    rw [value_toDigits, Decimal.value]
  obtain ⟨ds, hds⟩ : ∃ ds, Nat.toDigits 10 d.coefficient = ds := ⟨_, rfl⟩
  have hleading : Decimal.leadingExponent d = d.exponent + ds.length - 1 := by
    rw [Decimal.leadingExponent, Decimal.Digits.write, hds, String.length_ofList]
  have hmark := toList_mark (Decimal.leadingExponent d)
  rw [hds] at hdigits hfront hvalue
  cases ds with
  | nil => exact absurd hds Nat.toDigits_ne_nil
  | cons first rest =>
    have hexponent : Decimal.leadingExponent d = d.exponent + rest.length := by
      rw [hleading, List.length_cons]
      omega
    have hmeans := scientific_means hdigits (by simpa using hfront) d.exponent
    rw [← hvalue, ← hexponent] at hmeans
    refine ⟨_, _, _, hmeans, ?_⟩
    simp only [Decimal.writeScientific, hds]
    cases rest with
    | nil => simp [numeral, hmark]
    | cons second rest => simp [numeral, hmark]

/-- **A positive decimal is written as a numeral that means it.** -/
theorem exists_numeral {d : Decimal} (hd : 0 < d.coefficient) : ∃ whole fraction exponent,
    Means whole fraction exponent d.value ∧ (numberLayout.writeDecimal d).toList = numeral whole fraction exponent := by
  unfold Decimal.Layout.writeDecimal
  split
  · obtain ⟨whole, fraction, hmeans, htext⟩ := positional_numeral hd
    exact ⟨whole, some fraction, none, hmeans, htext⟩
  · exact scientific_numeral hd

/-! ## Doubles -/

open Double (assemble packed Canonical value scientific Holds)
open Float.Model.UnpackedFloat (Sign)

/-- The text of a sign. -/
def signText (negative : Bool) : List Char := if negative then ['-'] else []

/-- A sign is cut off what begins with a digit. -/
theorem splitSign_signText {c : Char} {tail : List Char} (hc : c.isDigit = true) (negative : Bool) :
    Decimal.splitSign (signText negative ++ c :: tail) = (negative, c :: tail) := by
  cases negative with
  | true => rfl
  | false =>
    show Decimal.splitSign (c :: tail) = _
    unfold Decimal.splitSign
    split
    · next heq => exact absurd (List.cons.inj heq).1 (ne_of_class hc (by decide))
    · next heq => exact absurd (List.cons.inj heq).1 (ne_of_class hc (by decide))
    · rfl

theorem number?_numeral {whole : List Char} {fraction : Option (List Char)} (h : Grammatical whole fraction)
    (exponent : Option Int) (negative : Bool) {rest : List Char} (hrest : Ended rest) :
    number? (signText negative ++ numeral whole fraction exponent ++ rest) =
      some (ofNumber (ofParts negative whole fraction exponent), rest) := by
  rw [← magnitude?_numeral h exponent negative hrest]
  cases negative with
  | true => rfl
  | false =>
    cases whole with
    | nil => exact absurd rfl h.filled
    | cons c tail =>
      have hc : c ≠ '-' := by
        rintro rfl
        exact absurd (h.digits _ List.mem_cons_self) (by decide)
      simp only [signText, numeral, Bool.false_eq_true, if_false, List.nil_append, List.cons_append]
      unfold number?
      split
      · next heq => exact absurd (List.cons.inj heq).1 hc
      · rfl

/-- What a marked numeral means is the double of its decimal. -/
theorem ofParts_marked {whole : List Char} {fraction : Option (List Char)} {exponent : Option Int}
    (h : fraction ≠ none ∨ exponent ≠ none) (negative : Bool) : ofParts negative whole fraction exponent =
      .double (if negative then -Decimal.ofDigits whole (fraction.getD []) (exponent.getD 0)
        else Decimal.ofDigits whole (fraction.getD []) (exponent.getD 0)) := by
  cases fraction with
  | some ds => rfl
  | none =>
    cases exponent with
    | some e => rfl
    | none => simp at h

theorem scientific_eq_zpow (m : Nat) (e : Int) : scientific m (decide (e < 0)) e.natAbs = m * 10 ^ e := by
  by_cases he : e < 0
  · obtain ⟨k, rfl⟩ : ∃ k : Nat, e = -k := ⟨e.natAbs, by omega⟩
    rw [decide_eq_true he, scientific, if_pos rfl, Int.natAbs_neg, Int.natAbs_natCast, zpow_neg, zpow_natCast,
      div_eq_mul_inv]
  · obtain ⟨k, rfl⟩ : ∃ k : Nat, e = k := ⟨e.natAbs, by omega⟩
    simp [scientific]

/-- Parts whose decimal lies in the rounding interval of a double are read as that double. -/
theorem ofDigits_eq_of_holds {whole fraction : List Char} {exponent : Int} {n : Nat} {t : Int} (hn : Canonical n t)
    (hpos : 0 < n) (ht : t ≤ 971)
    (hv : Holds n t ((Decimal.Digits.value (whole ++ fraction) : Rat) * 10 ^ (exponent - fraction.length))) :
    Decimal.ofDigits whole fraction exponent = packed (assemble .positive n t) := by
  rw [← scientific_eq_zpow] at hv
  refine Double.ofScientific_eq_of_holds (Nat.pos_of_ne_zero fun hzero => ?_) hn hpos ht hv
  obtain ⟨hlow, -⟩ := hv.range hn hpos ht
  rw [hzero] at hlow
  have hnone : scientific 0 (decide (exponent - (fraction.length : Int) < 0))
      (exponent - fraction.length).natAbs = 0 := by
    rw [scientific_eq_zpow]
    simp
  rw [hnone] at hlow
  exact absurd (Double.unit_pos (-1075)) (not_lt.2 hlow)

/-- A numeral that means a value in the rounding interval of a double is read as that double. -/
theorem Means.ofDigits_eq {whole : List Char} {fraction : Option (List Char)} {exponent : Option Int} {v : Rat}
    (h : Means whole fraction exponent v) {n : Nat} {t : Int} (hn : Canonical n t) (hpos : 0 < n) (ht : t ≤ 971)
    (hv : Holds n t v) :
    Decimal.ofDigits whole (fraction.getD []) (exponent.getD 0) = packed (assemble .positive n t) := by
  rw [← h.meaning] at hv
  exact ofDigits_eq_of_holds hn hpos ht hv

/-- The magnitude of a finite double is written as a numeral that is read as that magnitude, in every layout that marks
whole numbers and writes positive decimals as numerals that mean them. -/
theorem exists_magnitude_of {l : Decimal.Layout} (hwhole : l.wholeMark = true)
    {P : Option (List Char) → Option Int → Prop} (hzero : P (some ['0']) none)
    (hpositive : ∀ d : Decimal, 0 < d.coefficient → ∃ whole fraction exponent,
      P fraction exponent ∧ Means whole fraction exponent d.value ∧
        (l.writeDecimal d).toList = numeral whole fraction exponent)
    (s : Sign) {n : Nat} {t : Int} (h : Canonical n t) (ht : t ≤ 971) :
    ∃ whole fraction exponent, P fraction exponent ∧ Grammatical whole fraction ∧
      Decimal.ofDigits whole (fraction.getD []) (exponent.getD 0) = packed (assemble .positive n t) ∧
      (l.write (packed (assemble s n t))).toList =
        signText (Double.isNegative s) ++ numeral whole fraction exponent := by
  have hunpack : (packed (assemble s n t)).toModel.unpack = assemble s n t := Double.unpack_pack_assemble s h ht
  have hsign : (if Double.isNegative s then "-" else "").toList = signText (Double.isNegative s) := by
    cases s <;> rfl
  unfold Decimal.Layout.write
  rcases Nat.eq_zero_or_pos n with rfl | hpos
  · refine ⟨['0'], some ['0'], none, hzero, ⟨isDigit_zeros 1, by simp, .inl rfl, ?_⟩, ?_, ?_⟩
    · rintro _ ⟨⟩
      exact ⟨by simp, isDigit_zeros 1⟩
    · rw [Double.assemble_zero]
      decide +kernel
    · rw [hunpack, Double.assemble_zero]
      simp only [String.toList_append, hsign, hwhole, if_true]
      rfl
  · have hholds := Decimal.shortest_holds l.tie hpos t
    obtain ⟨whole, fraction, exponent, hp, hmeans, htext⟩ := hpositive _ (Decimal.coefficient_pos hpos hholds)
    refine ⟨whole, fraction, exponent, hp, hmeans.toGrammatical, hmeans.ofDigits_eq h hpos ht hholds, ?_⟩
    rw [hunpack, Double.assemble_pos s t hpos]
    simp only [String.toList_append, hsign, htext]

/-- In JSON the magnitude is written as a numeral with a mark. -/
theorem exists_magnitude (s : Sign) {n : Nat} {t : Int} (h : Canonical n t) (ht : t ≤ 971) :
    ∃ whole fraction exponent, (fraction ≠ none ∨ exponent ≠ none) ∧ Grammatical whole fraction ∧
      Decimal.ofDigits whole (fraction.getD []) (exponent.getD 0) = packed (assemble .positive n t) ∧
      (numberLayout.write (packed (assemble s n t))).toList =
        signText (Double.isNegative s) ++ numeral whole fraction exponent := by
  refine exists_magnitude_of rfl (P := fun fraction exponent => fraction ≠ none ∨ exponent ≠ none) (.inl nofun) ?_ s h
    ht
  intro d hd
  obtain ⟨whole, fraction, exponent, hmeans, htext⟩ := exists_numeral hd
  exact ⟨whole, fraction, exponent, hmeans.marked, hmeans, htext⟩

/-- The magnitude of a double, behind its sign, is that double. -/
theorem signed_magnitude {s : Sign} {n : Nat} {t : Int} (h : Canonical n t) (ht : t ≤ 971) :
    (if Double.isNegative s then -packed (assemble .positive n t) else packed (assemble .positive n t)) =
      packed (assemble s n t) := by
  cases s with
  | positive => rfl
  | negative => exact Double.neg_packed .positive h ht

/-! ## Texts of numbers -/

/-- What a text can hold: a finite double, or an integer of 64 bits with a sign or without. -/
def Number.Exact : Number → Prop
  | .integer n => -2 ^ 63 ≤ n ∧ n < 2 ^ 64
  | .double x => x.isFinite = true

/-- The digits of a count are a numeral without a mark. -/
theorem grammatical_toDigits (n : Nat) : Grammatical (Nat.toDigits 10 n) none := by
  refine ⟨isDigit_toDigits n, Nat.toDigits_ne_nil, ?_, nofun⟩
  rcases Nat.eq_zero_or_pos n with rfl | hn
  · exact .inl rfl
  · exact .inr (head_toDigits hn)

theorem wholeNumber_natAbs {n : Int} (hn : Number.Exact (.integer n)) :
    wholeNumber (decide (n < 0)) n.natAbs = .integer n := by
  obtain ⟨hlow, hhigh⟩ := hn
  unfold wholeNumber
  by_cases h : n < 0
  · have hreach : n.natAbs ≤ signedReach := by
      show n.natAbs ≤ 2 ^ 63
      omega
    have hvalue : -((n.natAbs : Nat) : Int) = n := by omega
    rw [decide_eq_true h, if_pos rfl, if_neg (by omega), if_pos hreach, hvalue]
  · have hsize : n.natAbs < UInt64.size := by
      show n.natAbs < 2 ^ 64
      omega
    have hvalue : ((n.natAbs : Nat) : Int) = n := by omega
    rw [decide_eq_false h, if_neg Bool.false_ne_true, if_pos hsize, hvalue]

/-- The text of a number is a numeral behind a sign, which means the number. -/
theorem Number.exists_text {n : Number} (hn : n.Exact) : ∃ negative whole fraction exponent,
    Grammatical whole fraction ∧ n.write.toList = signText negative ++ numeral whole fraction exponent ∧
      ofNumber (ofParts negative whole fraction exponent) = .number n := by
  cases n with
  | integer n =>
    refine ⟨decide (n < 0), _, none, none, grammatical_toDigits n.natAbs, ?_, ?_⟩
    · unfold Number.write Decimal.Digits.write numeral signText
      by_cases h : n < 0 <;> simp [h]
    · rw [ofParts, value_toDigits, wholeNumber_natAbs hn, ofNumber]
  | double x =>
    have hfinite : x.isFinite = true := hn
    obtain ⟨s, n, t, h, ht, hux⟩ := Double.exists_assemble hfinite
    have hpacked : packed (assemble s n t) = x := by rw [← hux, Double.packed_unpack]
    obtain ⟨whole, fraction, exponent, hmarked, hgrammatical, hvalue, htext⟩ := exists_magnitude s h ht
    have hsigned := (signed_magnitude (s := s) h ht).trans hpacked
    refine ⟨Double.isNegative s, whole, fraction, exponent, hgrammatical, ?_, ?_⟩
    · rw [Number.write, if_pos hfinite, ← htext, hpacked]
    · rw [ofParts_marked hmarked, hvalue, hsigned, ofNumber, if_pos hfinite]

/-- **A number is read back from its text.** -/
theorem number?_write {n : Number} (hn : n.Exact) {rest : List Char} (hrest : Ended rest) :
    number? (n.write.toList ++ rest) = some (.number n, rest) := by
  obtain ⟨negative, whole, fraction, exponent, h, htext, hvalue⟩ := n.exists_text hn
  rw [htext, number?_numeral h exponent negative hrest, hvalue]

/-- A number begins with a minus or a digit. -/
theorem Number.head_write {n : Number} (hn : n.Exact) :
    ∃ c rest, n.write.toList = c :: rest ∧ (c = '-' ∨ c.isDigit = true) := by
  obtain ⟨negative, whole, fraction, exponent, h, htext, -⟩ := n.exists_text hn
  rw [htext]
  cases negative with
  | true => exact ⟨'-', _, rfl, .inl rfl⟩
  | false =>
    cases whole with
    | nil => exact absurd rfl h.filled
    | cons c tail => exact ⟨c, _, rfl, .inr (h.digits c List.mem_cons_self)⟩

end SolidScript.Json
