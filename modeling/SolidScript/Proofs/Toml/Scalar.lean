import SolidScript.Proofs.Json.Number
import SolidScript.Toml.Scalar

/-!
# Bare TOML values

A bare value is read up to the first character that cannot stand in one (`read?_bare`). Without colons and without a
minus behind the first four characters it is no date and no time (`isMoment_eq_false`). So the digits of a count are
read as that integer (`value?_toDigits`), and digits with a point among them, behind a sign, as the double of that
decimal (`value?_positional`); which gives back every double that is a number (`value?_write`).
-/

namespace SolidScript.Toml.Scalar

open Decimal.Digits
open Json (signText splitSign_signText)

/-- A text that does not go on with a bare value, nor with a blank and perhaps a time. -/
def Ended (rest : List Char) : Prop := ∀ c ∈ rest.head?, isBareChar c = false ∧ c ≠ ' '

theorem isBareChar_of_isDigit {c : Char} (h : c.isDigit = true) : isBareChar c = true := by
  simp [isBareChar, Char.isAlphanum, h]

/-! ## Dates and times -/

theorem expect?_eq_none {c : Char} {text : List Char} (h : c ∉ text) : expect? c text = none := by
  cases text with
  | nil => rfl
  | cons d rest =>
    have hd : d ≠ c := fun heq => h (heq ▸ List.mem_cons_self)
    rw [expect?, if_neg hd]

theorem field?_rest {width least greatest n : Nat} {text rest : List Char}
    (h : field? width least greatest text = some (n, rest)) : rest = text.drop width := by
  simp only [field?] at h
  split at h
  · cases h
    rfl
  · cases h

theorem skipDate?_eq_none {text : List Char} (h : '-' ∉ text.drop 4) : skipDate? text = none := by
  rw [skipDate?]
  cases hyear : field? 4 0 9999 text with
  | none => rfl
  | some found =>
    obtain ⟨year, rest⟩ := found
    obtain rfl := field?_rest hyear
    simp only [expect?_eq_none h, Option.bind_eq_bind, Option.bind_some, Option.bind_none]

theorem skipTime?_eq_none {text : List Char} (h : ':' ∉ text) : skipTime? text = none := by
  rw [skipTime?]
  cases hhour : field? 2 0 23 text with
  | none => rfl
  | some found =>
    obtain ⟨hour, rest⟩ := found
    obtain rfl := field?_rest hhour
    have hcolon : ':' ∉ text.drop 2 := fun hmem => h (List.mem_of_mem_drop hmem)
    simp only [expect?_eq_none hcolon, Option.bind_eq_bind, Option.bind_some, Option.bind_none]

/-- Without colons, and without a minus behind the first four characters, a text is no date and no time. -/
theorem isMoment_eq_false {text : List Char} (hdate : '-' ∉ text.drop 4) (htime : ':' ∉ text) :
    isMoment text = false := by
  rw [isMoment, skipDate?_eq_none hdate, skipTime?_eq_none htime]
  rfl

/-- A bare value is read up to the first character that cannot stand in one. -/
theorem read?_bare {bare rest : List Char} (hbare : ∀ c ∈ bare, isBareChar c = true) (hrest : Ended rest) :
    read? (bare ++ rest) = (value? bare).map fun value => (value, rest) := by
  have hspan : (bare ++ rest).span isBareChar = (bare, rest) := span_append hbare fun c hc => (hrest c hc).1
  rw [read?, hspan]
  simp only
  split
  · next later heq => exact absurd rfl (hrest ' ' rfl).2
  · rfl

/-! ## Digits -/

theorem digits?_run {ds : List Char} (hdigits : ∀ c ∈ ds, c.isDigit = true) (hfilled : ds ≠ []) :
    digits? Char.isDigit ds = some ds := by
  induction ds with
  | nil => exact absurd rfl hfilled
  | cons c rest ih =>
    obtain ⟨hc, hrest⟩ := List.forall_mem_cons.1 hdigits
    cases rest with
    | nil => rw [digits?, if_pos hc]
    | cons d others =>
      have hd : d ≠ '_' := ne_of_class (hrest d List.mem_cons_self) (by decide)
      rw [digits?, if_pos hc, ih hrest (List.cons_ne_nil _ _), Option.map_some]
      · exact List.cons_ne_nil d others
      · rintro _ ⟨⟩
        exact hd rfl

/-- A run of digits holds only digits and underscores. -/
theorem mem_digits? {isDigit : Char → Bool} {text ds : List Char} (h : digits? isDigit text = some ds) :
    ∀ c ∈ text, isDigit c = true ∨ c = '_' := by
  fun_induction digits? isDigit text generalizing ds with
  | case1 => nofun
  | case2 c hc => exact List.forall_mem_singleton.2 (.inl hc)
  | case3 => cases h
  | case4 c rest hc ih =>
    obtain ⟨others, hothers, -⟩ := Option.map_eq_some_iff.1 h
    exact List.forall_mem_cons.2 ⟨.inl hc, List.forall_mem_cons.2 ⟨.inr rfl, ih hothers⟩⟩
  | case5 => cases h
  | case6 c rest hrest hunderscore hc ih =>
    obtain ⟨others, hothers, -⟩ := Option.map_eq_some_iff.1 h
    exact List.forall_mem_cons.2 ⟨.inl hc, ih hothers⟩
  | case7 => cases h

theorem whole?_of_grammatical {whole : List Char} {fraction : Option (List Char)}
    (h : Json.Grammatical whole fraction) : whole? whole = some whole := by
  rw [whole?, digits?_run h.digits h.filled, Option.bind_eq_bind, Option.bind_some]
  rcases h.front with rfl | hfront
  · rfl
  · split
    · exact absurd rfl hfront
    · rfl

/-! ## Numbers -/

/-- The characters of a number without a sign that is written around a point. -/
def IsNumberChar (c : Char) : Prop := c.isDigit = true ∨ c = '.'

theorem IsNumberChar.ne {c d : Char} (h : IsNumberChar c) (hd : d.isDigit = false) (hpoint : d ≠ '.') : c ≠ d := by
  rcases h with h | rfl
  · exact ne_of_class h hd
  · exact hpoint.symm

theorem isBareChar_number {text : List Char} (h : ∀ c ∈ text, IsNumberChar c) (negative : Bool) :
    ∀ c ∈ signText negative ++ text, isBareChar c = true := by
  intro c hc
  rcases List.mem_append.1 hc with hsign | hnumber
  · cases negative with
    | true =>
      obtain rfl := List.mem_singleton.1 hsign
      decide
    | false => cases hsign
  · rcases h c hnumber with hdigit | rfl
    · exact isBareChar_of_isDigit hdigit
    · decide

/-- A text without the character that it is split before stays whole. -/
theorem splitBefore_of_not_mem {p : Char → Bool} {text : List Char} (h : ∀ c ∈ text, p c = false) :
    splitBefore p text = (text, []) := by
  have hspan : (text ++ []).span (fun c => !p c) = (text, []) :=
    span_append (fun c hc => by rw [h c hc]; rfl) nofun
  rwa [List.append_nil] at hspan

section Numbers

variable {c : Char} {tail : List Char} (hc : c.isDigit = true)
include hc

/-- A text that begins with a digit, perhaps behind a minus, does not begin with something else. -/
theorem signed_ne (negative : Bool) {first : Char} (hfirst : first.isDigit = false) (hminus : first ≠ '-')
    (others : List Char) : signText negative ++ c :: tail ≠ first :: others := by
  intro heq
  cases negative with
  | true => exact hminus (List.cons.inj heq).1.symm
  | false => exact ne_of_class hc hfirst (List.cons.inj heq).1

theorem word?_eq_none (negative : Bool) : word? (signText negative ++ c :: tail) = none := by
  have hinf : c :: tail ≠ ['i', 'n', 'f'] := signed_ne hc false (by decide) (by decide) _
  have hnan : c :: tail ≠ ['n', 'a', 'n'] := signed_ne hc false (by decide) (by decide) _
  rw [word?, splitSign_signText hc negative]
  simp only [hinf, hnan, if_false]

/-- A number is read as an integer, or else as a double. -/
theorem value?_of_digit (htail : ∀ d ∈ tail, IsNumberChar d) (negative : Bool) :
    value? (signText negative ++ c :: tail) =
      (integer? (signText negative ++ c :: tail)).or (float? (signText negative ++ c :: tail)) := by
  have hnumber : ∀ d ∈ c :: tail, IsNumberChar d := List.forall_mem_cons.2 ⟨.inl hc, htail⟩
  have habsent : ∀ d, d.isDigit = false → d ≠ '.' → d ∉ c :: tail :=
    fun d hd hpoint hmem => (hnumber d hmem).ne hd hpoint rfl
  have hcolon : ':' ∉ signText negative ++ c :: tail := by
    rw [List.mem_append, not_or]
    exact ⟨by cases negative <;> decide, habsent ':' (by decide) (by decide)⟩
  have hminus : '-' ∉ (signText negative ++ c :: tail).drop 4 := by
    intro hmem
    refine habsent '-' (by decide) (by decide) ?_
    cases negative with
    | true => exact List.mem_of_mem_drop (i := 3) hmem
    | false => exact List.mem_of_mem_drop (i := 4) hmem
  have htrue : signText negative ++ c :: tail ≠ "true".toList := signed_ne hc negative (by decide) (by decide) _
  have hfalse : signText negative ++ c :: tail ≠ "false".toList := signed_ne hc negative (by decide) (by decide) _
  rw [value?, if_neg htrue, if_neg hfalse, isMoment_eq_false hminus hcolon, word?_eq_none hc, Option.none_or]
  rfl

/-- Without a mark behind a zero in front, the digits of an integer are decimal. -/
theorem integer?_of_digit (htail : ∀ d ∈ tail, IsNumberChar d) (negative : Bool) :
    integer? (signText negative ++ c :: tail) =
      (whole? (c :: tail)).bind fun digits =>
        bounded? (if negative then -(value digits : Int) else value digits) := by
  have hmark : ∀ d rest, d.isDigit = false → d ≠ '.' → signText negative ++ c :: tail ≠ '0' :: d :: rest := by
    intro d rest hd hpoint heq
    cases negative with
    | true => exact absurd (List.cons.inj heq).1 (by decide)
    | false => exact (htail d (by rw [(List.cons.inj heq).2]; exact List.mem_cons_self)).ne hd hpoint rfl
  unfold integer?
  split
  · next heq => exact absurd heq (hmark 'x' _ (by decide) (by decide))
  · next heq => exact absurd heq (hmark 'o' _ (by decide) (by decide))
  · next heq => exact absurd heq (hmark 'b' _ (by decide) (by decide))
  · rw [splitSign_signText hc]

end Numbers

/-- **The digits of a count are read as that integer.** -/
theorem value?_toDigits {n : Nat} (h : n < signedReach) : value? (Nat.toDigits 10 n) = some (.integer n) := by
  have hgrammatical := Json.grammatical_toDigits n
  have hvalue := value_toDigits n
  generalize Nat.toDigits 10 n = ds at hgrammatical hvalue
  cases ds with
  | nil => exact absurd rfl hgrammatical.filled
  | cons c tail =>
    obtain ⟨hc, htail⟩ := List.forall_mem_cons.1 hgrammatical.digits
    have hnumber : ∀ d ∈ tail, IsNumberChar d := fun d hd => .inl (htail d hd)
    have hread := value?_of_digit hc hnumber false
    rw [integer?_of_digit hc hnumber, whole?_of_grammatical hgrammatical, Option.bind_some, hvalue] at hread
    refine hread.trans ?_
    rw [if_neg Bool.false_ne_true, bounded?, if_pos (by omega), Option.some_or]

theorem isNumberChar_positional {whole fraction : List Char} (h : Json.Grammatical whole (some fraction)) :
    ∀ c ∈ whole ++ '.' :: fraction, IsNumberChar c := by
  intro c hc
  rcases List.mem_append.1 hc with hc | hc
  · exact .inl (h.digits c hc)
  · rcases List.mem_cons.1 hc with rfl | hc
    · exact .inr rfl
    · exact .inl ((h.behind fraction rfl).2 c hc)

/-- **Digits around a point are read as the double of their decimal**, behind a sign. -/
theorem value?_positional {whole fraction : List Char} (h : Json.Grammatical whole (some fraction)) (negative : Bool)
    (hfinite : (Decimal.ofDigits whole fraction 0).isFinite = true) :
    value? (signText negative ++ (whole ++ '.' :: fraction)) =
      some (.float (if negative then -Decimal.ofDigits whole fraction 0 else Decimal.ofDigits whole fraction 0)) := by
  obtain ⟨hfilled, hbehind⟩ := h.behind fraction rfl
  have hwhole := whole?_of_grammatical h
  obtain ⟨c, tail, rfl⟩ : ∃ c tail, whole = c :: tail := List.exists_cons_of_ne_nil h.filled
  have hc : c.isDigit = true := h.digits c List.mem_cons_self
  have hall := isNumberChar_positional h
  have hnumber : ∀ d ∈ tail ++ '.' :: fraction, IsNumberChar d := fun d hd => hall d (List.mem_cons_of_mem c hd)
  have hinteger : whole? (c :: (tail ++ '.' :: fraction)) = none := by
    rw [whole?]
    cases hdigits : digits? Char.isDigit (c :: (tail ++ '.' :: fraction)) with
    | none => rfl
    | some ds =>
      have hpoint := mem_digits? hdigits '.' (by simp)
      exact absurd hpoint (by decide)
  have hmantissa : splitBefore (fun c => c = 'e' || c = 'E') (c :: (tail ++ '.' :: fraction)) =
      (c :: (tail ++ '.' :: fraction), []) := by
    refine splitBefore_of_not_mem fun d hd => ?_
    have hd : IsNumberChar d := hall d hd
    simp [hd.ne (d := 'e') (by decide) (by decide), hd.ne (d := 'E') (by decide) (by decide)]
  have hpoint : splitBefore (· = '.') (c :: tail ++ '.' :: fraction) = (c :: tail, '.' :: fraction) := by
    refine span_append (fun d hd => ?_) fun d hd => ?_
    · have hd : d ≠ '.' := ne_of_class (h.digits d hd) (by decide)
      simp [hd]
    · obtain rfl : '.' = d := by simpa using hd
      rfl
  rw [List.cons_append] at hpoint ⊢
  rw [value?_of_digit hc hnumber, integer?_of_digit hc hnumber, hinteger, Option.bind_none, Option.none_or, float?,
    splitSign_signText hc]
  simp only [hmantissa, hpoint, hwhole, digits?_run hbehind hfilled, exponent?, List.isEmpty_cons, Bool.false_and,
    Bool.false_eq_true, if_false, Option.bind_eq_bind, Option.bind_some]
  cases negative with
  | true => rfl
  | false => rw [if_neg Bool.false_ne_true, if_pos hfinite, if_neg Bool.false_ne_true]

/-! ## Doubles -/

open Double (assemble packed)

/-- The text of an infinity. -/
def infinityText (negative : Bool) : List Char := signText negative ++ ['i', 'n', 'f']

theorem isBareChar_infinityText (negative : Bool) : ∀ c ∈ infinityText negative, isBareChar c = true := by
  cases negative <;> simp [infinityText, signText, isBareChar]

/-- An infinity is read from its text. -/
theorem value?_infinityText (s : Float.Model.UnpackedFloat.Sign) :
    value? (infinityText (Double.isNegative s)) = some (.float (packed (.infinity s))) := by
  have hmoment : isMoment (infinityText (Double.isNegative s)) = false := by cases s <;> decide
  have htrue : infinityText (Double.isNegative s) ≠ "true".toList := by cases s <;> decide
  have hfalse : infinityText (Double.isNegative s) ≠ "false".toList := by cases s <;> decide
  have hword : word? (infinityText (Double.isNegative s)) = some (.float (packed (.infinity s))) := by
    have hpositive : (1.0 / 0.0 : Float) = packed (.infinity .positive) := by decide +kernel
    have hnegative : (-1.0 / 0.0 : Float) = packed (.infinity .negative) := by decide +kernel
    cases s with
    | positive =>
      rw [← hpositive]
      rfl
    | negative =>
      rw [← hnegative]
      rfl
  rw [value?, if_neg htrue, if_neg hfalse, hmoment, hword]
  rfl

section Doubles

variable {l : Decimal.Layout} {x : Float}

theorem toList_write_infinity {s : Float.Model.UnpackedFloat.Sign} (h : x.toModel.unpack = .infinity s) :
    (l.write x).toList = infinityText (Double.isNegative s) := by
  rw [Decimal.Layout.write, h]
  cases s <;> exact String.toList_append

variable (hwhole : l.wholeMark = true) (hpositional : l.positional = none)
include hwhole hpositional

theorem value?_write_of_isFinite (hfinite : x.isFinite = true) :
    (∀ c ∈ (l.write x).toList, isBareChar c = true) ∧ value? (l.write x).toList = some (.float x) := by
  obtain ⟨s, n, t, h, ht, hux⟩ := Double.exists_assemble hfinite
  have hpacked : packed (assemble s n t) = x := by rw [← hux, Double.packed_unpack]
  -- Without an exponent mark every decimal has digits on both sides of its point.
  have hdecimal : ∀ d : Decimal, 0 < d.coefficient → ∃ whole fraction exponent,
      (∃ ds, fraction = some ds ∧ exponent = none) ∧ Json.Means whole fraction exponent d.value ∧
        (l.writeDecimal d).toList = Json.numeral whole fraction exponent := by
    intro d hd
    obtain ⟨whole, ds, hmeans, htext⟩ := Json.positional_numeral hd
    refine ⟨whole, some ds, none, ⟨ds, rfl, rfl⟩, hmeans, ?_⟩
    rw [← htext, Decimal.Layout.writeDecimal, Decimal.Layout.isPositional, hpositional, hwhole]
    rfl
  obtain ⟨whole, _, _, ⟨ds, rfl, rfl⟩, hgrammatical, hvalue, htext⟩ :=
    Json.exists_magnitude_of hwhole (P := fun fraction exponent => ∃ ds, fraction = some ds ∧ exponent = none)
      ⟨_, rfl, rfl⟩ hdecimal s h ht
  rw [Option.getD_some, Option.getD_none] at hvalue
  have hmagnitude : (Decimal.ofDigits whole ds 0).isFinite = true := by
    rw [hvalue, Double.isFinite_packed .positive h, decide_eq_true ht]
  have hread := value?_positional hgrammatical (Double.isNegative s) hmagnitude
  rw [hvalue, Json.signed_magnitude h ht, hpacked] at hread
  have hnumeral : Json.numeral whole (some ds) none = whole ++ '.' :: ds := by simp [Json.numeral]
  rw [hpacked, hnumeral] at htext
  rw [htext]
  exact ⟨isBareChar_number (isNumberChar_positional hgrammatical) _, hread⟩

/-- **A double is read back from its text** in a layout without exponent marks that marks whole numbers, if it is a
number. -/
theorem value?_write (hx : x.isNaN = false) :
    (∀ c ∈ (l.write x).toList, isBareChar c = true) ∧ value? (l.write x).toList = some (.float x) := by
  cases hu : x.toModel.unpack with
  | notANumber =>
    have hnumber : x.toModel.unpack.isNaN = false := hx
    rw [hu] at hnumber
    cases hnumber
  | infinity s =>
    rw [toList_write_infinity hu, value?_infinityText, ← hu, Double.packed_unpack]
    exact ⟨isBareChar_infinityText _, rfl⟩
  | zero s =>
    have hfinite : x.toModel.unpack.isFinite = true := by
      rw [hu]
      rfl
    exact value?_write_of_isFinite hwhole hpositional hfinite
  | finite s m q hm =>
    have hfinite : x.toModel.unpack.isFinite = true := by
      rw [hu]
      rfl
    exact value?_write_of_isFinite hwhole hpositional hfinite

end Doubles

end SolidScript.Toml.Scalar
