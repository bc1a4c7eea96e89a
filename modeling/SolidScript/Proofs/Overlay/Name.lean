import SolidScript.Overlay.Render
import SolidScript.Proofs.Script.Numeral

/-!
# Names of overlays

The name of a module is an identifier that tells what it was made from: the theme, the unit, the three extents and,
unless the bounds begin at the origin, where they begin. `Told` is what a name tells, and `Told.ofName?` reads it off,
knowing nothing but the name: it cuts the name at its bars and the extents at the crosses between them.

* `readNumber?_flatMap`: a number inside an identifier is read back, for the letters that stand for a minus and a
  point are no digits.
* `toList_moduleName`: a name is pieces of letters and digits with bars between them (`alphanumeric_pieces`).
* `ofName?_moduleName`: so a name is read as what it tells.
* `moduleName_tells`: names are identifiers, and equal ones tell the same.
-/

namespace SolidScript.Overlay

open Script (number Numerals isNumeral numerals_number)

/-! ## Numbers inside identifiers -/

/-- The number inside an identifier that is read back. -/
def readNumber? : List Char → Option (List Char)
  | [] => some []
  | 'n' :: 'e' :: 'g' :: rest => (readNumber? rest).map ('-' :: ·)
  | 'p' :: rest => (readNumber? rest).map ('.' :: ·)
  | c :: rest => if c.isDigit then (readNumber? rest).map (c :: ·) else none

/-- The characters of a number inside an identifier. -/
def identifier (text : String) : List Char := text.toList.flatMap identifierChar

theorem toList_identifierNumber (text : String) : (identifierNumber text).toList = identifier text := by
  rw [identifierNumber, String.toList_ofList, identifier]

/-- A character of a number is a minus, a point or a digit. -/
theorem cases_of_isNumeral {c : Char} (h : isNumeral c = true) :
    c = '-' ∨ c = '.' ∨ c.isDigit = true ∧ identifierChar c = [c] := by
  by_cases hminus : c = '-'
  · exact .inl hminus
  · by_cases hpoint : c = '.'
    · exact .inr (.inl hpoint)
    · refine .inr (.inr ⟨?_, ?_⟩)
      · simpa [isNumeral, hminus, hpoint] using h
      · rw [identifierChar, if_neg hminus, if_neg hpoint]

theorem readNumber?_digit {c : Char} (h : c.isDigit = true) (rest : List Char) :
    readNumber? (c :: rest) = (readNumber? rest).map (c :: ·) := by
  have hn : c ≠ 'n' := by
    rintro rfl
    exact absurd h (by decide)
  have hp : c ≠ 'p' := by
    rintro rfl
    exact absurd h (by decide)
  rw [readNumber?, if_pos h]
  · intro tail hc
    exact absurd hc hn
  · exact hp

/-- **A number inside an identifier is read back.** -/
theorem readNumber?_flatMap {chars : List Char} (h : ∀ c ∈ chars, isNumeral c = true) :
    readNumber? (chars.flatMap identifierChar) = some chars := by
  induction chars with
  | nil => rfl
  | cons c rest ih =>
    have hrest := ih fun d hd => h d (List.mem_cons_of_mem _ hd)
    rw [List.flatMap_cons]
    rcases cases_of_isNumeral (h c List.mem_cons_self) with rfl | rfl | ⟨hdigit, hself⟩
    · show readNumber? ('n' :: 'e' :: 'g' :: rest.flatMap identifierChar) = _
      rw [readNumber?, hrest, Option.map_some]
    · show readNumber? ('p' :: rest.flatMap identifierChar) = _
      rw [readNumber?, hrest, Option.map_some]
    · rw [hself, List.singleton_append, readNumber?_digit hdigit, hrest, Option.map_some]

/-- A number inside an identifier has letters and digits only, and no cross among them. -/
theorem alphanumeric_identifier {text : String} (h : Numerals text) :
    ∀ c ∈ identifier text, c.isAlphanum = true ∧ c ≠ 'x' := by
  intro c hc
  obtain ⟨d, hd, hmem⟩ := List.mem_flatMap.1 hc
  rcases cases_of_isNumeral (h d hd) with rfl | rfl | ⟨hdigit, hself⟩
  · simp only [identifierChar, if_true, List.mem_cons, List.not_mem_nil, or_false] at hmem
    rcases hmem with rfl | rfl | rfl <;> decide
  · cases List.mem_singleton.1 hmem
    decide
  · rw [hself] at hmem
    cases List.mem_singleton.1 hmem
    refine ⟨by rw [Char.isAlphanum, hdigit, Bool.or_true], ?_⟩
    rintro rfl
    exact absurd hdigit (by decide)

theorem numerals_extentLabel (u : UnitSystem) (r : Range Float) : Numerals (extentLabel u r) := by
  cases u <;> exact numerals_number _

/-- What pieces with a mark between them have in them. -/
theorem mem_intercalate {α : Type} {mark : List α} {c : α} : ∀ {pieces : List (List α)},
    c ∈ mark.intercalate pieces → c ∈ mark ∨ ∃ piece ∈ pieces, c ∈ piece
  | [], h => by simp at h
  | [piece], h => by
    rw [List.intercalate_singleton] at h
    exact .inr ⟨piece, List.mem_cons_self, h⟩
  | piece :: next :: rest, h => by
    rw [List.intercalate_cons_cons, List.mem_append, List.mem_append] at h
    rcases h with (h | h) | h
    · exact .inr ⟨piece, List.mem_cons_self, h⟩
    · exact .inl h
    · rcases mem_intercalate h with h | ⟨other, hother, h⟩
      · exact .inl h
      · exact .inr ⟨other, List.mem_cons_of_mem _ hother, h⟩

/-! ## What a name tells -/

/-- What the name of a module tells. -/
structure Told where
  theme : Theme
  unit : UnitSystem
  extents : Vec3 String
  /-- Where the bounds begin, unless that is the origin. -/
  start : Option (Vec3 String)
deriving DecidableEq

namespace Told

/-- What is told of bounds. -/
def ofBounds (b : Bounds Float) (u : UnitSystem) (theme : Theme) : Told :=
  ⟨theme, u, ⟨extentLabel u b.x, extentLabel u b.y, extentLabel u b.z⟩,
    if b.originIsZero then none else some ⟨number b.x.min, number b.y.min, number b.z.min⟩⟩

/-- The pieces at the end of a name, which tell where the bounds begin. -/
def ending : Option (Vec3 String) → List (List Char)
  | none => []
  | some start => "at".toList :: start.toList.map identifier

/-- The pieces of a name that tells this, without the bars between them. -/
def pieces (t : Told) : List (List Char) :=
  "axis".toList :: t.theme.name.toList :: ['x'].intercalate (t.extents.toList.map identifier)
    :: t.unit.baseUnit.toList :: ending t.start

/-! ### Reading names -/

/-- The unit system with a base unit. -/
def unit? (text : List Char) : Option UnitSystem :=
  [.metric, .imperial].find? fun u => u.baseUnit.toList == text

/-- Three numbers inside an identifier. -/
def numbers? : List (List Char) → Option (Vec3 String)
  | [x, y, z] => do
    let text := String.ofList
    some ⟨text (← readNumber? x), text (← readNumber? y), text (← readNumber? z)⟩
  | _ => none

/-- What the pieces at the end of a name tell. -/
def start? : List (List Char) → Option (Option (Vec3 String))
  | [] => some none
  | mark :: rest => if mark = "at".toList then (numbers? rest).map some else none

/-- What a name tells; nothing unless it has the form of the name of a module. -/
def ofName? (name : String) : Option Told :=
  match name.toList.splitOn '_' with
  | mark :: theme :: extents :: unit :: rest =>
    if mark = "axis".toList then do
      some ⟨← Theme.ofExactName? (String.ofList theme), ← unit? unit, ← numbers? (extents.splitOn 'x'), ← start? rest⟩
    else none
  | _ => none

theorem unit?_baseUnit (u : UnitSystem) : unit? u.baseUnit.toList = some u := by
  cases u <;> rfl

theorem ofExactName?_name (theme : Theme) : Theme.ofExactName? theme.name = some theme := by
  cases theme <;> rfl

theorem numbers?_identifier {v : Vec3 String} (h : ∀ text ∈ v.toList, Numerals text) :
    numbers? (v.toList.map identifier) = some v := by
  have hread : ∀ text ∈ v.toList, readNumber? (identifier text) = some text.toList :=
    fun text htext => readNumber?_flatMap (h text htext)
  obtain ⟨x, y, z⟩ := v
  simp only [Vec3.toList, List.forall_mem_cons] at hread
  obtain ⟨hx, hy, hz, -⟩ := hread
  simp [Vec3.toList, numbers?, hx, hy, hz]

theorem start?_ending {start : Option (Vec3 String)} (h : ∀ v ∈ start, ∀ text ∈ v.toList, Numerals text) :
    start? (ending start) = some start := by
  cases start with
  | none => rfl
  | some v => rw [ending, start?, if_pos rfl, numbers?_identifier (h v rfl), Option.map_some]

/-! ### Names of bounds -/

/-- Whether all texts that are told are those of numbers. -/
structure Numeric (t : Told) : Prop where
  extents : ∀ text ∈ t.extents.toList, Numerals text
  start : ∀ v ∈ t.start, ∀ text ∈ v.toList, Numerals text

theorem numeric_ofBounds (b : Bounds Float) (u : UnitSystem) (theme : Theme) : (ofBounds b u theme).Numeric where
  extents := by
    intro text htext
    simp only [ofBounds, Vec3.toList, List.mem_cons, List.not_mem_nil, or_false] at htext
    rcases htext with rfl | rfl | rfl <;> exact numerals_extentLabel u _
  start := by
    intro v hv text htext
    simp only [ofBounds] at hv
    split at hv
    · cases hv
    · cases hv
      simp only [Vec3.toList, List.mem_cons, List.not_mem_nil, or_false] at htext
      rcases htext with rfl | rfl | rfl <;> exact numerals_number _

section Pieces

variable {t : Told} (numeric : t.Numeric)
include numeric

/-- **The pieces of a name have letters and digits only.** -/
theorem alphanumeric_pieces : ∀ piece ∈ t.pieces, ∀ c ∈ piece, c.isAlphanum = true := by
  have hword : ∀ word : String, word.toList.all Char.isAlphanum = true → ∀ c ∈ word.toList, c.isAlphanum = true :=
    fun word h => List.all_eq_true.1 h
  have hnumber : ∀ text, Numerals text → ∀ c ∈ identifier text, c.isAlphanum = true :=
    fun text h c hc => (alphanumeric_identifier h c hc).1
  have hextents : ∀ c ∈ ['x'].intercalate (t.extents.toList.map identifier), c.isAlphanum = true := by
    intro c hc
    rcases mem_intercalate hc with hc | ⟨piece, hpiece, hc⟩
    · cases List.mem_singleton.1 hc
      decide
    · obtain ⟨text, htext, rfl⟩ := List.mem_map.1 hpiece
      exact hnumber text (numeric.extents text htext) c hc
  have hending : ∀ piece ∈ ending t.start, ∀ c ∈ piece, c.isAlphanum = true := by
    cases hstart : t.start with
    | none => simp [ending]
    | some v =>
      refine List.forall_mem_cons.2 ⟨hword _ (by decide), List.forall_mem_map.2 fun text htext => ?_⟩
      exact hnumber text (numeric.start v hstart text htext)
  exact List.forall_mem_cons.2 ⟨hword _ (by decide), List.forall_mem_cons.2 ⟨hword _ (by cases t.theme <;> decide),
    List.forall_mem_cons.2 ⟨hextents, List.forall_mem_cons.2 ⟨hword _ (by cases t.unit <;> decide), hending⟩⟩⟩⟩

/-- The pieces of a name are found between its bars, and the extents between their crosses. -/
theorem ofName?_pieces {name : String} (hname : name.toList = ['_'].intercalate t.pieces) : ofName? name = some t := by
  have hbars : name.toList.splitOn '_' = t.pieces := by
    rw [hname]
    refine List.splitOn_intercalate '_' (fun piece hpiece hmem => ?_) (by simp [pieces])
    exact absurd (alphanumeric_pieces numeric piece hpiece '_' hmem) (by decide)
  have hcrosses : (['x'].intercalate (t.extents.toList.map identifier)).splitOn 'x' =
      t.extents.toList.map identifier := by
    refine List.splitOn_intercalate 'x' (fun piece hpiece hmem => ?_) (by simp [Vec3.toList])
    obtain ⟨text, htext, rfl⟩ := List.mem_map.1 hpiece
    exact (alphanumeric_identifier (numeric.extents text htext) 'x' hmem).2 rfl
  rw [ofName?, hbars, pieces]
  simp [hcrosses, ofExactName?_name, unit?_baseUnit, numbers?_identifier numeric.extents, start?_ending numeric.start]

end Pieces
end Told

/-! ## Names of modules -/

/-- Whether a character may stand in an identifier. -/
def isIdentifierChar (c : Char) : Bool := c.isAlphanum || c == '_'

section Names

variable (b : Bounds Float) (u : UnitSystem) (theme : Theme)

/-- A name is its pieces with bars between them. -/
theorem toList_moduleName : (moduleName b u theme).toList = ['_'].intercalate (Told.ofBounds b u theme).pieces := by
  have horigin : "_".intercalate (b.origin.map fun a => identifierNumber (number a)) =
      identifierNumber (number b.x.min) ++ "_" ++ identifierNumber (number b.y.min) ++ "_"
        ++ identifierNumber (number b.z.min) := rfl
  simp only [moduleName, horigin, Told.ofBounds, Told.pieces]
  split
  · simp [List.intercalate_cons_cons, toList_identifierNumber, Vec3.toList, Told.ending]
  · simp [List.intercalate_cons_cons, toList_identifierNumber, Vec3.toList, Told.ending]

/-- **The name of a module is read as what it tells.** -/
theorem ofName?_moduleName : Told.ofName? (moduleName b u theme) = some (.ofBounds b u theme) :=
  Told.ofName?_pieces (Told.numeric_ofBounds b u theme) (toList_moduleName b u theme)

example : Told.ofName? "axis_light_60x20x20_mm_at_neg20_0p5_0" =
    some ⟨.light, .metric, ⟨"60", "20", "20"⟩, some ⟨"-20", "0.5", "0"⟩⟩ := by decide

theorem isIdentifierChar_moduleName : ∀ c ∈ (moduleName b u theme).toList, isIdentifierChar c = true := by
  intro c hc
  rw [toList_moduleName] at hc
  rw [isIdentifierChar, Bool.or_eq_true, beq_iff_eq]
  rcases mem_intercalate hc with hc | ⟨piece, hpiece, hc⟩
  · exact .inr (List.mem_singleton.1 hc)
  · exact .inl (Told.alphanumeric_pieces (Told.numeric_ofBounds b u theme) piece hpiece c hc)

theorem prefix_moduleName : "axis_".toList <+: (moduleName b u theme).toList := by
  rw [toList_moduleName, Told.pieces, List.intercalate_cons_cons]
  exact List.prefix_append "axis_".toList _

end Names

section Equal

variable {b₁ b₂ : Bounds Float} {u₁ u₂ : UnitSystem} {theme₁ theme₂ : Theme}

/-- Names are equal if and only if they tell the same. -/
theorem moduleName_eq_iff : moduleName b₁ u₁ theme₁ = moduleName b₂ u₂ theme₂ ↔
    Told.ofBounds b₁ u₁ theme₁ = Told.ofBounds b₂ u₂ theme₂ := by
  constructor
  · intro h
    apply Option.some.inj
    rw [← ofName?_moduleName, ← ofName?_moduleName, h]
  · intro h
    rw [← String.toList_inj, toList_moduleName, toList_moduleName, h]

/-- The same is told if themes, units and extents are the same, and both bounds begin at the origin or at coordinates
with equal texts. -/
theorem ofBounds_eq_iff : Told.ofBounds b₁ u₁ theme₁ = Told.ofBounds b₂ u₂ theme₂ ↔
    u₁ = u₂ ∧ theme₁ = theme₂ ∧
      (b₁.axes.map fun (_, r) => extentLabel u₁ r) = (b₂.axes.map fun (_, r) => extentLabel u₂ r) ∧
      b₁.originIsZero = b₂.originIsZero ∧
      (b₁.originIsZero = false → b₁.origin.map number = b₂.origin.map number) := by
  simp only [Told.ofBounds, Bounds.axes, Bounds.origin, List.map_cons, List.map_nil, Told.mk.injEq, Vec3.mk.injEq,
    List.cons.injEq, and_true]
  cases b₁.originIsZero <;> cases b₂.originIsZero <;> simp <;> tauto

end Equal

/-- **Names are identifiers, and equal names tell the same.** A name has letters, digits and bars only and begins with
`axis_`. Two names are equal if and only if their themes, their units and the three texts of their extents are, and
either both of their bounds begin at the origin or neither do, and then at coordinates with equal texts. -/
theorem moduleName_tells (b₁ b₂ : Bounds Float) (u₁ u₂ : UnitSystem) (theme₁ theme₂ : Theme) :
    (∀ c ∈ (moduleName b₁ u₁ theme₁).toList, isIdentifierChar c = true) ∧
      "axis_".toList <+: (moduleName b₁ u₁ theme₁).toList ∧
      Told.ofName? (moduleName b₁ u₁ theme₁) = some (.ofBounds b₁ u₁ theme₁) ∧
      (moduleName b₁ u₁ theme₁ = moduleName b₂ u₂ theme₂ ↔
        u₁ = u₂ ∧ theme₁ = theme₂ ∧
          (b₁.axes.map fun (_, r) => extentLabel u₁ r) = (b₂.axes.map fun (_, r) => extentLabel u₂ r) ∧
          b₁.originIsZero = b₂.originIsZero ∧
          (b₁.originIsZero = false → b₁.origin.map number = b₂.origin.map number)) :=
  ⟨isIdentifierChar_moduleName b₁ u₁ theme₁, prefix_moduleName b₁ u₁ theme₁, ofName?_moduleName b₁ u₁ theme₁,
    moduleName_eq_iff.trans ofBounds_eq_iff⟩

end SolidScript.Overlay
