import SolidScript.Proofs.Document.Change
import SolidScript.Proofs.Document.Finite
import SolidScript.Proofs.Json.Decimal

/-!
# Numbers written as strings

Wherever a number may stand, the string of its text may stand too (`result_build_respelled`): in a value at any depth,
and in the documents below. The one exception are truth values, where 0 and 1 are numbers.

* `Coerce.number?_write`: the text of a number is coerced to that number.
* `Coerce.Lenient`: so a coercion that asks for numbers, for a text or for items coerced leniently is lenient as well,
  which goes through all types but those of truth values.
-/

namespace SolidScript

namespace Json

mutual

/-- A value, and the same value with some of its numbers written as strings. Numbers are those that a text can hold. -/
inductive Respells : Json → Json → Prop where
  | same (value : Json) : Respells value value
  | number {n : Number} : n.Exact → Respells (.number n) (.string n.write)
  | array {items others : List Json} : List.Forall₂ Respells items others → Respells (.array items) (.array others)
  | object {fields others : List (String × Json)} : List.Forall₂ RespellsField fields others →
    Respells (.object fields) (.object others)

/-- A field, and the same field with some numbers of its value written as strings. -/
inductive RespellsField : String × Json → String × Json → Prop where
  | value {key : String} {value other : Json} : Respells value other → RespellsField (key, value) (key, other)

end

end Json

namespace Coerce

open Json (Respells)

/-- The text of a number is coerced to that number. -/
theorem number?_write {n : Json.Number} (hn : n.Exact) : number? (.string n.write) = some n.toDouble := by
  have hread : number? (.number n) = some n.toDouble := rfl
  have hfinite : n.toDouble.isFinite = true := isFinite_number? (.number hn) hread
  rw [number?, Json.trim_write hn, Json.float?_write hn, Option.filter_some, if_pos hfinite]

/-- Lists are coerced alike if their items are. -/
theorem mapM_eq_of_forall₂ {α : Type} {R : Json → Json → Prop} {f : Json → Option α}
    (hf : ∀ value other, R value other → f value = f other) {items others : List Json}
    (h : List.Forall₂ R items others) : items.mapM f = others.mapM f := by
  induction h with
  | nil => rfl
  | cons hitem _ ih => rw [List.mapM_cons, List.mapM_cons, hf _ _ hitem, ih]

/-- A coercion that does not tell apart what only differs in how numbers are written. -/
def Lenient {α : Type} (f : Json → Option α) : Prop := ∀ value other, Respells value other → f value = f other

namespace Lenient

variable {α β : Type} {f : Json → Option α}

theorem number? : Lenient number? := by
  intro value other h
  cases h with
  | same => rfl
  | number hn => exact (number?_write hn).symm
  | array | object => rfl

theorem text? : Lenient text? := by
  intro value other h
  cases h with
  | same | number | array | object => rfl

theorem items (hf : Lenient f) : Lenient fun value => (items? value).bind fun items => items.mapM f := by
  intro value other h
  cases h with
  | same | number | object => rfl
  | array hitems => exact mapM_eq_of_forall₂ hf hitems

theorem bind (hf : Lenient f) (next : α → Option β) : Lenient fun value => (f value).bind next :=
  fun value other h => congrArg (Option.bind · next) (hf value other h)

theorem map (hf : Lenient f) (next : α → β) : Lenient fun value => (f value).map next :=
  fun value other h => congrArg (Option.map next) (hf value other h)

theorem or {f₁ f₂ : Json → Option α} (h₁ : Lenient f₁) (h₂ : Lenient f₂) :
    Lenient fun value => (f₁ value).or (f₂ value) := by
  intro value other h
  simp only [h₁ value other h, h₂ value other h]

theorem numbers? : Lenient numbers? := number?.items

theorem integer? : Lenient integer? := by
  intro value other h
  rw [Coerce.integer?, Coerce.integer?, number? value other h]

theorem point2? : Lenient point2? := numbers?.bind _

theorem point3? : Lenient point3? := numbers?.bind _

theorem indices? : Lenient indices? := (integer?.map _).items.items

theorem row? : Lenient row? := numbers?.bind _

theorem matrix? : Lenient matrix? := by
  intro value other h
  simp only [Coerce.matrix?, Option.bind_eq_bind, ← Option.bind_assoc]
  exact row?.items.bind Matrix4.ofRows? value other h

/-- Coercion to all but truth values is lenient. -/
theorem value? : ∀ {t : ParamType}, t ≠ .boolean → t ≠ .flags3 → Lenient (value? t)
  | .number, _, _ => number?
  | .integer, _, _ => integer?
  | .text, _, _ => text?
  | .vector2, _, _ => (number?.map _).or point2?
  | .vector3, _, _ => (number?.map _).or point3?
  | .angle, _, _ => (number?.map _).or (point3?.map _)
  | .points2, _, _ => point2?.items
  | .points3, _, _ => point3?.items
  | .indices, _, _ => indices?
  | .matrix, _, _ => matrix?
  | .nodes, _, _ => fun _ _ _ => rfl
  | .boolean, h, _ => absurd rfl h
  | .flags3, _, h => absurd rfl h

end Lenient
end Coerce

namespace Document

open Json (Respells)

/-- The values of a parameter type that only differ in how numbers are written. -/
def Respelled (t : ParamType) (value other : Json) : Prop := t ≠ .boolean ∧ t ≠ .flags3 ∧ Respells value other

theorem coercedAlike_respelled : CoercedAlike Respelled := by
  rintro t value other ⟨hboolean, hflags, h⟩
  exact Coerce.Lenient.value? hboolean hflags value other h

/-- **Numbers and the strings of their texts are interchangeable**: with either, a kind and its parameters are built
into the same node or refused with the same error, whatever else the parameters say, and so are all documents among
them. -/
theorem result_build_respelled {options : Options} {kind : Kind} {params others : List (String × Json)}
    (h : ChangedParams Respelled kind params others) :
    (build options kind params).result = (build options kind others).result :=
  result_build_changed coercedAlike_respelled h

/-- An angle, in a child an integer of 64 bits that is taken for a text, and in its child a radius with an exponent. -/
theorem result_build_respelled_nested :
    (build .standard .rotate [("a", .number (.double (-0.5))), ("children", .array [
      .object [("kind", .string "for_loop"), ("params", .object [
        ("expression", .number (.integer 18446744073709551615)), ("body", .array [
          .object [("kind", .string "sphere"), ("params", .object [("r", .number (.double 1e300))])]])])]])]).result =
    (build .standard .rotate [("a", .string "-0.5"), ("children", .array [
      .object [("kind", .string "for_loop"), ("params", .object [
        ("expression", .string "18446744073709551615"), ("body", .array [
          .object [("kind", .string "sphere"), ("params", .object [("r", .string "1e+300")])]])])]])]).result := by
  have hangle : Respells (.number (.double (-0.5))) (.string "-0.5") := by
    rw [show "-0.5" = (Json.Number.double (-0.5)).write by decide +kernel]
    exact .number (show Float.isFinite _ = true by decide +kernel)
  have hexpression : Respells (.number (.integer 18446744073709551615)) (.string "18446744073709551615") := by
    rw [show "18446744073709551615" = (Json.Number.integer 18446744073709551615).write by decide +kernel]
    exact .number ⟨by norm_num, by norm_num⟩
  have hradius : Respells (.number (.double 1e300)) (.string "1e+300") := by
    rw [show "1e+300" = (Json.Number.double 1e300).write by decide +kernel]
    exact .number (show Float.isFinite _ = true by decide +kernel)
  have hsphere : Changed Respelled
      (.object [("kind", .string "sphere"), ("params", .object [("r", .number (.double 1e300))])])
      (.object [("kind", .string "sphere"), ("params", .object [("r", .string "1e+300")])]) :=
    .params (named?_tag .sphere _) (named?_tag .sphere _) (.intro (List.forall_mem_cons.2
      ⟨.plain nofun ⟨nofun, nofun, hradius⟩, List.forall_mem_cons.2 ⟨.same none, nofun⟩⟩))
  refine result_build_respelled (.intro (List.forall_mem_cons.2 ⟨.plain nofun ⟨nofun, nofun, hangle⟩,
    List.forall_mem_cons.2 ⟨.same none, List.forall_mem_cons.2 ⟨.nodes (.cons ?_ .nil), nofun⟩⟩⟩))
  exact .params (named?_tag .forLoop _) (named?_tag .forLoop _) (.intro (List.forall_mem_cons.2
    ⟨.plain nofun ⟨nofun, nofun, hexpression⟩, List.forall_mem_cons.2 ⟨.nodes (.cons hsphere .nil), nofun⟩⟩))

end Document
end SolidScript
