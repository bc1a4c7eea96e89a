import SolidScript.Proofs.Document.Resolve

/-!
# Documents that are changed value by value

A relation between the values of each parameter type says what may be put in place of what. Parameters of a kind are
`ChangedParams` if for each declared parameter both give the same or related values, lists of nodes document by
document; undeclared parameters may be any. A document is `Changed` into another of the same kind with changed
parameters. If coercion does not tell related values apart, then building does not tell changed parameters apart
(`result_build_changed`), down to the last child.
-/

namespace SolidScript.Document

variable {options : Options}

section Changed

variable (R : ParamType → Json → Json → Prop)

mutual

/-- A document and what it may be changed into: itself, or a document of the same kind with changed parameters. -/
inductive Changed : Json → Json → Prop where
  | same (document : Json) : Changed document document
  | params {document other : Json} {kind : Kind} {params others : List (String × Json)} :
    named? document = some (kind, params) → named? other = some (kind, others) → ChangedParams kind params others →
    Changed document other

/-- The parameters of a kind and what they may be changed into, by the parameters that the kind declares. -/
inductive ChangedParams : Kind → List (String × Json) → List (String × Json) → Prop where
  | intro {kind : Kind} {params others : List (String × Json)} :
    (∀ p ∈ schema kind, ChangedValue p.type (Json.field? p.name params) (Json.field? p.name others)) →
    ChangedParams kind params others

/-- What is given for a parameter of a type, if anything is, and what it may be changed into. -/
inductive ChangedValue : ParamType → Option Json → Option Json → Prop where
  | same {t : ParamType} (value? : Option Json) : ChangedValue t value? value?
  | plain {t : ParamType} {value other : Json} : t ≠ .nodes → R t value other →
    ChangedValue t (some value) (some other)
  | nodes {items others : List Json} : List.Forall₂ Changed items others →
    ChangedValue .nodes (some (.array items)) (some (.array others))

end

end Changed

/-- Whether coercion gives the same for related values. -/
def CoercedAlike (R : ParamType → Json → Json → Prop) : Prop :=
  ∀ t value other, R t value other → Coerce.value? t value = Coerce.value? t other

variable {R : ParamType → Json → Json → Prop}

/-- No parameter is added and none is taken away. -/
theorem ChangedValue.isNone_eq {t : ParamType} {value? other? : Option Json} (h : ChangedValue R t value? other?) :
    value?.isNone = other?.isNone := by
  cases h <;> rfl

/-- What stands in place of a value is a value. -/
theorem ChangedValue.exists_some {t : ParamType} {value : Json} {other? : Option Json}
    (h : ChangedValue R t (some value) other?) : ∃ other, other? = some other := by
  cases h with
  | same => exact ⟨value, rfl⟩
  | plain | nodes => exact ⟨_, rfl⟩

theorem firstAbsent?_changed {kind : Kind} {params others : List (String × Json)}
    (h : ∀ p ∈ schema kind, ChangedValue R p.type (Json.field? p.name params) (Json.field? p.name others)) :
    firstAbsent? kind params = firstAbsent? kind others :=
  List.find?_congr fun p hp => by rw [(h p hp).isNone_eq]

mutual

/-- **Building does not tell changed parameters apart.** -/
theorem result_build_changed (hR : CoercedAlike R) {kind : Kind} {params others : List (String × Json)} :
    ChangedParams R kind params others → (build options kind params).result = (build options kind others).result
  | .intro h => by
    refine result_build_congr (firstAbsent?_changed h) fun p hp => ?_
    have hvalue := h p hp
    cases hfield : Json.field? p.name params with
    | none =>
      rw [hfield] at hvalue
      have habsent := Option.isNone_iff_eq_none.1 hvalue.isNone_eq.symm
      rw [valueOf_absent hfield, valueOf_absent habsent]
    | some value =>
      rw [hfield] at hvalue
      obtain ⟨other, hother⟩ := hvalue.exists_some
      rw [hother] at hvalue
      rw [valueOf_given hfield, valueOf_given hother, result_coerce_changed hR kind p hvalue]
termination_by sizeOf params
decreasing_by exact sizeOf_field? hfield

theorem result_coerce_changed (hR : CoercedAlike R) (kind : Kind) (p : Parameter) {value other : Json}
    (h : ChangedValue R p.type (some value) (some other)) :
    (coerce kind p ⟨value, readList options value⟩).result =
      (coerce kind p ⟨other, readList options other⟩).result := by
  obtain ⟨name, type, presence⟩ := p
  cases h with
  | same => rfl
  | plain hplain hrelated =>
    rw [coerce_plain hplain, coerce_plain hplain]
    simp only [hR _ _ _ hrelated]
  | nodes hitems =>
    rw [coerce_nodes rfl, coerce_nodes rfl]
    simp only [readList, Report.result_bind, Report.result_mapError, result_readItems_changed hR hitems]
termination_by sizeOf value

theorem result_readItems_changed (hR : CoercedAlike R) : ∀ {items others : List Json},
    List.Forall₂ (Changed R) items others →
      (readItems options items).result = (readItems options others).result
  | [], _, .nil => rfl
  | item :: rest, _, .cons hitem hrest => by
    simp only [readItems, Report.result_bind, result_read_changed hR hitem, result_readItems_changed hR hrest]
termination_by items => sizeOf items

/-- **Changed documents are read alike**: as the same node, or refused with the same error. -/
theorem result_read_changed (hR : CoercedAlike R) {document other : Json} :
    Changed R document other → (read options document).result = (read options other).result
  | .same _ => rfl
  | .params hdocument hother hparams => by
    have hsize := sizeOf_named? hdocument
    rw [read_named hdocument, read_named hother, Report.result_mapError, Report.result_mapError,
      result_build_changed hR hparams]
termination_by sizeOf document

end

end SolidScript.Document
