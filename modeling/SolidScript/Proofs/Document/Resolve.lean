import SolidScript.Proofs.Document.Strip

/-!
# What parameters are resolved to

Building takes the declared parameters one by one. `valueOf` is what one of them comes to: the value that is given for
it, coerced, or what stands in for it.

* `result_build`: if no required parameter is absent then these values decide about the node, in the order of the
  schema.
* `result_build_congr`: so parameters that come to the same make the same node.
-/

namespace SolidScript.Document

variable {options : Options} {kind : Kind} {params others : List (String × Json)} {p : Parameter}

/-- What is given for a declared parameter, or stands in for it. -/
def valueOf (options : Options) (kind : Kind) (params : List (String × Json)) (p : Parameter) :
    Except NodeError (Option Value) :=
  (resolveOne options kind (supply options params) p).result

theorem valueOf_absent (h : Json.field? p.name params = none) :
    valueOf options kind params p = .ok (p.standIn? options) := by
  rw [valueOf, resolveOne, supplied?_supply, h]
  rfl

theorem valueOf_given {raw : Json} (h : Json.field? p.name params = some raw) : valueOf options kind params p =
    (coerce kind p ⟨raw, readList options raw⟩).result.map some := by
  rw [valueOf, resolveOne, supplied?_supply, h]
  simp only [Option.map_some, Report.result_bind]
  rfl

theorem valueOf_plain {raw : Json} (hplain : p.type ≠ .nodes) (h : Json.field? p.name params = some raw) :
    valueOf options kind params p =
      match Coerce.value? p.type raw with
      | some content => .ok (some ⟨p.type, content⟩)
      | none => .error (mismatch kind p) := by
  rw [valueOf_given h, coerce_plain hplain]
  cases Coerce.value? p.type raw <;> rfl

theorem valueOf_coerced {raw : Json} (hplain : p.type ≠ .nodes) {content : p.type.Carrier}
    (hraw : Coerce.value? p.type raw = some content) (h : Json.field? p.name params = some raw) :
    valueOf options kind params p = .ok (some ⟨p.type, content⟩) := by
  rw [valueOf_plain hplain h, hraw]

theorem valueOf_unfit {raw : Json} (hplain : p.type ≠ .nodes) (hraw : Coerce.value? p.type raw = none)
    (h : Json.field? p.name params = some raw) : valueOf options kind params p = .error (mismatch kind p) := by
  rw [valueOf_plain hplain h, hraw]

theorem valueOf_congr (h : Json.field? p.name others = Json.field? p.name params) :
    valueOf options kind others p = valueOf options kind params p := by
  rw [valueOf, valueOf, resolveOne, resolveOne, supplied?_supply, supplied?_supply, h]

/-- The values of parameters that are examined in order, by name. -/
def valuesOf (options : Options) (kind : Kind) (params : List (String × Json)) :
    List Parameter → Except NodeError (List (String × Value))
  | [] => .ok []
  | p :: rest => do return Values.hold p.name (← valueOf options kind params p) (← valuesOf options kind params rest)

theorem result_resolveAll (ps : List Parameter) :
    (resolveAll options kind (supply options params) ps).result = valuesOf options kind params ps := by
  induction ps with
  | nil => rfl
  | cons p rest ih =>
    rw [resolveAll, Report.result_bind, valuesOf]
    simp only [Report.result_bind, ih]
    rfl

open Values in
/-- What a declared parameter comes to is found under its name. -/
theorem valueOf_eq_find? {entries : List (String × Value)}
    (h : valuesOf options kind params (schema kind) = .ok entries) (hp : p ∈ schema kind) :
    valueOf options kind params p = .ok (find? p.name entries) :=
  find?_of_resolveAll ((result_resolveAll _).trans h) (schema_names_nodup kind) p hp

open Values in
theorem find?_undeclared {entries : List (String × Value)}
    (h : valuesOf options kind params (schema kind) = .ok entries) {name : String}
    (hname : name ∉ (schema kind).map Parameter.name) : find? name entries = none :=
  find?_resolveAll ((result_resolveAll _).trans h) hname

theorem isSome_of_firstAbsent? (h : firstAbsent? kind params = none) (hp : p ∈ schema kind)
    (hr : p.isRequired = true) : (Json.field? p.name params).isSome := by
  have hmissing : firstMissing? (supply .standard params) (schema kind) = none := (firstMissing?_supply params).trans h
  have hgiven := isSome_of_firstMissing? hmissing p hp hr
  rwa [supplied?_supply, Option.isSome_map] at hgiven

theorem result_build_absent (h : firstAbsent? kind params = some p) :
    (build options kind params).result = .error (.missing kind p.name) := by
  rw [build, buildSupplied, Report.result_bind, resolve, firstMissing?_supply, h]
  rfl

/-- **A node is built from the values of its parameters** if none that is required is absent. -/
theorem result_build (h : firstAbsent? kind params = none) : (build options kind params).result =
    (valuesOf options kind params (schema kind)).bind fun entries => construct ⟨kind, entries⟩ := by
  rw [build, buildSupplied, Report.result_bind, resolve, firstMissing?_supply, h]
  simp only [Report.result_bind, result_resolveAll]
  cases valuesOf options kind params (schema kind) <;> rfl

/-- **Parameters that come to the same make the same node**, or are refused with the same error. -/
theorem result_build_congr (habsent : firstAbsent? kind params = firstAbsent? kind others)
    (hvalues : ∀ p ∈ schema kind, valueOf options kind params p = valueOf options kind others p) :
    (build options kind params).result = (build options kind others).result :=
  result_buildSupplied_congr (by rw [firstMissing?_supply, firstMissing?_supply, habsent]) hvalues

/-! ## Children -/

/-- The nodes that are given as children of a kind; there are none by default. -/
def childrenOf (options : Options) (kind : Kind) (params : List (String × Json)) :
    Except NodeError (List (Node Float)) :=
  match Json.field? "children" params with
  | some raw => (readList options raw).result.mapError (childError kind .children)
  | none => .ok []

theorem valueOf_children : valueOf options kind params .children =
    (childrenOf options kind params).map fun nodes => some ⟨.nodes, nodes⟩ := by
  unfold childrenOf
  split
  · next raw h =>
    rw [valueOf_given h, coerce_nodes rfl, Report.result_bind, Report.result_mapError]
    cases (readList options raw).result <;> rfl
  · next h =>
    rw [valueOf_absent h]
    rfl

end SolidScript.Document
