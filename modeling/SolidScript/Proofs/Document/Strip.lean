import Mathlib.Data.List.Find
import Mathlib.Data.List.Nodup
import SolidScript.Proofs.Document.Children

/-!
# What a document says in vain

A document may have other fields than its kind and its parameters, and parameters that its kind does not declare.
`strip` takes all of these away, in the document and in all documents below it that are reached through declared lists
of nodes. What is left is read as the same node, or refused with the same error; only warnings are lost.

* `field?_stripParams`: a declared parameter stays, with its value stripped if it is a list of nodes.
* `result_buildSupplied_congr`: building depends on nothing but what the declared parameters are resolved to.
* `result_build_strip`, `result_read_strip`: so the result stays the same, by one induction along the document.
* `bare_strip`: a stripped document is `Bare`, it says nothing in vain.
-/

namespace SolidScript.Document

variable {options : Options}

/-! ## Stripped documents -/

/-- The parameter that a kind declares under a name. -/
def declared? (kind : Kind) (name : String) : Option Parameter := (schema kind).find? fun p => p.name == name

mutual

/-- The document with nothing but its kind and its declared parameters, and so all documents that it declares as its
children. -/
def strip : Json → Json
  | .object fields => .object (stripFields ((tag? fields).bind Kind.ofTag?) fields)
  | document => document

/-- The fields that a document of a kind needs. -/
def stripFields (kind? : Option Kind) : List (String × Json) → List (String × Json)
  | [] => []
  | (key, value) :: rest =>
    if key = "kind" then (key, value) :: stripFields kind? rest
    else if key = "params" then (key, stripBag kind? value) :: stripFields kind? rest
    else stripFields kind? rest

/-- The object that holds the parameters of a kind. Those of an unknown kind stay as they are. -/
def stripBag (kind? : Option Kind) : Json → Json
  | .object params =>
    match kind? with
    | some kind => .object (stripParams kind params)
    | none => .object params
  | value => value

/-- The parameters that a kind declares. -/
def stripParams (kind : Kind) : List (String × Json) → List (String × Json)
  | [] => []
  | (key, value) :: rest =>
    match declared? kind key with
    | some p => (key, if p.type = .nodes then stripList value else value) :: stripParams kind rest
    | none => stripParams kind rest

/-- A list of stripped documents. -/
def stripList : Json → Json
  | .array items => .array (stripItems items)
  | value => value

/-- Stripped documents. -/
def stripItems : List Json → List Json
  | [] => []
  | item :: rest => strip item :: stripItems rest

end

/-- The value of a declared parameter, stripped if it is a list of nodes. -/
def stripValue (p : Parameter) (value : Json) : Json := if p.type = .nodes then stripList value else value

/-! ### What is left -/

/-- The parameters of a kind are told apart by their names. -/
theorem declared?_of_mem {kind : Kind} {p : Parameter} (h : p ∈ schema kind) : declared? kind p.name = some p := by
  have hsome : (declared? kind p.name).isSome := by
    rw [declared?, List.find?_isSome]
    exact ⟨p, h, beq_self_eq_true p.name⟩
  obtain ⟨q, hq⟩ := Option.isSome_iff_exists.1 hsome
  unfold declared? at hq
  have hname : q.name = p.name := by simpa using List.find?_some hq
  rw [declared?, hq, List.inj_on_of_nodup_map (schema_names_nodup kind) (List.mem_of_find?_eq_some hq) h hname]

/-- A declared parameter stays. -/
theorem field?_stripParams {kind : Kind} {p : Parameter} (h : p ∈ schema kind) (params : List (String × Json)) :
    Json.field? p.name (stripParams kind params) = (Json.field? p.name params).map (stripValue p) := by
  induction params with
  | nil =>
    rw [stripParams]
    rfl
  | cons param rest ih =>
    obtain ⟨key, value⟩ := param
    by_cases hkey : key = p.name
    · subst hkey
      rw [stripParams, declared?_of_mem h]
      simp only [Json.field?, if_true, Option.map_some, stripValue]
    · have hskip : Json.field? p.name ((key, value) :: rest) = Json.field? p.name rest := by
        rw [Json.field?, if_neg hkey]
      rw [hskip, ← ih, stripParams]
      cases declared? kind key with
      | some q => simp only [Json.field?, if_neg hkey]
      | none => rfl

example : stripParams .sphere [("r", .null), ("r1", .null), ("children", .array [.null])] = [("r", .null)] := rfl

theorem firstAbsent?_stripParams (kind : Kind) (params : List (String × Json)) :
    firstAbsent? kind (stripParams kind params) = firstAbsent? kind params := by
  refine List.find?_congr fun p hp => ?_
  rw [field?_stripParams hp, Option.isNone_map]

theorem tag?_stripFields (kind? : Option Kind) (fields : List (String × Json)) :
    tag? (stripFields kind? fields) = tag? fields := by
  have hfield : Json.field? "kind" (stripFields kind? fields) = Json.field? "kind" fields := by
    induction fields with
    | nil => rw [stripFields]
    | cons field rest ih =>
      obtain ⟨key, value⟩ := field
      rw [stripFields]
      split
      · simp only [Json.field?, if_pos ‹key = "kind"›]
      · split
        · simp only [Json.field?, if_neg ‹¬ key = "kind"›, ih]
        · simp only [Json.field?, if_neg ‹¬ key = "kind"›, ih]
  rw [tag?, tag?, hfield]

theorem field?_stripFields (kind? : Option Kind) (fields : List (String × Json)) :
    Json.field? "params" (stripFields kind? fields) = (Json.field? "params" fields).map (stripBag kind?) := by
  induction fields with
  | nil =>
    rw [stripFields]
    rfl
  | cons field rest ih =>
    obtain ⟨key, value⟩ := field
    rw [stripFields]
    split
    · have hne : key ≠ "params" := by
        rw [‹key = "kind"›]
        decide
      simp only [Json.field?, if_neg hne, ih]
    · split
      · simp only [Json.field?, if_pos ‹key = "params"›, Option.map_some]
      · simp only [Json.field?, if_neg ‹¬ key = "params"›, ih]

/-- The parameters that the kind declares, if it is known. -/
def keptParams : Option Kind → List (String × Json) → List (String × Json)
  | some kind, params => stripParams kind params
  | none, params => params

theorem paramsOf?_stripBag (kind? : Option Kind) (value? : Option Json) :
    paramsOf? (value?.map (stripBag kind?)) = (paramsOf? value?).map (keptParams kind?) := by
  cases kind? with
  | none => rcases value? with _ | (_ | _ | _ | _ | _ | _ | _) <;> simp [paramsOf?, stripBag, keptParams]
  | some kind =>
    rcases value? with _ | (_ | _ | _ | _ | _ | _ | _) <;> simp [paramsOf?, stripBag, keptParams, stripParams]

/-- The tag stays, and so do the declared parameters of the kind that it names. -/
theorem parts?_strip (document : Json) : parts? (strip document) =
    (parts? document).map fun (tag, params) => (tag, keptParams (Kind.ofTag? tag) params) := by
  cases document with
  | object fields =>
    rw [strip, parts?, tag?_stripFields, field?_stripFields, parts?]
    cases tag? fields with
    | none => rfl
    | some tag =>
      rw [Option.bind_some, paramsOf?_stripBag]
      cases paramsOf? (Json.field? "params" fields) <;> rfl
  | _ => simp only [strip, parts?, Option.map_none]

/-! ## What is read -/

/-- Values of parameters that are resolved alike are alike. -/
theorem result_resolveAll_congr {kind : Kind} {bag bag' : List (String × Supplied)} {ps : List Parameter}
    (h : ∀ p ∈ ps, (resolveOne options kind bag p).result = (resolveOne options kind bag' p).result) :
    (resolveAll options kind bag ps).result = (resolveAll options kind bag' ps).result := by
  induction ps with
  | nil => rfl
  | cons p rest ih =>
    have hrest := ih fun q hq => h q (List.mem_cons_of_mem _ hq)
    simp only [resolveAll, Report.result_bind, h p List.mem_cons_self, hrest]

/-- **Building depends on the declared parameters only**: on which of them are given, and on what each is resolved
to. -/
theorem result_buildSupplied_congr {kind : Kind} {bag bag' : List (String × Supplied)}
    (hmissing : firstMissing? bag (schema kind) = firstMissing? bag' (schema kind))
    (hvalues : ∀ p ∈ schema kind,
      (resolveOne options kind bag p).result = (resolveOne options kind bag' p).result) :
    (buildSupplied options kind bag).result = (buildSupplied options kind bag').result := by
  have hresolve : (resolve options kind bag).result = (resolve options kind bag').result := by
    rw [resolve, resolve, hmissing]
    cases firstMissing? bag' (schema kind) with
    | some p => rfl
    | none => simp only [Report.result_bind, result_resolveAll_congr hvalues]; rfl
  rw [buildSupplied, Report.result_bind, hresolve, buildSupplied, Report.result_bind]

mutual

/-- **Undeclared parameters do not matter** to what is built. -/
theorem result_build_strip (kind : Kind) (params : List (String × Json)) :
    (build options kind (stripParams kind params)).result = (build options kind params).result := by
  refine result_buildSupplied_congr ?_ fun p hp => ?_
  · rw [firstMissing?_supply, firstMissing?_supply, firstAbsent?_stripParams]
  · rw [resolveOne, resolveOne, supplied?_supply, supplied?_supply, field?_stripParams hp]
    cases h : Json.field? p.name params with
    | none => rfl
    | some value =>
      simp only [Option.map_some, Report.result_bind, result_coerce_strip kind p value]
termination_by sizeOf params
decreasing_by exact sizeOf_field? h

theorem result_coerce_strip (kind : Kind) (p : Parameter) (value : Json) :
    (coerce kind p ⟨stripValue p value, readList options (stripValue p value)⟩).result =
      (coerce kind p ⟨value, readList options value⟩).result := by
  by_cases hnodes : p.type = .nodes
  · rw [coerce_nodes hnodes, coerce_nodes hnodes, stripValue, if_pos hnodes]
    cases value with
    | array items =>
      simp only [stripList, readList, Report.result_bind, Report.result_mapError, result_readItems_strip items]
    | _ => simp only [stripList]
  · rw [stripValue, if_neg hnodes]
termination_by sizeOf value

theorem result_readItems_strip : ∀ items : List Json,
    (readItems options (stripItems items)).result = (readItems options items).result
  | [] => by rw [stripItems]
  | item :: rest => by
    simp only [stripItems, readItems, Report.result_bind, result_read_strip item, result_readItems_strip rest]
termination_by items => sizeOf items

/-- **What a document says in vain does not matter**: without it the document is read as the same node, or refused with
the same error. -/
theorem result_read_strip (document : Json) :
    (read options (strip document)).result = (read options document).result := by
  rw [read_eq, read_eq, parts?_strip]
  cases hparts : parts? document with
  | none => rfl
  | some parts =>
    obtain ⟨tag, params⟩ := parts
    have hsize := sizeOf_parts? hparts
    simp only [Option.map_some]
    cases Kind.ofTag? tag with
    | none => rfl
    | some kind => simp only [keptParams, Report.result_mapError, result_build_strip kind params]
termination_by sizeOf document

end

/-! ## Documents without anything in vain -/

/-- A document with no other fields than its kind and its parameters and no parameters but declared ones, and so all
documents that it declares as its children. -/
inductive Bare : Json → Prop where
  | intro {document : Json} :
    (∀ fields, document = .object fields → ∀ field ∈ fields, field.1 = "kind" ∨ field.1 = "params") →
    (∀ kind params, named? document = some (kind, params) → ∀ param ∈ params, (declared? kind param.1).isSome) →
    (∀ item ∈ children document, Bare item) → Bare document

theorem key_of_mem_stripFields {kind? : Option Kind} {fields : List (String × Json)} :
    ∀ field ∈ stripFields kind? fields, field.1 = "kind" ∨ field.1 = "params" := by
  induction fields with
  | nil => simp [stripFields]
  | cons field rest ih =>
    obtain ⟨key, value⟩ := field
    rw [stripFields]
    split
    · exact List.forall_mem_cons.2 ⟨.inl ‹_›, ih⟩
    · split
      · exact List.forall_mem_cons.2 ⟨.inr ‹_›, ih⟩
      · exact ih

theorem isSome_declared?_of_mem {kind : Kind} {params : List (String × Json)} :
    ∀ param ∈ stripParams kind params, (declared? kind param.1).isSome := by
  induction params with
  | nil => simp [stripParams]
  | cons param rest ih =>
    obtain ⟨key, value⟩ := param
    rw [stripParams]
    split
    · next hp => exact List.forall_mem_cons.2 ⟨by rw [hp]; rfl, ih⟩
    · exact ih

theorem named?_strip (document : Json) :
    named? (strip document) = (named? document).map fun (kind, params) => (kind, stripParams kind params) := by
  rw [named?, parts?_strip, named?]
  cases parts? document with
  | none => rfl
  | some parts =>
    obtain ⟨tag, params⟩ := parts
    simp only [Option.map_some, Option.bind_some]
    cases Kind.ofTag? tag <;> rfl

theorem stripItems_eq_map (items : List Json) : stripItems items = items.map strip := by
  induction items with
  | nil => rw [stripItems, List.map_nil]
  | cons item rest ih => rw [stripItems, ih, List.map_cons]

/-- The declared children stay, stripped. -/
theorem children_strip (document : Json) : children (strip document) = (children document).map strip := by
  have hlisted : ∀ kind params, listed kind (stripParams kind params) = (listed kind params).map strip := by
    intro kind params
    unfold listed
    cases hp : nodeList? kind with
    | none => rfl
    | some p =>
      simp only [field?_stripParams (nodeList?_mem hp)]
      cases Json.field? p.name params with
      | none => rfl
      | some value =>
        rw [Option.map_some, stripValue, if_pos (nodeList?_type hp)]
        cases value with
        | array items => simp only [stripList, stripItems_eq_map]
        | _ => simp only [stripList, List.map_nil]
  rw [children, named?_strip, children]
  cases named? document with
  | none => rfl
  | some named => exact hlisted named.1 named.2

/-- **Nothing in vain is left** when a document is stripped. -/
theorem bare_strip (document : Json) : Bare (strip document) := by
  refine .intro ?_ ?_ ?_
  · intro fields hfields
    cases document with
    | object given =>
      rw [strip] at hfields
      cases hfields
      exact key_of_mem_stripFields
    | _ => simp [strip] at hfields
  · intro kind params hnamed
    rw [named?_strip] at hnamed
    obtain ⟨⟨kind', given⟩, -, he⟩ := Option.map_eq_some_iff.1 hnamed
    cases he
    exact isSome_declared?_of_mem
  · intro item hitem
    rw [children_strip] at hitem
    obtain ⟨source, hsource, rfl⟩ := List.mem_map.1 hitem
    have hsize := sizeOf_of_mem_children hsource
    exact bare_strip source
termination_by sizeOf document

/-- **Unknown data never influences the result.** Without the fields and parameters that mean nothing, at any depth, a
document is read as the same node, or refused with the same error. -/
theorem read_strip (options : Options) (document : Json) :
    Bare (strip document) ∧ (read options (strip document)).result = (read options document).result :=
  ⟨bare_strip document, result_read_strip document⟩

end SolidScript.Document
