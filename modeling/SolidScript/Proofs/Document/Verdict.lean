import SolidScript.Proofs.Document.Construct

/-!
# What is wrong with a node's parameters

`fault?` tells from the parameters alone, without reading or building anything, what is wrong with them: the first
required parameter that is absent, and if there is none the first parameter, in the order of the schema, whose value
is unfit. A list of documents is unfit by its first item that is: one of an unknown kind, or no document at all, makes
the list unfit, and one whose own parameters are at fault hands that fault on.

* `error?_build`: building fails with the fault of the parameters.
* `build_verdict`: so a node is built if and only if there is no fault, and what `resolve` accepts can always be put
  together.
-/

namespace SolidScript

namespace Report

variable {ε δ α β : Type}

/-- The error that ended the work. -/
def error? (report : Report ε α) : Option ε :=
  match report.result with
  | .error error => some error
  | .ok _ => none

@[simp] theorem error?_pure (a : α) : (pure a : Report ε α).error? = none := rfl

@[simp] theorem error?_fail (error : ε) : (fail error : Report ε α).error? = some error := rfl

theorem error?_ofOption (error : ε) (value? : Option α) :
    (ofOption error value?).error? = if value?.isSome then none else some error := by
  cases value? <;> rfl

@[simp] theorem error?_mapError (f : ε → δ) (report : Report ε α) :
    (report.mapError f).error? = report.error?.map f := by
  unfold error?
  rw [result_mapError]
  cases report.result <;> rfl

/-- A sequence fails where its first step does, or else where the next one does. -/
theorem error?_bind {first : Report ε α} {next : α → Report ε β} {error : Option ε}
    (h : ∀ a, first.result = .ok a → (next a).error? = error) : (first >>= next).error? = first.error?.or error := by
  cases hfirst : first.result with
  | error e =>
    unfold error?
    rw [result_bind_error hfirst, hfirst, Option.some_or]
  | ok a =>
    have hnext := h a hfirst
    unfold error? at hnext ⊢
    rw [result_bind_ok hfirst, hnext, hfirst, Option.none_or]

theorem error?_eq_some {report : Report ε α} {error : ε} :
    report.error? = some error ↔ report.result = .error error := by
  unfold error?
  cases report.result <;> simp

theorem error?_eq_none {report : Report ε α} : report.error? = none ↔ Succeeds report.result := by
  unfold error? Succeeds
  cases report.result <;> simp

end Report

namespace Document

variable {options : Options} {kind : Kind}

/-! ## The fault of parameters -/

/-- The parameters of a document, from the field that holds them; none are given if it is absent or null. -/
def paramsOf? : Option Json → Option (List (String × Json))
  | none | some .null => some []
  | some (.object params) => some params
  | some _ => none

/-- The tag and the parameters of a document. -/
def parts? : Json → Option (String × List (String × Json))
  | .object fields => do
    let tag ← tag? fields
    let params ← paramsOf? (Json.field? "params" fields)
    return (tag, params)
  | _ => none

/-- The first required parameter of a kind that is absent. -/
def firstAbsent? (kind : Kind) (params : List (String × Json)) : Option Parameter :=
  (schema kind).find? fun p => p.isRequired && (Json.field? p.name params).isNone

theorem sizeOf_field? {key : String} {value : Json} {fields : List (String × Json)}
    (h : Json.field? key fields = some value) : sizeOf value < sizeOf fields := by
  induction fields with
  | nil => cases h
  | cons field rest ih =>
    obtain ⟨k, v⟩ := field
    by_cases hk : k = key
    · rw [Json.field?, if_pos hk] at h
      cases h
      simp
      omega
    · rw [Json.field?, if_neg hk] at h
      have := ih h
      simp
      omega

theorem eq_of_paramsOf? {params : List (String × Json)} : ∀ {value? : Option Json},
    paramsOf? value? = some params → params = [] ∨ value? = some (.object params)
  | none, h => .inl (Option.some.inj h).symm
  | some .null, h => .inl (Option.some.inj h).symm
  | some (.object _), h => .inr (by cases h; rfl)

theorem sizeOf_parts? {tag : String} {params : List (String × Json)} : ∀ {document : Json},
    parts? document = some (tag, params) → sizeOf params < sizeOf document
  | .object fields, h => by
    obtain ⟨_, -, h⟩ := Option.bind_eq_some_iff.1 h
    obtain ⟨_, hparams, h⟩ := Option.bind_eq_some_iff.1 h
    cases h
    simp only [Json.object.sizeOf_spec]
    rcases eq_of_paramsOf? hparams with rfl | hobject
    · simp only [List.nil.sizeOf_spec]
      have : 0 < sizeOf fields := by
        cases fields <;> simp only [List.nil.sizeOf_spec, List.cons.sizeOf_spec] <;> omega
      omega
    · have := sizeOf_field? hobject
      simp only [Json.object.sizeOf_spec] at this
      omega

/-- The kind that a document names, and its parameters. -/
def named? (document : Json) : Option (Kind × List (String × Json)) :=
  (parts? document).bind fun (tag, params) => (Kind.ofTag? tag).map fun kind => (kind, params)

theorem sizeOf_named? {document : Json} {child : Kind} {params : List (String × Json)}
    (h : named? document = some (child, params)) : sizeOf params < sizeOf document := by
  obtain ⟨⟨tag, _⟩, hparts, h⟩ := Option.bind_eq_some_iff.1 h
  obtain ⟨_, -, he⟩ := Option.map_eq_some_iff.1 h
  cases he
  exact sizeOf_parts? hparts

mutual

/-- What is wrong with the parameters of a kind. -/
def fault? (kind : Kind) (params : List (String × Json)) : Option NodeError :=
  match firstAbsent? kind params with
  | some p => some (.missing kind p.name)
  | none =>
    (schema kind).findSome? fun p =>
      match _ : Json.field? p.name params with
      | some value => valueFault? kind p value
      | none => none
termination_by sizeOf params
decreasing_by exact sizeOf_field? ‹_›

/-- What is wrong with the value of a parameter. -/
def valueFault? (kind : Kind) (p : Parameter) (value : Json) : Option NodeError :=
  if p.type = .nodes then
    match value with
    | .array items => itemsFault? kind p items
    | _ => some (mismatch kind p)
  else if (Coerce.value? p.type value).isSome then none
  else some (mismatch kind p)
termination_by sizeOf value

/-- What is wrong with the first unfit item of a list of documents. -/
def itemsFault? (kind : Kind) (p : Parameter) : List Json → Option NodeError
  | [] => none
  | item :: rest => (itemFault? kind p item).or (itemsFault? kind p rest)
termination_by items => sizeOf items

/-- What is wrong with an item of a list of documents. -/
def itemFault? (kind : Kind) (p : Parameter) (item : Json) : Option NodeError :=
  match _ : named? item with
  | some (child, params) => fault? child params
  | none => some (mismatch kind p)
termination_by sizeOf item
decreasing_by exact sizeOf_named? ‹_›

end

theorem itemFault?_of_named {p : Parameter} {item : Json} {child : Kind} {params : List (String × Json)}
    (h : named? item = some (child, params)) : itemFault? kind p item = fault? child params := by
  rw [itemFault?]
  split
  · rename_i h'
    cases h.symm.trans h'
    rfl
  · simp_all

theorem itemFault?_of_unnamed {p : Parameter} {item : Json} (h : named? item = none) :
    itemFault? kind p item = some (mismatch kind p) := by
  rw [itemFault?]
  split
  · simp_all
  · rfl

/-! ## The error of a step -/

theorem error?_resolveOne (bag : List (String × Supplied)) (p : Parameter) :
    (resolveOne options kind bag p).error? = (supplied? p.name bag).bind fun s => (coerce kind p s).error? := by
  unfold resolveOne
  cases supplied? p.name bag with
  | none => rfl
  | some s => rw [Report.error?_bind fun _ _ => Report.error?_pure _, Option.or_none, Option.bind_some]

/-- The first value that cannot be coerced decides. -/
theorem error?_resolveAll (bag : List (String × Supplied)) (ps : List Parameter) :
    (resolveAll options kind bag ps).error? =
      ps.findSome? fun p => (supplied? p.name bag).bind fun s => (coerce kind p s).error? := by
  induction ps with
  | nil => rfl
  | cons p rest ih =>
    rw [resolveAll, Report.error?_bind fun _ _ => Report.error?_bind fun _ _ => Report.error?_pure _,
      error?_resolveOne, ih, Option.or_none, List.findSome?_cons]
    cases (supplied? p.name bag).bind fun s => (coerce kind p s).error? <;> rfl

/-- Building fails for want of a parameter, or where the first value cannot be coerced. -/
theorem error?_buildSupplied (bag : List (String × Supplied)) :
    (buildSupplied options kind bag).error? =
      match firstMissing? bag (schema kind) with
      | some p => some (.missing kind p.name)
      | none => (schema kind).findSome? fun p => (supplied? p.name bag).bind fun s => (coerce kind p s).error? := by
  -- putting the values together raises no error, so `resolve` alone decides
  have hconstruct : ∀ values, (resolve options kind bag).result = .ok values →
      (Report.ofExcept (construct values)).error? = none :=
    fun _ hvalues => Report.error?_eq_none.2 (construct_resolve hvalues)
  rw [buildSupplied, Report.error?_bind hconstruct, Option.or_none, resolve]
  cases firstMissing? bag (schema kind) with
  | some p => rfl
  | none =>
    simp only
    rw [Report.error?_bind fun _ _ => (rfl : Report.error? _ = none), error?_resolveAll]
    exact Option.or_none

/-! ## The error of building -/

theorem supplied?_supply (name : String) (params : List (String × Json)) :
    supplied? name (supply options params) = (Json.field? name params).map fun raw => ⟨raw, readList options raw⟩ := by
  induction params with
  | nil =>
    rw [supply]
    rfl
  | cons param rest ih =>
    rw [supply, supplied?, Json.field?, ih]
    split <;> rfl

theorem firstMissing?_supply (params : List (String × Json)) :
    firstMissing? (supply options params) (schema kind) = firstAbsent? kind params := by
  simp only [firstMissing?, firstAbsent?, supplied?_supply, Option.isNone_map]

theorem bagIn?_eq (fields : List (String × Json)) :
    bagIn? options fields = (paramsOf? (Json.field? "params" fields)).map (supply options) := by
  induction fields with
  | nil => rw [bagIn?, Json.field?, paramsOf?, Option.map_some, supply]
  | cons field rest ih =>
    obtain ⟨key, value⟩ := field
    rw [bagIn?, Json.field?, ih]
    split
    · cases value <;> simp only [bagOf?, paramsOf?, Option.map_some, Option.map_none, supply]
    · rfl

/-- A document is read by its tag and its parameters. -/
theorem read_eq (document : Json) :
    read options document =
      match parts? document with
      | some (tag, params) =>
        match Kind.ofTag? tag with
        | some kind => (build options kind params).mapError .node
        | none => .fail (.unknownKind tag)
      | none => .fail .malformed := by
  cases document with
  | object fields =>
    rw [read, bagIn?_eq, parts?]
    cases tag? fields with
    | none => rfl
    | some tag => cases paramsOf? (Json.field? "params" fields) <;> rfl
  | _ => simp only [read, parts?]

/-- A document that names a kind is read as a node of that kind. -/
theorem read_named {document : Json} {params : List (String × Json)} (h : named? document = some (kind, params)) :
    read options document = (build options kind params).mapError .node := by
  obtain ⟨⟨tag, given⟩, hparts, hrest⟩ := Option.bind_eq_some_iff.1 h
  obtain ⟨_, hkind, he⟩ := Option.map_eq_some_iff.1 hrest
  cases he
  rw [read_eq, hparts]
  simp only [hkind]

theorem coerce_nodes {p : Parameter} {supplied : Supplied} (h : p.type = .nodes) :
    coerce kind p supplied = do return ⟨.nodes, ← supplied.nodes.mapError (childError kind p)⟩ := by
  unfold coerce
  split
  · rfl
  · contradiction

theorem coerce_plain {p : Parameter} {supplied : Supplied} (h : p.type ≠ .nodes) :
    coerce kind p supplied =
      Report.ofOption (mismatch kind p) ((Coerce.value? p.type supplied.raw).map (Value.mk p.type)) := by
  unfold coerce
  split
  · contradiction
  · rfl

mutual

/-- **Building fails with the fault of the parameters.** -/
theorem error?_build (kind : Kind) (params : List (String × Json)) :
    (build options kind params).error? = fault? kind params := by
  rw [build, error?_buildSupplied, firstMissing?_supply, fault?]
  cases firstAbsent? kind params with
  | some p => rfl
  | none =>
    simp only [supplied?_supply]
    congr 1
    funext p
    cases h : Json.field? p.name params with
    | none => rfl
    | some value => exact error?_coerce kind p value
termination_by sizeOf params
decreasing_by exact sizeOf_field? h

theorem error?_coerce (kind : Kind) (p : Parameter) (value : Json) :
    (coerce kind p ⟨value, readList options value⟩).error? = valueFault? kind p value := by
  unfold valueFault?
  split
  · rename_i hnodes
    rw [coerce_nodes hnodes, Report.error?_bind fun _ _ => Report.error?_pure _, Option.or_none,
      Report.error?_mapError]
    cases value with
    | array items => simp only [readList, error?_readItems kind p items]
    | _ => simp only [readList, Report.error?_fail, Option.map_some, childError]
  · rename_i hplain
    rw [coerce_plain hplain, Report.error?_ofOption, Option.isSome_map]
termination_by sizeOf value

theorem error?_readItems (kind : Kind) (p : Parameter) : ∀ items : List Json,
    (readItems options items).error?.map (childError kind p) = itemsFault? kind p items
  | [] => by rw [readItems, itemsFault?]; rfl
  | item :: rest => by
    rw [readItems, Report.error?_bind fun _ _ => Report.error?_bind fun _ _ => Report.error?_pure _, itemsFault?,
      Option.or_none, Option.map_or, error?_read kind p item, error?_readItems kind p rest]
termination_by items => sizeOf items

theorem error?_read (kind : Kind) (p : Parameter) (item : Json) :
    (read options item).error?.map (childError kind p) = itemFault? kind p item := by
  rw [read_eq]
  cases hparts : parts? item with
  | none =>
    rw [itemFault?_of_unnamed (by rw [named?, hparts, Option.bind_none])]
    rfl
  | some parts =>
    obtain ⟨tag, params⟩ := parts
    cases htag : Kind.ofTag? tag with
    | none =>
      rw [itemFault?_of_unnamed (by simp only [named?, hparts, htag, Option.bind_some, Option.map_none])]
      simp only [htag, Report.error?_fail, Option.map_some, childError]
    | some child =>
      have := sizeOf_parts? hparts
      have hnamed : named? item = some (child, params) := by
        simp only [named?, hparts, htag, Option.bind_some, Option.map_some]
      rw [itemFault?_of_named hnamed, ← error?_build child params]
      simp only [htag, Report.error?_mapError, Option.map_map]
      exact congrFun Option.map_id_fun' _
termination_by sizeOf item

end

/-- **Acceptance and precedence of errors**: a node is refused with the fault of its parameters and with nothing else,
it is built if there is no fault, and no values that `resolve` gives are refused by `construct`. -/
theorem build_verdict (options : Options) (kind : Kind) (params : List (String × Json)) :
    (∀ error, (build options kind params).result = .error error ↔ fault? kind params = some error) ∧
      (Succeeds (build options kind params).result ↔ fault? kind params = none) ∧
      ∀ bag values, (resolve options kind bag).result = .ok values → Succeeds (construct values) := by
  have herror : (build options kind params).error? = fault? kind params := error?_build kind params
  refine ⟨fun error => ?_, ?_, fun _ _ hvalues => construct_resolve hvalues⟩
  · rw [← Report.error?_eq_some, herror]
  · rw [← Report.error?_eq_none, herror]

end Document
end SolidScript
