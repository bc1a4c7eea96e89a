import Mathlib.Data.Finset.Sort
import Mathlib.Data.String.Basic
import SolidScript.Proofs.Document.Strip
import SolidScript.Proofs.Document.Finite
import SolidScript.Proofs.Document.RoundTrip
import SolidScript.Proofs.Json.Ordered
import SolidScript.Proofs.Text.Bytes

/-!
# What is warned about

Building a node warns about parameters that are not declared: about those of its children while they are built, and
about its own once all its declared parameters are fit. `warned` tells these warnings from the parameters alone: the
documents that are read are those up to the first that is not sound, in the lists of nodes up to the first parameter
that is unfit (`attempted`); each of them hands on its own warnings, also if it fails; the undeclared keys follow in
order if nothing is at fault, and nothing at all is said if a required parameter is absent.

* `warnings_resolveAll`, `warnings_readItems`: what a run over parameters, or over items, warns about.
* `warnings_build_step`: so building warns of what the attempted documents warn of, and then of its own keys.
* `warnings_build_eq`, `warnings_read_eq`: building and reading warn of what is `warned`, by one induction along the
  document.
* `warnings_readText`: so it is with whatever a text holds, since the fields that are read from a text are ordered.
* `warnings_build`: the keys that a node warns of come in the order of their bytes.
-/

namespace SolidScript

/-- The items of a list up to the first that does not fit, this one included. -/
def upTo {α : Type} (fits : α → Bool) : List α → List α
  | [] => []
  | a :: rest => a :: if fits a then upTo fits rest else []

theorem mem_of_mem_upTo {α : Type} {fits : α → Bool} {as : List α} {a : α} (h : a ∈ upTo fits as) : a ∈ as := by
  induction as with
  | nil => cases h
  | cons first rest ih =>
    rw [upTo] at h
    split at h
    · rcases List.mem_cons.1 h with rfl | hrest
      · exact List.mem_cons_self
      · exact List.mem_cons_of_mem _ (ih hrest)
    · rw [List.mem_singleton.1 h]
      exact List.mem_cons_self

namespace Report

variable {ε δ α β : Type}

@[simp] theorem warnings_pure (a : α) : (pure a : Report ε α).warnings = [] := rfl

@[simp] theorem warnings_fail (error : ε) : (fail error : Report ε α).warnings = [] := rfl

@[simp] theorem warnings_ofExcept (result : Except ε α) : (ofExcept result).warnings = [] := rfl

@[simp] theorem warnings_ofOption (error : ε) (value? : Option α) : (ofOption error value?).warnings = [] := by
  cases value? <;> rfl

@[simp] theorem warnings_mapError (f : ε → δ) (report : Report ε α) :
    (report.mapError f).warnings = report.warnings := rfl

/-- A sequence warns of what its first step warns of and, unless that fails, of what the next one does. -/
theorem warnings_bind {first : Report ε α} {next : α → Report ε β} {warnings : List Warning}
    (h : ∀ a, first.result = .ok a → (next a).warnings = warnings) :
    (first >>= next).warnings = first.warnings ++ if first.error?.isNone then warnings else [] := by
  show (first.andThen next).warnings = _
  unfold andThen error?
  cases hfirst : first.result with
  | error error => simp
  | ok a => simp [h a hfirst]

/-- A last step that is silent adds no warning. -/
theorem warnings_bind_silent {first : Report ε α} {next : α → Report ε β} (h : ∀ a, (next a).warnings = []) :
    (first >>= next).warnings = first.warnings := by
  rw [warnings_bind fun a _ => h a, ite_self, List.append_nil]

end Report

namespace Document

variable {options : Options} {kind : Kind}

/-! ## The warnings of parameters -/

/-- Whether a document names a kind and its parameters are not at fault. -/
def isSound (document : Json) : Bool := (named? document).any fun (kind, params) => (fault? kind params).isNone

/-- Whether what is given for a parameter, if anything is, has no fault. -/
def isFit (kind : Kind) (params : List (String × Json)) (p : Parameter) : Bool :=
  ((Json.field? p.name params).bind (valueFault? kind p)).isNone

/-- The documents that are given for a parameter. -/
def documentsOf (params : List (String × Json)) (p : Parameter) : List Json :=
  if p.type = .nodes then
    match Json.field? p.name params with
    | some (.array items) => items
    | _ => []
  else []

/-- The documents that are read while the parameters of a kind are examined. -/
def attempted (kind : Kind) (params : List (String × Json)) : List Json :=
  (upTo (isFit kind params) (schema kind)).flatMap fun p => upTo isSound (documentsOf params p)

/-- The keys that a kind does not declare, each once and in order. -/
def undeclared (kind : Kind) (params : List (String × Json)) : List String :=
  ((params.map Prod.fst).toFinset.filter fun key => (declared? kind key).isNone).sort

theorem field?_of_mem_documentsOf {params : List (String × Json)} {p : Parameter} {item : Json}
    (h : item ∈ documentsOf params p) : ∃ items, Json.field? p.name params = some (.array items) ∧ item ∈ items := by
  unfold documentsOf at h
  split at h
  · split at h
    · next items hfield => exact ⟨items, hfield, h⟩
    · cases h
  · cases h

theorem field?_of_mem_attempted {params : List (String × Json)} {item : Json} (h : item ∈ attempted kind params) :
    ∃ name items, Json.field? name params = some (.array items) ∧ item ∈ items := by
  obtain ⟨p, -, hitem⟩ := List.mem_flatMap.1 h
  obtain ⟨items, hfield, hmem⟩ := field?_of_mem_documentsOf (mem_of_mem_upTo hitem)
  exact ⟨p.name, items, hfield, hmem⟩

theorem sizeOf_of_mem_attempted {params : List (String × Json)} {item : Json} (h : item ∈ attempted kind params) :
    sizeOf item < sizeOf params := by
  obtain ⟨_, items, hfield, hitem⟩ := field?_of_mem_attempted h
  have hlist := sizeOf_field? hfield
  have hmem := List.sizeOf_lt_of_mem hitem
  simp only [Json.array.sizeOf_spec] at hlist
  omega

mutual

/-- The warnings about the parameters of a kind. -/
def warned (kind : Kind) (params : List (String × Json)) : List Warning :=
  if (firstAbsent? kind params).isSome then []
  else ((attempted kind params).attach.flatMap fun item => warnedIn item.1) ++
    if (fault? kind params).isNone then (undeclared kind params).map fun key => ⟨key, kind⟩ else []
termination_by sizeOf params
decreasing_by exact sizeOf_of_mem_attempted item.2

/-- The warnings about the parameters of a document. -/
def warnedIn (document : Json) : List Warning :=
  match _ : named? document with
  | some (kind, params) => warned kind params
  | none => []
termination_by sizeOf document
decreasing_by exact sizeOf_named? ‹_›

end

theorem warned_eq (kind : Kind) (params : List (String × Json)) : warned kind params =
    if (firstAbsent? kind params).isSome then []
    else (attempted kind params).flatMap warnedIn ++
      if (fault? kind params).isNone then (undeclared kind params).map fun key => ⟨key, kind⟩ else [] := by
  rw [warned, List.flatMap_subtype (fun _ _ => rfl), List.unattach_attach]

theorem warnedIn_of_named {document : Json} {params : List (String × Json)}
    (h : named? document = some (kind, params)) : warnedIn document = warned kind params := by
  rw [warnedIn]
  split
  · next h' =>
    cases h.symm.trans h'
    rfl
  · next h' => cases h.symm.trans h'

theorem warnedIn_of_unnamed {document : Json} (h : named? document = none) : warnedIn document = [] := by
  rw [warnedIn]
  split
  · next h' => cases h.symm.trans h'
  · rfl

/-! ## The warnings of a step -/

/-- A document is read without an error if it is sound. -/
theorem isNone_error?_read (item : Json) : (read options item).error?.isNone = isSound item := by
  have herror : ∀ kind p, (read options item).error?.isNone = (itemFault? kind p item).isNone := by
    intro kind p
    have hmapped : (read options item).error?.map (childError kind p) = itemFault? kind p item :=
      error?_read kind p item
    rw [← hmapped, Option.isNone_map]
  rw [isSound, herror .cube ⟨"", .nodes, .required⟩]
  cases hnamed : named? item with
  | none => rw [itemFault?_of_unnamed hnamed]; rfl
  | some named => rw [itemFault?_of_named hnamed]; rfl

/-- A document warns of what the parameters that it names warn of. -/
theorem warnings_read (item : Json) : (read options item).warnings =
    match named? item with
    | some (kind, params) => (build options kind params).warnings
    | none => [] := by
  rw [read_eq, named?]
  cases parts? item with
  | none => rfl
  | some parts => cases htag : Kind.ofTag? parts.1 with
    | none => simp [htag]
    | some kind => simp [htag]

/-- **Items are read up to the first that is not sound**, and each that is read hands its warnings on. -/
theorem warnings_readItems (items : List Json) : (readItems options items).warnings =
    (upTo isSound items).flatMap fun item => (read options item).warnings := by
  induction items with
  | nil => rw [readItems]; rfl
  | cons item rest ih =>
    rw [readItems, Report.warnings_bind fun _ _ => Report.warnings_bind_silent fun _ => Report.warnings_pure _,
      isNone_error?_read, ih, upTo, List.flatMap_cons]
    split <;> rfl

theorem error?_resolveOne_supply (params : List (String × Json)) (p : Parameter) :
    (resolveOne options kind (supply options params) p).error?.isNone = isFit kind params p := by
  rw [error?_resolveOne, supplied?_supply, isFit]
  cases Json.field? p.name params with
  | none => rfl
  | some value =>
    simp only [Option.map_some, Option.bind_some]
    rw [error?_coerce]

/-- A parameter warns of what its documents warn of, as far as they are read. -/
theorem warnings_resolveOne (params : List (String × Json)) (p : Parameter) :
    (resolveOne options kind (supply options params) p).warnings =
      (upTo isSound (documentsOf params p)).flatMap fun item => (read options item).warnings := by
  rw [resolveOne, supplied?_supply, documentsOf]
  cases Json.field? p.name params with
  | none => rw [ite_self]; rfl
  | some value =>
    simp only [Option.map_some]
    rw [Report.warnings_bind_silent fun _ => Report.warnings_pure _]
    by_cases hnodes : p.type = .nodes
    · rw [if_pos hnodes, coerce_nodes hnodes, Report.warnings_bind_silent fun _ => Report.warnings_pure _,
        Report.warnings_mapError]
      cases value with
      | array items => simp only [readList, warnings_readItems]
      | _ => simp only [readList]; rfl
    · rw [if_neg hnodes, coerce_plain hnodes, Report.warnings_ofOption]
      rfl

/-- **Parameters are examined up to the first that is unfit**, and each that is examined hands its warnings on. -/
theorem warnings_resolveAll (params : List (String × Json)) : ∀ ps : List Parameter,
    (resolveAll options kind (supply options params) ps).warnings =
      ((upTo (isFit kind params) ps).flatMap fun p => upTo isSound (documentsOf params p)).flatMap
        fun item => (read options item).warnings
  | [] => rfl
  | p :: rest => by
    rw [resolveAll, Report.warnings_bind fun _ _ => Report.warnings_bind_silent fun _ => Report.warnings_pure _,
      error?_resolveOne_supply, warnings_resolveOne, warnings_resolveAll params rest, upTo, List.flatMap_cons,
      List.flatMap_append]
    split <;> rfl

/-- Parameters that are all there are examined without an error if they are not at fault. -/
theorem error?_resolveAll_supply {params : List (String × Json)} (h : firstAbsent? kind params = none) :
    (resolveAll options kind (supply options params) (schema kind)).error? = fault? kind params := by
  have herror : (build options kind params).error? = fault? kind params := error?_build kind params
  rw [← herror, build, error?_buildSupplied, firstMissing?_supply, h, error?_resolveAll]

theorem unknownKeys_supply {params : List (String × Json)} (h : (params.map Prod.fst).Pairwise (· < ·)) :
    unknownKeys kind (schema kind) (supply options params) = (undeclared kind params).map fun key => ⟨key, kind⟩ := by
  have hkeys : undeclared kind params = (params.map Prod.fst).filter fun key => (declared? kind key).isNone := by
    have hfilter := h.filter fun key => (declared? kind key).isNone
    rw [undeclared, ← List.toFinset_filter, List.toFinset_sort]
    · exact hfilter.imp le_of_lt
    · exact hfilter.imp ne_of_lt
  rw [hkeys, unknownKeys, supply_eq_map, List.filter_map, List.map_map, List.filter_map, List.map_map]
  congr 1
  refine List.filter_congr fun param _ => ?_
  simp only [Function.comp, declared?]
  cases hfound : (schema kind).find? fun p => p.name == param.1 with
  | none => simpa using List.find?_eq_none.1 hfound
  | some p =>
    have hany : (schema kind).any (fun p => p.name == param.1) = true :=
      List.any_eq_true.2 ⟨p, List.mem_of_find?_eq_some hfound, by simpa using List.find?_some hfound⟩
    rw [hany]
    rfl

/-- **Building a node** warns of nothing if a required parameter is absent; else of what the documents that are read
warn of and, if nothing is at fault, of the keys that are not declared. -/
theorem warnings_build_step (options : Options) {params : List (String × Json)}
    (h : (params.map Prod.fst).Pairwise (· < ·)) : (build options kind params).warnings =
      if (firstAbsent? kind params).isSome then []
      else ((attempted kind params).flatMap fun item => (read options item).warnings) ++
        if (fault? kind params).isNone then (undeclared kind params).map fun key => ⟨key, kind⟩ else [] := by
  rw [build, buildSupplied, Report.warnings_bind_silent fun _ => Report.warnings_ofExcept _, resolve,
    firstMissing?_supply]
  cases habsent : firstAbsent? kind params with
  | some p => rfl
  | none =>
    have hlast : ∀ entries : List (String × Value),
        (do Report.warn (unknownKeys kind (schema kind) (supply options params))
            pure ⟨kind, entries⟩ : Report NodeError Values).warnings =
          (undeclared kind params).map fun key => ⟨key, kind⟩ := by
      intro entries
      rw [Report.warnings_bind_silent fun _ => Report.warnings_pure _, ← unknownKeys_supply h]
      rfl
    simp only
    rw [Report.warnings_bind fun entries _ => hlast entries, warnings_resolveAll, error?_resolveAll_supply habsent]
    rfl

theorem ordered_of_mem_attempted {params : List (String × Json)} (h : Json.Ordered (.object params)) {item : Json}
    (hitem : item ∈ attempted kind params) : item.Ordered := by
  obtain ⟨name, items, hfield, hmem⟩ := field?_of_mem_attempted hitem
  exact Json.ordered_array ((Json.ordered_object h).2 _ (Json.mem_of_field? hfield)) item hmem

theorem ordered_named? {document : Json} {params : List (String × Json)} (h : named? document = some (kind, params))
    (hdocument : document.Ordered) : Json.Ordered (.object params) := by
  obtain ⟨fields, rfl, rfl | hparams⟩ := named?_eq_some h
  · exact .object .nil fun _ hfield => absurd hfield List.not_mem_nil
  · exact (Json.ordered_object hdocument).2 _ (Json.mem_of_field? hparams)

mutual

/-- **Building warns of what is warned about the parameters**: the step again and again, along the document. -/
theorem warnings_build_eq (options : Options) {kind : Kind} {params : List (String × Json)}
    (h : Json.Ordered (.object params)) : (build options kind params).warnings = warned kind params := by
  rw [warnings_build_step options (Json.ordered_object h).1, warned_eq]
  have hitems : ∀ item ∈ attempted kind params, (read options item).warnings = warnedIn item := by
    intro item hitem
    have hsize := sizeOf_of_mem_attempted hitem
    exact warnings_read_eq options (ordered_of_mem_attempted h hitem)
  rw [List.flatMap_congr hitems]
termination_by sizeOf params

theorem warnings_read_eq (options : Options) {document : Json} (h : document.Ordered) :
    (read options document).warnings = warnedIn document := by
  rw [warnings_read]
  cases hnamed : named? document with
  | none => rw [warnedIn_of_unnamed hnamed]
  | some named =>
    obtain ⟨kind, params⟩ := named
    have hsize := sizeOf_named? hnamed
    rw [warnedIn_of_named hnamed]
    exact warnings_build_eq options (ordered_named? hnamed h)
termination_by sizeOf document

end

/-- **Reading a text warns of what is warned about the document that it holds**, if it holds one. -/
theorem warnings_readText (options : Options) (text : String) :
    (readText options text).warnings = ((Json.read? text).map warnedIn).getD [] := by
  unfold readText
  cases hread : Json.read? text with
  | none => rfl
  | some document => exact warnings_read_eq options (Json.ordered_read? hread)

theorem mem_undeclared {params : List (String × Json)} {key : String} :
    key ∈ undeclared kind params ↔ key ∈ params.map Prod.fst ∧ declared? kind key = none := by
  rw [undeclared, Finset.mem_sort, Finset.mem_filter, List.mem_toFinset, Option.isNone_iff_eq_none]

/-- **Warnings come in post-order, and only about nodes whose parameters were examined.** Building a node of any kind
with any ordered parameters warns of exactly what is `warned` about them, and the undeclared keys of a node are those
of its own parameters that its kind does not declare, each once, in the order of their bytes. -/
theorem warnings_build (options : Options) {kind : Kind} {params : List (String × Json)}
    (h : Json.Ordered (.object params)) :
    (build options kind params).warnings = warned kind params ∧
      (undeclared kind params).Pairwise (fun key other => Text.bytes key < Text.bytes other) ∧
      ∀ key, key ∈ undeclared kind params ↔ key ∈ params.map Prod.fst ∧ declared? kind key = none := by
  refine ⟨warnings_build_eq options h, ?_, fun key => mem_undeclared⟩
  exact (Finset.sortedLT_sort _).pairwise.imp Text.bytes_lt_bytes.2

/-- A union of a file with two undeclared parameters, of a union that fails at its second child, and of a hull that is
not reached. -/
theorem warnings_build_union :
    let document (kind : Kind) (params : List (String × Json)) : Json :=
      .object [("kind", .string kind.tag), ("params", .object params)]
    let file := document .imported [("children", .array []), ("file", .string "part.stl"), ("zoom", .null)]
    let broken := document .union [("children", .array [document .hull [("depth", .null)], .null]), ("name", .null)]
    let params : List (String × Json) :=
      [("children", .array [file, broken, document .hull [("late", .null)]]), ("name", .null)]
    let warnings : List Warning := [⟨"children", .imported⟩, ⟨"zoom", .imported⟩, ⟨"depth", .hull⟩]
    Json.Ordered (.object params) ∧ (build .standard .union params).warnings = warnings ∧
      (build .standard .union params).warnings = warned .union params ∧
      (undeclared .union params).Pairwise (fun key other => Text.bytes key < Text.bytes other) ∧
      ∀ key, key ∈ undeclared .union params ↔ key ∈ params.map Prod.fst ∧ declared? .union key = none := by
  intro document file broken params warnings
  have hordered : Json.Ordered (.object params) := Json.ordered_canonical (.object params)
  have hhull : read .standard (document .hull [("depth", .null)]) = ⟨[⟨"depth", .hull⟩], .ok (.apply .hull [])⟩ :=
    (read_named (named?_tag .hull _)).trans rfl
  have hfile : read .standard file =
      ⟨[⟨"children", .imported⟩, ⟨"zoom", .imported⟩], .ok (Node.drawn (.imported "part.stl" 10 false))⟩ :=
    (read_named (named?_tag .imported _)).trans rfl
  have hbroken : read .standard broken =
      ⟨[⟨"depth", .hull⟩], .error (.node (.mismatch .union "children" (ParamType.describe .nodes)))⟩ := by
    rw [read_named (named?_tag .union _), build, supply, supply, readList, readItems, hhull]
    rfl
  refine ⟨hordered, ?_, warnings_build .standard hordered⟩
  rw [build, supply, supply, readList, readItems, hfile, readItems, hbroken]
  rfl

end Document
end SolidScript
