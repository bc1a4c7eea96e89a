import SolidScript.Proofs.Document.Finite
import SolidScript.Proofs.Document.Resolve
import SolidScript.Proofs.Document.RoundTrip

/-!
# Defaults

What stands in for a parameter that is not given may as well be given (`result_build_writesOut`): a default in the form
that it has in JSON, and for the radii of the ends of a cylinder the common radius.

* `valueOf_written`: a default that is written out is coerced to itself.
* `construct_putsIn`: the radii of the ends have no value of their own, but a node does not change when they get that of
  the common radius.
* `result_build_cylinder`: what is given for the common radius is coerced once more in their place. If it is unfit, the
  error is that of the common radius, which is examined before.
-/

namespace SolidScript

/-- A double in a JSON text, which can hold finite ones only. -/
def Json.ofFinite (x : Float) : Json := if x.isFinite then .ofDouble x else .null

theorem Json.map_ofFinite {xs : List Float} (h : AllFinite xs) : xs.map Json.ofFinite = xs.map Json.ofDouble :=
  List.map_congr_left fun x hx => if_pos (h x hx)

namespace Default

/-- The form of a default in JSON. -/
def written (options : Options) {t : ParamType} : Default t → Json
  | .number x => .ofFinite x
  | .integer n => .ofWord32 n
  | .boolean b => .bool b
  | .text s => .string s
  | .vector3 v => .array (v.toList.map Json.ofFinite)
  | .flags3 v => .array (v.toList.map Json.bool)
  | .noNodes => .array []
  | .resolution => .ofWord32 options.resolution
  | .toolHeight => .ofFinite options.toolHeight

variable {options : Options} {t : ParamType}

/-- A finite default has the form of its value. -/
theorem written_eq {d : Default t} (h : Value.Finite ⟨t, d.value options⟩) :
    d.written options = Json.encode [] ⟨t, d.value options⟩ := by
  cases d with
  | number x => exact if_pos (Value.finite_number.1 h)
  | toolHeight => exact if_pos (Value.finite_number.1 h)
  | vector3 v => exact congrArg Json.array (Json.map_ofFinite (Value.finite_vector3.1 h))
  | _ => rfl

theorem fits (d : Default t) : Value.Fits ⟨t, d.value options⟩ := by
  cases d <;> exact trivial

/-- A default for a list of nodes has none. -/
theorem eq_nil_of_nodes {d : Default t} {nodes : List (Node Float)}
    (h : (⟨t, d.value options⟩ : Value) = ⟨.nodes, nodes⟩) : nodes = [] := by
  cases d <;> cases h
  rfl

end Default

namespace Document

variable {options : Options} {kind : Kind} {params others : List (String × Json)} {p : Parameter}

/-- The names of the radii of the ends of a cylinder. -/
def IsEndRadius (name : String) : Prop := name = "r1" ∨ name = "r2"

instance (name : String) : Decidable (IsEndRadius name) := instDecidableOr

/-- What may be given for a parameter in place of what stands in for it: the default of its own, or for the radius of an
end of a cylinder what is given for the common radius. -/
def written? (options : Options) (params : List (String × Json)) (p : Parameter) : Option Json :=
  match p.presence with
  | .required => none
  | .optional => if IsEndRadius p.name then Json.field? "r" params else none
  | .default d => some (d.written options)

/-- Parameters of a kind, and the same with some of those that are not given written out. -/
def WritesOut (options : Options) (kind : Kind) (params others : List (String × Json)) : Prop :=
  ∀ p ∈ schema kind, Json.field? p.name others = Json.field? p.name params ∨
    Json.field? p.name others = (Json.field? p.name params).or (written? options params p)

/-! ## Values of what is written out -/

/-- **A default that is written out is coerced to itself.** -/
theorem valueOf_written (htool : options.toolHeight.isFinite = true) (hp : p ∈ schema kind) {d : Default p.type}
    (hdefault : p.presence = .default d) (habsent : Json.field? p.name params = none)
    (hgiven : Json.field? p.name others = some (d.written options)) :
    valueOf options kind others p = valueOf options kind params p := by
  have hstandIn : p.standIn? options = some ⟨p.type, d.value options⟩ := by
    rw [Parameter.standIn?, hdefault]
  have hwritten := d.written_eq (p.finite_standIn htool (schema_hasFinite kind p hp) hstandIn)
  have hcoerce : coerce kind p ⟨d.written options, readList options (d.written options)⟩ =
      pure ⟨p.type, d.value options⟩ := by
    rw [hwritten]
    refine coerce_suppliedOf rfl d.fits fun nodes hnodes => ?_
    rw [Default.eq_nil_of_nodes hnodes, readItems]
  rw [valueOf_given hgiven, hcoerce, valueOf_absent habsent, hstandIn]
  rfl

/-- Only cylinders have ends, and the common radius is examined before those of the ends. -/
theorem schema_of_endRadius (hp : p ∈ schema kind) (hname : IsEndRadius p.name) :
    p.type = .number ∧ ∃ rest, schema kind = .need "h" .number :: .need "r" .number :: rest := by
  have hends : ∀ p ∈ schema kind, IsEndRadius p.name →
      p.type = .number ∧ (kind = .cylinder ∨ kind = .roundedCylinder) := by
    cases kind <;> decide
  obtain ⟨htype, rfl | rfl⟩ := hends p hp hname
  · exact ⟨htype, _, rfl⟩
  · exact ⟨htype, _, rfl⟩

section WritesOut

variable (htool : options.toolHeight.isFinite = true) (h : WritesOut options kind params others)
include h

theorem field?_required (hp : p ∈ schema kind) (hr : p.isRequired = true) :
    Json.field? p.name others = Json.field? p.name params := by
  rcases h p hp with hsame | hwritten
  · exact hsame
  · unfold Parameter.isRequired at hr
    unfold written? at hwritten
    split at hr
    · next hpresence =>
      rw [hpresence] at hwritten
      rw [hwritten, Option.or_none]
    · cases hr

theorem firstAbsent?_writesOut : firstAbsent? kind others = firstAbsent? kind params := by
  refine List.find?_congr fun p hp => ?_
  cases hr : p.isRequired with
  | true => rw [field?_required h hp hr]
  | false => rfl

include htool

/-- A parameter has the same value, or it is the radius of an end, which was absent and now is the common one. -/
theorem valueOf_writesOut (hp : p ∈ schema kind) : valueOf options kind others p = valueOf options kind params p ∨
    IsEndRadius p.name ∧ valueOf options kind params p = .ok none ∧
      Json.field? p.name others = Json.field? "r" params := by
  rcases h p hp with hsame | hwritten
  · exact .inl (valueOf_congr hsame)
  · cases hgiven : Json.field? p.name params with
    | some raw =>
      rw [hgiven, Option.some_or] at hwritten
      exact .inl (valueOf_congr (hwritten.trans hgiven.symm))
    | none =>
      rw [hgiven, Option.none_or] at hwritten
      cases hpresence : p.presence with
      | required =>
        simp only [written?, hpresence] at hwritten
        exact .inl (valueOf_congr (hwritten.trans hgiven.symm))
      | default d =>
        simp only [written?, hpresence] at hwritten
        exact .inl (valueOf_written htool hp hpresence hgiven hwritten)
      | optional =>
        simp only [written?, hpresence] at hwritten
        split at hwritten
        · next hname =>
          refine .inr ⟨hname, ?_, hwritten⟩
          rw [valueOf_absent hgiven, Parameter.standIn?, hpresence]
        · exact .inl (valueOf_congr (hwritten.trans hgiven.symm))

end WritesOut

/-! ## Entries with radii put in -/

open Values in
/-- Entries, and the same with the common radius put in for end radii that have none. -/
def PutsIn (entries entries' : List (String × Value)) : Prop :=
  ∀ name, find? name entries' = find? name entries ∨
    IsEndRadius name ∧ find? name entries = none ∧ find? name entries' = find? "r" entries

section PutsIn

open Values

variable {entries entries' : List (String × Value)} (h : PutsIn entries entries')
include h

theorem get?_putsIn {name : String} (hname : ¬ IsEndRadius name) (type : ParamType) :
    get? ⟨kind, entries'⟩ name type = get? ⟨kind, entries⟩ name type := by
  rcases h name with hsame | ⟨hend, -⟩
  · simp only [get?, hsame]
    rfl
  · exact absurd hend hname

theorem get_putsIn {name : String} (hname : ¬ IsEndRadius name) (type : ParamType) :
    get ⟨kind, entries'⟩ name type = get ⟨kind, entries⟩ name type := by
  rw [Values.get, Values.get, get?_putsIn h hname]

/-- An end radius that is put in is the one that stands in for it. -/
theorem radius_putsIn {common : Float} (hr : get ⟨kind, entries⟩ "r" .number = .ok common) (name : String) :
    radius ⟨kind, entries'⟩ name common = radius ⟨kind, entries⟩ name common := by
  rcases h name with hsame | ⟨-, hnone, hput⟩
  · simp only [radius, get?, hsame]
    rfl
  · rw [find?_of_get hr] at hput
    rw [radius, radius, get?_of_held hput, get?_of_absent hnone]
    rfl

theorem rotation_putsIn : rotation ⟨kind, entries'⟩ = rotation ⟨kind, entries⟩ := by
  rw [Values.rotation, Values.rotation, get_putsIn h (by decide), get_putsIn h (by decide)]

theorem rounding_putsIn : rounding ⟨kind, entries'⟩ = rounding ⟨kind, entries⟩ := by
  rw [Values.rounding, Values.rounding, get_putsIn h (by decide), get_putsIn h (by decide)]

/-- **A node does not change with radii that are put in.** -/
theorem construct_putsIn : construct ⟨kind, entries'⟩ = construct ⟨kind, entries⟩ := by
  have hnext : ∀ {β : Type} {first : Except NodeError Float} {next next' : Float → Except NodeError β},
      (∀ r, first = .ok r → next r = next' r) → first >>= next = first >>= next' := by
    intro β first next next' hr
    cases first with
    | error error => rfl
    | ok r => exact hr r rfl
  cases kind
  -- the radii of the ends are asked for when the common one is known
  case cylinder | roundedCylinder =>
    simp (disch := decide) only [construct, get_putsIn h, rounding_putsIn h]
    refine hnext fun r hr => ?_
    simp only [radius_putsIn h hr]
  all_goals simp (disch := decide) only [construct, get_putsIn h, get?_putsIn h, rotation_putsIn h, rounding_putsIn h]

end PutsIn

/-- What is given for the common radius has the same value for the radius of an end. -/
theorem valueOf_endRadius (htype : p.type = .number) (h : Json.field? p.name others = Json.field? "r" params)
    (hgiven : (Json.field? "r" params).isSome) {value? : Option Value}
    (hr : valueOf options kind params (.need "r" .number) = .ok value?) :
    valueOf options kind others p = valueOf options kind params (.need "r" .number) := by
  obtain ⟨raw, hraw⟩ := Option.isSome_iff_exists.1 hgiven
  obtain ⟨name, type, presence⟩ := p
  cases htype
  have hplain : ParamType.number ≠ .nodes := nofun
  cases hx : Coerce.number? raw with
  | some x =>
    have hend : valueOf options kind others ⟨name, .number, presence⟩ = .ok (some ⟨.number, x⟩) :=
      valueOf_coerced hplain hx (h.trans hraw)
    have hcommon : valueOf options kind params (.need "r" .number) = .ok (some ⟨.number, x⟩) :=
      valueOf_coerced hplain hx hraw
    rw [hend, hcommon]
  | none =>
    have herror : valueOf options kind params (.need "r" .number) = .error _ := valueOf_unfit hplain hx hraw
    rw [herror] at hr
    cases hr

/-! ## What is built -/

/-- Values that fail alike one by one fail alike in order. -/
theorem valuesOf_eq_error_iff {ps : List Parameter} {error : NodeError} (h : ∀ p ∈ ps, ∀ error,
      valueOf options kind others p = .error error ↔ valueOf options kind params p = .error error) :
    valuesOf options kind others ps = .error error ↔ valuesOf options kind params ps = .error error := by
  induction ps with
  | nil => exact ⟨nofun, nofun⟩
  | cons p rest ih =>
    have hrest := ih fun q hq => h q (List.mem_cons_of_mem _ hq)
    have hp := h p List.mem_cons_self
    have hlater : ∀ (value? : Option Value) (later : Except NodeError (List (String × Value))),
        (later.bind fun entries => .ok (Values.hold p.name value? entries)) = .error error ↔ later = .error error := by
      intro value? later
      cases later with
      | error e => exact Iff.rfl
      | ok entries => exact ⟨nofun, nofun⟩
    rw [valuesOf, valuesOf]
    cases hvalue : valueOf options kind params p with
    | error e =>
      rw [(hp e).2 hvalue]
      exact Iff.rfl
    | ok value? =>
      cases hother : valueOf options kind others p with
      | error e =>
        rw [(hp e).1 hother] at hvalue
        cases hvalue
      | ok other? => exact (hlater other? _).trans (hrest.trans (hlater value? _).symm)

section Ends

variable (h : ∀ p ∈ schema kind, valueOf options kind others p = valueOf options kind params p ∨
    IsEndRadius p.name ∧ valueOf options kind params p = .ok none ∧
      valueOf options kind others p = valueOf options kind params (.need "r" .number))
include h

theorem putsIn_of_valuesOf {entries entries' : List (String × Value)}
    (hentries : valuesOf options kind params (schema kind) = .ok entries)
    (hothers : valuesOf options kind others (schema kind) = .ok entries') (hmem : .need "r" .number ∈ schema kind) :
    PutsIn entries entries' := by
  intro name
  by_cases hname : name ∈ (schema kind).map Parameter.name
  · obtain ⟨p, hp, rfl⟩ := List.mem_map.1 hname
    have hfound := valueOf_eq_find? hentries hp
    have hother := valueOf_eq_find? hothers hp
    have hcommon := valueOf_eq_find? hentries hmem
    rcases h p hp with hsame | ⟨hend, hnone, hput⟩
    · exact .inl (Except.ok.inj (hother.symm.trans (hsame.trans hfound)))
    · exact .inr ⟨hend, Except.ok.inj (hfound.symm.trans hnone),
        Except.ok.inj (hother.symm.trans (hput.trans hcommon))⟩
  · exact .inl ((find?_undeclared hothers hname).trans (find?_undeclared hentries hname).symm)

/-- End radii that were absent may have the value of the common radius, if there is one. -/
theorem construct_valuesOf {value? : Option Value}
    (hr : valueOf options kind params (.need "r" .number) = .ok value?) (hmem : .need "r" .number ∈ schema kind) :
    ((valuesOf options kind others (schema kind)).bind fun entries => construct ⟨kind, entries⟩) =
      (valuesOf options kind params (schema kind)).bind fun entries => construct ⟨kind, entries⟩ := by
  have herror : ∀ error, valuesOf options kind others (schema kind) = .error error ↔
      valuesOf options kind params (schema kind) = .error error := by
    refine fun error => valuesOf_eq_error_iff fun p hp error => ?_
    rcases h p hp with hsame | ⟨-, hnone, hput⟩
    · rw [hsame]
    · rw [hnone, hput, hr]
      exact ⟨nofun, nofun⟩
  cases hentries : valuesOf options kind params (schema kind) with
  | error e => rw [(herror e).2 hentries]
  | ok entries =>
    cases hothers : valuesOf options kind others (schema kind) with
    | error e =>
      rw [(herror e).1 hothers] at hentries
      cases hentries
    | ok entries' => exact construct_putsIn (putsIn_of_valuesOf h hentries hothers hmem)

end Ends

/-- In a cylinder, the common radius is coerced before those of the ends: if it is unfit then these do not matter, and
if it is fit then so is what is written out for them. -/
theorem result_build_cylinder (htool : options.toolHeight.isFinite = true) (h : WritesOut options kind params others)
    {rest : List Parameter} (hschema : schema kind = .need "h" .number :: .need "r" .number :: rest) :
    (build options kind others).result = (build options kind params).result := by
  have hheight : .need "h" .number ∈ schema kind := by simp [hschema]
  have hradius : .need "r" .number ∈ schema kind := by simp [hschema]
  have hmissing := firstAbsent?_writesOut h
  cases habsent : firstAbsent? kind params with
  | some p => rw [result_build_absent (hmissing.trans habsent), result_build_absent habsent]
  | none =>
    rw [result_build (hmissing.trans habsent), result_build habsent]
    cases hcommon : valueOf options kind params (.need "r" .number) with
    | error e =>
      rw [hschema, valuesOf, valuesOf, valuesOf, valuesOf, valueOf_congr (field?_required h hheight rfl),
        valueOf_congr (field?_required h hradius rfl), hcommon]
      cases valueOf options kind params (.need "h" .number) <;> rfl
    | ok value? =>
      have hgiven := isSome_of_firstAbsent? habsent hradius rfl
      refine construct_valuesOf (fun p hp => (valueOf_writesOut htool h hp).imp_right ?_) hcommon hradius
      rintro ⟨hend, hnone, hfield⟩
      exact ⟨hend, hnone, valueOf_endRadius (schema_of_endRadius hp hend).1 hfield hgiven hcommon⟩

/-- **Writing out a default changes nothing**: whichever of the parameters that are not given are given as their
defaults, and end radii as the common radius, the node or the error stays the same. -/
theorem result_build_writesOut (htool : options.toolHeight.isFinite = true)
    (h : WritesOut options kind params others) :
    (build options kind others).result = (build options kind params).result := by
  by_cases hall : ∀ p ∈ schema kind, valueOf options kind others p = valueOf options kind params p
  · exact result_build_congr (firstAbsent?_writesOut h) hall
  -- what has another value is the radius of an end
  · simp only [not_forall] at hall
    obtain ⟨p, hp, hne⟩ := hall
    obtain ⟨hend, -⟩ := (valueOf_writesOut htool h hp).resolve_left hne
    obtain ⟨-, rest, hschema⟩ := schema_of_endRadius hp hend
    exact result_build_cylinder htool h hschema

/-- A rounded cylinder of which one end, the place, the tool and the resolution are written out, the end as a string. -/
theorem result_build_writesOut_end :
    (build .standard .roundedCylinder [("h", .ofNat 10), ("r", .string "2.5"), ("round_r", .ofDouble 0.5),
        ("r1", .string "2.5"), ("center", .bool false), ("tool_height", .ofDouble 0.001),
        ("resolution", .ofNat 32)]).result =
      (build .standard .roundedCylinder
        [("h", .ofNat 10), ("r", .string "2.5"), ("round_r", .ofDouble 0.5)]).result := by
  have htool : Options.standard.toolHeight.isFinite = true := by decide +kernel
  have hheight : Json.ofFinite Options.standard.toolHeight = .ofDouble 0.001 := if_pos htool
  refine result_build_writesOut htool (List.forall_mem_cons.2 ⟨.inl rfl, List.forall_mem_cons.2 ⟨.inl rfl,
    List.forall_mem_cons.2 ⟨.inl rfl, List.forall_mem_cons.2 ⟨.inr rfl, List.forall_mem_cons.2 ⟨.inl rfl,
    List.forall_mem_cons.2 ⟨.inr rfl, List.forall_mem_cons.2 ⟨.inr ?_, List.forall_mem_cons.2 ⟨.inr rfl,
    nofun⟩⟩⟩⟩⟩⟩⟩⟩)
  exact congrArg some hheight.symm

end Document
end SolidScript
