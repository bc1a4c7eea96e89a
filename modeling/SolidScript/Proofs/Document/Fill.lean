import SolidScript.Proofs.Document.Children

/-!
# What settings are for

Settings give the resolution of nodes whose documents leave it out, and the tool height of rounded nodes whose
documents leave that out. `fill` puts the settings into a node wherever its document leaves such a gap. They do nothing
else: whatever the settings are, a document is refused with the same error or read as the same node but for its gaps.

* `get_gap`: a parameter that is left out has its default under the settings, and one that is given has the same value
  under all settings.
* `construct_fills`: so two nodes that are put together from the same parameters differ in their own gaps only.
* `fill_of_read`: what is read under some settings is what is read under others, filled.
* `fill_of_explicit`: there is nothing to fill where a document leaves no gap.
-/

namespace SolidScript

/-! ## Filling gaps -/

/-- The setting of a primitive changed. -/
def Primitive.mapResolution {α : Type} (f : UInt32 → UInt32) : Primitive α → Primitive α
  | .cylinder h r1 r2 center resolution => .cylinder h r1 r2 center (f resolution)
  | .sphere r resolution => .sphere r (f resolution)
  | .circle r resolution => .circle r (f resolution)
  | .text label => .text { label with resolution := f label.resolution }
  | p => p

/-- The settings of a shape changed. -/
def Shape.mapSettings {α : Type} (f : UInt32 → UInt32) (g : α → α) : Shape α → Shape α
  | .primitive p => .primitive (p.mapResolution f)
  | .derived (.curve c resolution) => .derived (.curve c (f resolution))
  | .derived (.rounded base rounding resolution) =>
    .derived (.rounded base { rounding with toolHeight := g rounding.toolHeight } (f resolution))

/-- A value that is given, or what stands in for it. -/
def orStandIn {α : Type} (params : List (String × Json)) (name : String) (standIn given : α) : α :=
  if (Json.field? name params).isSome then given else standIn

/-- A shape with the settings wherever its parameters leave a gap. -/
def Shape.fill (options : Options) (params : List (String × Json)) (shape : Shape Float) : Shape Float :=
  shape.mapSettings (orStandIn params "resolution" options.resolution)
    (orStandIn params "tool_height" options.toolHeight)

namespace Document

open Values

/-- The parameters that a document gives. -/
def given (document : Json) : List (String × Json) := ((named? document).map Prod.snd).getD []

mutual

/-- A node with the settings wherever its document, or one below it, leaves a gap. -/
def fill (options : Options) (document : Json) : Node Float → Node Float
  | .leaf shape => .leaf (shape.fill options (given document))
  | .apply op nodes => .apply op (fillAll options (children document) nodes)

/-- Nodes with the settings wherever their documents leave gaps. -/
def fillAll (options : Options) : List Json → List (Node Float) → List (Node Float)
  | document :: documents, node :: nodes => fill options document node :: fillAll options documents nodes
  | _, nodes => nodes

end

/-! ## The same parameters under two settings -/

/-- What holds of the values of two pieces of work, if both give one. -/
def Both {ε δ α β : Type} (R : α → β → Prop) (first : Except ε α) (second : Except δ β) : Prop :=
  ∀ a b, first = .ok a → second = .ok b → R a b

namespace Both

variable {ε δ α β α' β' : Type} {R : α' → β' → Prop} {S : α → β → Prop}

theorem of_eq {first second : Except ε α} (h : first = second) : Both Eq first second := by
  subst h
  intro a b ha hb
  exact Except.ok.inj (ha.symm.trans hb)

theorem trivial {first : Except ε α} {second : Except δ β} : Both (fun _ _ => True) first second :=
  fun _ _ _ _ => True.intro

theorem pure {a : α'} {b : β'} (h : R a b) : Both R (pure a : Except ε α') (pure b : Except δ β') := by
  rintro _ _ ⟨⟩ ⟨⟩
  exact h

theorem bind {first : Except ε α} {second : Except δ β} {next : α → Except ε α'} {next' : β → Except δ β'}
    (hfirst : Both S first second) (hnext : ∀ a b, S a b → Both R (next a) (next' b)) :
    Both R (first >>= next) (second >>= next') := by
  intro a' b' ha' hb'
  cases ha : first with
  | error e => rw [ha] at ha'; cases ha'
  | ok a =>
    cases hb : second with
    | error e => rw [hb] at hb'; cases hb'
    | ok b =>
      rw [ha] at ha'
      rw [hb] at hb'
      exact hnext a b (hfirst a b ha hb) a' b' ha' hb'

end Both

/-- Whether the value of a parameter is the same under all settings. -/
def isSteady : {t : ParamType} → Presence t → Bool
  | _, .default .resolution | _, .default .toolHeight => false
  | _, _ => true

/-- Whether a kind declares a parameter of a type, other than a list of nodes, that is the same under all settings. -/
def steady (kind : Kind) (name : String) (type : ParamType) : Bool :=
  (schema kind).any fun p => p.name == name && p.type == type && p.type != .nodes && isSteady p.presence

theorem standIn?_steady {p : Parameter} (h : isSteady p.presence = true) (o₁ o₂ : Options) :
    p.standIn? o₁ = p.standIn? o₂ := by
  obtain ⟨name, type, presence⟩ := p
  cases presence with
  | required => rfl
  | optional => rfl
  | default d =>
    cases d with
    | resolution => cases h
    | toolHeight => cases h
    | _ => rfl

/-- A parameter that is not given has what stands in for it. -/
theorem find?_absent {kind : Kind} {params : List (String × Json)} {options : Options}
    {entries : List (String × Value)}
    (h : (resolveAll options kind (supply options params) (schema kind)).result = .ok entries) {p : Parameter}
    (hp : p ∈ schema kind) (habsent : Json.field? p.name params = none) :
    find? p.name entries = p.standIn? options := by
  have hfound := find?_of_resolveAll h (schema_names_nodup kind) p hp
  rw [resolveOne, supplied?_supply, habsent, Option.map_none] at hfound
  exact (Except.ok.inj hfound).symm

section TwoRuns

variable {kind : Kind} {params : List (String × Json)} {o₁ o₂ : Options} {entries₁ entries₂ : List (String × Value)}
  (h₁ : (resolveAll o₁ kind (supply o₁ params) (schema kind)).result = .ok entries₁)
  (h₂ : (resolveAll o₂ kind (supply o₂ params) (schema kind)).result = .ok entries₂)
include h₁ h₂

/-- A parameter that is given, and is no list of nodes, has the same value in both. -/
theorem find?_given {p : Parameter} (hp : p ∈ schema kind) (hplain : p.type ≠ .nodes)
    (hgiven : (Json.field? p.name params).isSome) : find? p.name entries₁ = find? p.name entries₂ := by
  have hfirst := find?_of_resolveAll h₁ (schema_names_nodup kind) p hp
  have hsecond := find?_of_resolveAll h₂ (schema_names_nodup kind) p hp
  obtain ⟨raw, hraw⟩ := Option.isSome_iff_exists.1 hgiven
  rw [resolveOne, supplied?_supply, hraw, Option.map_some] at hfirst hsecond
  simp only [coerce_plain hplain] at hfirst hsecond
  exact Except.ok.inj (hfirst.symm.trans hsecond)

/-- A steady parameter has the same value in both, given or not. -/
theorem find?_steady {name : String} {type : ParamType} (h : steady kind name type = true) :
    find? name entries₁ = find? name entries₂ := by
  obtain ⟨p, hp, hd⟩ := List.any_eq_true.1 h
  obtain ⟨⟨⟨rfl, rfl⟩, hplain⟩, hsteady⟩ :
      ((p.name = name ∧ p.type = type) ∧ p.type ≠ .nodes) ∧ isSteady p.presence = true := by
    simpa using hd
  cases hfield : Json.field? p.name params with
  | some raw => exact find?_given h₁ h₂ hp hplain (by rw [hfield]; rfl)
  | none => rw [find?_absent h₁ hp hfield, find?_absent h₂ hp hfield, standIn?_steady hsteady o₁ o₂]

theorem get?_steady {name : String} {type : ParamType} (h : steady kind name type = true) :
    get? ⟨kind, entries₁⟩ name type = get? ⟨kind, entries₂⟩ name type := by
  simp only [get?, find?_steady h₁ h₂ h]
  rfl

theorem get_steady {name : String} {type : ParamType} (h : steady kind name type = true) :
    get ⟨kind, entries₁⟩ name type = get ⟨kind, entries₂⟩ name type := by
  rw [Values.get, Values.get, get?_steady h₁ h₂ h]

theorem radius_steady {name : String} (h : steady kind name .number = true) (common : Float) :
    radius ⟨kind, entries₁⟩ name common = radius ⟨kind, entries₂⟩ name common := by
  rw [radius, radius, get?_steady h₁ h₂ h]

theorem rotation_steady (ha : steady kind "a" .angle = true) (hv : steady kind "v" .vector3 = true) :
    Values.rotation ⟨kind, entries₁⟩ = Values.rotation ⟨kind, entries₂⟩ := by
  rw [Values.rotation, Values.rotation, get_steady h₁ h₂ ha, get_steady h₁ h₂ hv]

/-- **A gap is filled from the settings**: a parameter with a default has the default under the settings if it is left
out, and what is given for it otherwise. -/
theorem get_gap {name : String} {type : ParamType} {d : Default type} (hp : Parameter.given name d ∈ schema kind)
    (hplain : type ≠ .nodes) :
    Both (fun first second => second = orStandIn params name (d.value o₂) first)
      (get ⟨kind, entries₁⟩ name type) (get ⟨kind, entries₂⟩ name type) := by
  intro first second hfirst hsecond
  have hfind₁ := find?_of_get hfirst
  have hfind₂ := find?_of_get hsecond
  unfold orStandIn
  split
  · rename_i hgiven
    have hsame : find? name entries₁ = find? name entries₂ := find?_given h₁ h₂ hp hplain hgiven
    rw [hfind₁, hfind₂] at hsame
    cases hsame
    rfl
  · rename_i habsent
    have hstandIn : find? name entries₂ = some ⟨type, d.value o₂⟩ :=
      find?_absent h₂ hp (Option.not_isSome_iff_eq_none.1 habsent)
    rw [hfind₂] at hstandIn
    cases hstandIn
    rfl

theorem get_resolution (hp : Parameter.resolution ∈ schema kind) :
    Both (fun first second => second = orStandIn params "resolution" o₂.resolution first)
      (get ⟨kind, entries₁⟩ "resolution" .integer) (get ⟨kind, entries₂⟩ "resolution" .integer) :=
  get_gap h₁ h₂ (d := .resolution) hp (by decide)

theorem rounding_gap (hr : steady kind "round_r" .number = true) (hp : Parameter.toolHeight ∈ schema kind) :
    Both (fun first second => second =
        { first with toolHeight := orStandIn params "tool_height" o₂.toolHeight first.toolHeight })
      (rounding ⟨kind, entries₁⟩) (rounding ⟨kind, entries₂⟩) := by
  refine .bind (.of_eq (get_steady h₁ h₂ hr)) ?_
  rintro radius _ rfl
  refine .bind (get_gap h₁ h₂ (d := .toolHeight) hp (by decide)) ?_
  rintro height _ rfl
  exact .pure rfl

end TwoRuns

/-- A node and what it becomes when the gaps of its own parameters are filled; its children may be any. -/
inductive Fills (options : Options) (params : List (String × Json)) : Node Float → Node Float → Prop where
  | leaf (shape : Shape Float) : Fills options params (.leaf shape) (.leaf (shape.fill options params))
  | apply (op : Operation Float) (nodes others : List (Node Float)) :
    Fills options params (.apply op nodes) (.apply op others)

/-- **Nodes that are put together from the same parameters under two settings differ in their gaps only.** -/
theorem construct_fills {kind : Kind} {params : List (String × Json)} {o₁ o₂ : Options}
    {entries₁ entries₂ : List (String × Value)}
    (h₁ : (resolveAll o₁ kind (supply o₁ params) (schema kind)).result = .ok entries₁)
    (h₂ : (resolveAll o₂ kind (supply o₂ params) (schema kind)).result = .ok entries₂) :
    Both (Fills o₂ params) (construct ⟨kind, entries₁⟩) (construct ⟨kind, entries₂⟩) := by
  -- a value that is used is steady, or it is a gap, or it is a list of nodes, of which nothing is said here
  cases kind
  all_goals
    simp only [construct]
    repeat' first
      | refine .bind (.of_eq (get_steady h₁ h₂ (by decide))) ?_; rintro _ _ rfl
      | refine .bind (get_resolution h₁ h₂ (by simp [schema])) ?_; rintro _ _ rfl
      | refine .bind (rounding_gap h₁ h₂ (by decide) (by simp [schema])) ?_; rintro _ _ rfl
      | refine .bind (.of_eq (radius_steady h₁ h₂ (by decide) _)) ?_; rintro _ _ rfl
      | refine .bind (.of_eq (rotation_steady h₁ h₂ (by decide) (by decide))) ?_; rintro _ _ rfl
      | refine .bind (.of_eq (get?_steady h₁ h₂ (by decide))) ?_; rintro _ _ rfl
      | refine .bind .trivial fun _ _ _ => ?_
      | exact .pure (.leaf _)
      | exact .pure (.apply _ _ _)

/-! ## The same document under two settings -/

theorem given_of_named {document : Json} {kind : Kind} {params : List (String × Json)}
    (h : named? document = some (kind, params)) : given document = params := by
  rw [given, h]
  rfl

/-- A node that is read under two settings, but for its children. -/
theorem fills_of_read {o₁ o₂ : Options} {document : Json} {n₁ n₂ : Node Float}
    (h₁ : (read o₁ document).result = .ok n₁) (h₂ : (read o₂ document).result = .ok n₂) :
    Fills o₂ (given document) n₁ n₂ := by
  obtain ⟨kind, params, hnamed, hbuild₁⟩ := read_eq_ok h₁
  obtain ⟨_, _, hnamed₂, hbuild₂⟩ := read_eq_ok h₂
  cases hnamed.symm.trans hnamed₂
  obtain ⟨values₁, hvalues₁, hconstruct₁⟩ := Report.result_bind_eq_ok hbuild₁
  obtain ⟨values₂, hvalues₂, hconstruct₂⟩ := Report.result_bind_eq_ok hbuild₂
  obtain ⟨-, entries₁, hentries₁, rfl⟩ := resolve_eq_ok hvalues₁
  obtain ⟨-, entries₂, hentries₂, rfl⟩ := resolve_eq_ok hvalues₂
  rw [given_of_named hnamed]
  exact construct_fills hentries₁ hentries₂ n₁ n₂ hconstruct₁ hconstruct₂

mutual

/-- **What is read under some settings is what is read under others, filled.** -/
theorem fill_of_read {o₁ o₂ : Options} : ∀ {n₁ n₂ : Node Float} {document : Json},
    (read o₁ document).result = .ok n₁ → (read o₂ document).result = .ok n₂ → n₂ = fill o₂ document n₁
  | .leaf shape, n₂, document, h₁, h₂ => by
    cases fills_of_read h₁ h₂
    rw [fill]
  | .apply op nodes, n₂, document, h₁, h₂ => by
    have hnodes : List.Forall₂ _ nodes (children document) := (read_children h₁).2
    have hothers : List.Forall₂ _ n₂.children (children document) := (read_children h₂).2
    cases fills_of_read h₁ h₂ with
    | apply op nodes others => rw [fill, ← fillAll_of_read hnodes hothers, Tree.children]

theorem fillAll_of_read {o₁ o₂ : Options} : ∀ {items : List Json} {nodes others : List (Node Float)},
    List.Forall₂ (fun node item => (read o₁ item).result = .ok node) nodes items →
    List.Forall₂ (fun node item => (read o₂ item).result = .ok node) others items → others = fillAll o₂ items nodes
  | [], _, _, .nil, .nil => by
    rw [fillAll]
    nofun
  | item :: items, node :: nodes, other :: others, .cons hnode hnodes, .cons hother hothers => by
    rw [fillAll, ← fill_of_read hnode hother, ← fillAll_of_read hnodes hothers]

end

/-- The error of a document is the same under all settings. -/
theorem error?_read_options (o₁ o₂ : Options) (document : Json) :
    (read o₁ document).error? = (read o₂ document).error? := by
  rw [read_eq, read_eq]
  cases parts? document with
  | none => rfl
  | some parts =>
    obtain ⟨tag, params⟩ := parts
    simp only
    cases Kind.ofTag? tag with
    | none => rfl
    | some kind => simp only [Report.error?_mapError, error?_build]

/-! ## Documents without gaps -/

/-- A document that gives a resolution and a tool height if its kind has them, and so do all documents below it. -/
inductive Explicit : Json → Prop where
  | intro {document : Json} :
    (∀ kind params, named? document = some (kind, params) → ∀ p ∈ schema kind,
      p.name = "resolution" ∨ p.name = "tool_height" → (Json.field? p.name params).isSome) →
    (∀ item ∈ children document, Explicit item) → Explicit document

theorem orStandIn_of_given {α : Type} {params : List (String × Json)} {name : String}
    (h : (Json.field? name params).isSome) (standIn given : α) : orStandIn params name standIn given = given :=
  if_pos h

/-- There is nothing to fill in a shape whose parameters leave no gap. -/
theorem fill_shape_of_given {options : Options} {params : List (String × Json)} {shape : Shape Float}
    (h : ∀ p ∈ schema (Node.kind (.leaf shape)),
      p.name = "resolution" ∨ p.name = "tool_height" → (Json.field? p.name params).isSome) :
    shape.fill options params = shape := by
  have hresolution : Parameter.resolution ∈ schema (Node.kind (.leaf shape)) →
      (Json.field? "resolution" params).isSome := fun hp => h _ hp (.inl rfl)
  have htool : Parameter.toolHeight ∈ schema (Node.kind (.leaf shape)) →
      (Json.field? "tool_height" params).isSome := fun hp => h _ hp (.inr rfl)
  rcases shape with p | ⟨_ | _, _⟩ | ⟨_ | _ | _ | _ | _, _, _⟩
  · cases p with
    | cylinder | sphere | circle | text =>
      simp only [Shape.fill, Shape.mapSettings, Primitive.mapResolution,
        orStandIn_of_given (hresolution (by simp [Node.kind, Primitive.kind, schema]))]
    | _ => rfl
  all_goals
    simp only [Shape.fill, Shape.mapSettings]
    rw [orStandIn_of_given (hresolution (by simp [Node.kind, Derived.kind, schema]))]
  all_goals
    rw [orStandIn_of_given (htool (by simp [Node.kind, Derived.kind, schema]))]

mutual

/-- **There is nothing to fill where a document leaves no gap.** -/
theorem fill_of_explicit {o options : Options} : ∀ {node : Node Float} {document : Json},
    Mirrors o node document → Explicit document → fill options document node = node
  | .leaf shape, document, .intro _ hkind _, .intro hgiven _ => by
    obtain ⟨⟨kind, params⟩, hnamed, rfl⟩ := Option.map_eq_some_iff.1 hkind
    rw [fill, given_of_named hnamed, fill_shape_of_given (hgiven _ _ hnamed)]
  | .apply op nodes, document, .intro _ _ hchildren, .intro _ hbelow => by
    have hnodes : List.Forall₂ (Mirrors o) nodes (children document) := hchildren
    rw [fill, fillAll_of_explicit hnodes hbelow]

theorem fillAll_of_explicit {o options : Options} : ∀ {nodes : List (Node Float)} {documents : List Json},
    List.Forall₂ (Mirrors o) nodes documents → (∀ document ∈ documents, Explicit document) →
      fillAll options documents nodes = nodes
  | [], _, .nil, _ => by
    rw [fillAll]
    nofun
  | node :: nodes, document :: documents, .cons hnode hnodes, hall => by
    have hrest : ∀ other ∈ documents, Explicit other := fun other hother => hall other (List.mem_cons_of_mem _ hother)
    rw [fillAll, fill_of_explicit hnode (hall document List.mem_cons_self), fillAll_of_explicit hnodes hrest]

end

/-- **Settings fill gaps and do nothing else.** Under any two settings a document is refused with the same error, or it
is read as nodes each of which is the other filled under its own settings: they differ in the resolutions and the tool
heights that the document leaves out, and hold those of the settings there. A document that leaves out none is read the
same. -/
theorem read_options (o₁ o₂ : Options) (document : Json) :
    ((∃ error, (read o₁ document).result = .error error ∧ (read o₂ document).result = .error error) ∨
      ∃ n₁ n₂, (read o₁ document).result = .ok n₁ ∧ (read o₂ document).result = .ok n₂ ∧
        n₁ = fill o₁ document n₂ ∧ n₂ = fill o₂ document n₁) ∧
    (Explicit document → (read o₁ document).result = (read o₂ document).result) := by
  have herror := error?_read_options o₁ o₂ document
  cases h₁ : (read o₁ document).result with
  | error error =>
    rw [Report.error?_eq_some.2 h₁] at herror
    have h₂ := Report.error?_eq_some.1 herror.symm
    exact ⟨.inl ⟨error, rfl, h₂⟩, fun _ => h₂.symm⟩
  | ok n₁ =>
    rw [Report.error?_eq_none.2 ⟨n₁, h₁⟩] at herror
    obtain ⟨n₂, h₂⟩ := Report.error?_eq_none.1 herror.symm
    have hfill := fill_of_read h₁ h₂
    refine ⟨.inr ⟨n₁, n₂, rfl, h₂, fill_of_read h₂ h₁, hfill⟩, fun hexplicit => ?_⟩
    rw [h₂, hfill, fill_of_explicit (mirrors_of_read h₁) hexplicit]

end Document
end SolidScript
