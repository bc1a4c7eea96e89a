import SolidScript.Document.Build

/-!
# Construction never fails

A value suits a parameter if it has its type, and no value suits an optional one. Values `Fit` a parameter if what they
hold under its name suits it.

* `resolveAll_fits`: the values of a schema's parameters fit every one of them.
* `construct_succeeds`: values that fit the schema of their kind make a node. `construct` uses a value only under a
  declared name and at the declared type, so neither a value of another type nor an absent one is ever met.
-/

namespace SolidScript

/-- Whether work gives a value. -/
def Succeeds {ε α : Type} (result : Except ε α) : Prop := ∃ a, result = .ok a

theorem Succeeds.pure {ε α : Type} (a : α) : Succeeds (pure a : Except ε α) := ⟨a, rfl⟩

/-- A sequence succeeds if its steps do. -/
theorem Succeeds.bind {ε α β : Type} {first : Except ε α} {next : α → Except ε β} (hfirst : Succeeds first)
    (hnext : ∀ a, Succeeds (next a)) : Succeeds (first >>= next) := by
  obtain ⟨a, rfl⟩ := hfirst
  exact hnext a

/-- The parameters of a kind have different names. -/
theorem schema_names_nodup (kind : Kind) : ((schema kind).map Parameter.name).Nodup := by
  cases kind <;> decide

namespace Values

/-- A value suits a parameter if it has its type; only an optional one may have none. -/
def Suits (p : Parameter) : Option Value → Prop
  | some value => value.type = p.type
  | none => p.presence = .optional

/-- What is held under the name of a parameter suits it. -/
def Fits (entries : List (String × Value)) (p : Parameter) : Prop := Suits p (find? p.name entries)

/-! ## Picking values by name -/

section Held

variable {kind : Kind} {entries : List (String × Value)} {name : String} {type : ParamType}

theorem get?_of_absent (h : find? name entries = none) : get? ⟨kind, entries⟩ name type = .ok none := by
  simp only [get?, h]

theorem get?_of_held {content : type.Carrier} (h : find? name entries = some ⟨type, content⟩) :
    get? ⟨kind, entries⟩ name type = .ok (some content) := by
  simp only [get?, h, dif_pos]

theorem get_of_held {content : type.Carrier} (h : find? name entries = some ⟨type, content⟩) :
    get ⟨kind, entries⟩ name type = .ok content := by
  rw [get, get?_of_held h]
  rfl

end Held

/-- Whether a kind declares a parameter of a type. -/
def declares (kind : Kind) (name : String) (type : ParamType) : Bool :=
  (schema kind).any fun p => p.name == name && p.type == type

/-- Whether a kind declares a parameter of a type that always has a value. -/
def provides (kind : Kind) (name : String) (type : ParamType) : Bool :=
  (schema kind).any fun p => p.name == name && p.type == type && !p.presence matches .optional

section Picking

variable {kind : Kind} {entries : List (String × Value)} (fits : ∀ p ∈ schema kind, Fits entries p)
include fits

theorem get?_succeeds {name : String} {type : ParamType} (h : declares kind name type = true) :
    Succeeds (get? ⟨kind, entries⟩ name type) := by
  obtain ⟨p, hp, hd⟩ := List.any_eq_true.1 h
  obtain ⟨rfl, rfl⟩ : p.name = name ∧ p.type = type := by simpa using hd
  have hfit : Suits p (find? p.name entries) := fits p hp
  cases hfound : find? p.name entries with
  | none => exact ⟨none, get?_of_absent hfound⟩
  | some value =>
    obtain ⟨type, content⟩ := value
    rw [hfound] at hfit
    cases (show type = p.type from hfit)
    exact ⟨some content, get?_of_held hfound⟩

theorem get_succeeds {name : String} {type : ParamType} (h : provides kind name type = true) :
    Succeeds (get ⟨kind, entries⟩ name type) := by
  obtain ⟨p, hp, hd⟩ := List.any_eq_true.1 h
  obtain ⟨⟨rfl, rfl⟩, hpresent⟩ : (p.name = name ∧ p.type = type) ∧ ¬ p.presence matches .optional := by
    simpa using hd
  have hfit : Suits p (find? p.name entries) := fits p hp
  cases hfound : find? p.name entries with
  | none =>
    rw [hfound] at hfit
    rw [show p.presence = .optional from hfit] at hpresent
    exact absurd rfl hpresent
  | some value =>
    obtain ⟨type, content⟩ := value
    rw [hfound] at hfit
    cases (show type = p.type from hfit)
    exact ⟨content, get_of_held hfound⟩

theorem radius_succeeds {name : String} (h : declares kind name .number = true) (common : Float) :
    Succeeds (radius ⟨kind, entries⟩ name common) :=
  .bind (get?_succeeds fits h) fun _ => .pure _

theorem rounding_succeeds (hr : provides kind "round_r" .number = true)
    (ht : provides kind "tool_height" .number = true) : Succeeds (rounding ⟨kind, entries⟩) :=
  .bind (get_succeeds fits hr) fun _ => .bind (get_succeeds fits ht) fun _ => .pure _

theorem rotation_succeeds (ha : provides kind "a" .angle = true) (hv : provides kind "v" .vector3 = true) :
    Succeeds (rotation ⟨kind, entries⟩) :=
  .bind (get_succeeds fits ha) fun turn => by
    cases turn with
    | single degrees => exact .bind (get_succeeds fits hv) fun _ => .pure _
    | euler angles => exact .pure _

/-- **Values that fit the schema of a kind make a node.** -/
theorem construct_succeeds : Succeeds (construct ⟨kind, entries⟩) := by
  -- every value that a kind uses is one that its schema declares, at the type at which it is used
  cases kind
  all_goals
    simp only [construct]
    repeat' first
      | exact get_succeeds fits (by decide)
      | exact get?_succeeds fits (by decide)
      | exact radius_succeeds fits (by decide) _
      | exact rounding_succeeds fits (by decide) (by decide)
      | exact rotation_succeeds fits (by decide) (by decide)
      | exact .pure _
      | refine .bind ?_ fun _ => ?_

end Picking
end Values

namespace Document

open Values

variable {options : Options} {kind : Kind} {bag : List (String × Supplied)}

/-! ## Values of a schema -/

theorem standIn?_type {p : Parameter} {value : Value} (h : p.standIn? options = some value) : value.type = p.type := by
  unfold Parameter.standIn? at h
  split at h
  · cases h; rfl
  · cases h

/-- Nothing stands in for a parameter that is required or optional. -/
theorem standIn?_eq_none {p : Parameter} (h : p.standIn? options = none) (hr : p.isRequired = false) :
    p.presence = .optional := by
  unfold Parameter.standIn? at h
  unfold Parameter.isRequired at hr
  cases hp : p.presence with
  | required => rw [hp] at hr; cases hr
  | optional => rfl
  | default d => rw [hp] at h; cases h

theorem coerce_type {p : Parameter} {supplied : Supplied} {value : Value}
    (h : (coerce kind p supplied).result = .ok value) : value.type = p.type := by
  unfold coerce at h
  split at h
  · obtain ⟨nodes, -, hn⟩ := Report.result_bind_eq_ok h
    cases hn
    exact (by assumption : p.type = .nodes).symm
  · cases hv : Coerce.value? p.type supplied.raw with
    | none => rw [hv] at h; cases h
    | some content => rw [hv] at h; cases h; rfl

/-- The value of a parameter suits it, unless it is required and not given. -/
theorem resolveOne_suits {p : Parameter} {value? : Option Value}
    (h : (resolveOne options kind bag p).result = .ok value?)
    (hr : p.isRequired = true → (supplied? p.name bag).isSome) : Suits p value? := by
  unfold resolveOne at h
  cases hs : supplied? p.name bag with
  | some supplied =>
    rw [hs] at h
    obtain ⟨value, hv, he⟩ := Report.result_bind_eq_ok h
    cases he
    exact coerce_type hv
  | none =>
    rw [hs] at h hr
    have hstand : p.standIn? options = value? := Except.ok.inj h
    cases value? with
    | some value => exact standIn?_type hstand
    | none => exact standIn?_eq_none hstand (by simpa using hr)

/-- A value put under one name is not found under another. -/
theorem find?_hold_of_ne {name other : String} (h : name ≠ other) (value? : Option Value)
    (entries : List (String × Value)) : find? other (hold name value? entries) = find? other entries := by
  cases value? with
  | none => rfl
  | some value => rw [hold, find?, if_neg h]

/-- Of new names, only the value put under them is found. -/
theorem find?_hold_self {name : String} {entries : List (String × Value)} (h : find? name entries = none)
    (value? : Option Value) : find? name (hold name value? entries) = value? := by
  cases value? with
  | none => exact h
  | some value => rw [hold, find?, if_pos rfl]

/-- The values of parameters, one after another. -/
theorem resolveAll_eq_ok {p : Parameter} {rest : List Parameter} {entries : List (String × Value)}
    (h : (resolveAll options kind bag (p :: rest)).result = .ok entries) :
    ∃ value? entries', (resolveOne options kind bag p).result = .ok value? ∧
      (resolveAll options kind bag rest).result = .ok entries' ∧ entries = hold p.name value? entries' := by
  obtain ⟨value?, hvalue, h⟩ := Report.result_bind_eq_ok h
  obtain ⟨entries', hrest, h⟩ := Report.result_bind_eq_ok h
  exact ⟨value?, entries', hvalue, hrest, (Except.ok.inj h).symm⟩

/-- Nothing is held under a name that is not examined. -/
theorem find?_resolveAll {name : String} {ps : List Parameter} {entries : List (String × Value)}
    (h : (resolveAll options kind bag ps).result = .ok entries) (hn : name ∉ ps.map Parameter.name) :
    find? name entries = none := by
  induction ps generalizing entries with
  | nil =>
    cases h
    rfl
  | cons p rest ih =>
    obtain ⟨value?, entries, -, hrest, rfl⟩ := resolveAll_eq_ok h
    simp only [List.map_cons, List.mem_cons, not_or] at hn
    rw [find?_hold_of_ne (Ne.symm hn.1), ih hrest hn.2]

/-- What a parameter is resolved to is found under its name, if the names differ. -/
theorem find?_of_resolveAll {ps : List Parameter} {entries : List (String × Value)}
    (h : (resolveAll options kind bag ps).result = .ok entries) (hnodup : (ps.map Parameter.name).Nodup) :
    ∀ p ∈ ps, (resolveOne options kind bag p).result = .ok (find? p.name entries) := by
  induction ps generalizing entries with
  | nil =>
    intro p hp
    cases hp
  | cons p rest ih =>
    intro q hq
    obtain ⟨value?, entries, hvalue, hrest, rfl⟩ := resolveAll_eq_ok h
    obtain ⟨hnew, hnodup⟩ := List.nodup_cons.1 hnodup
    rcases List.mem_cons.1 hq with rfl | hq
    · rw [find?_hold_self (find?_resolveAll hrest hnew)]
      exact hvalue
    · have hne : p.name ≠ q.name := by
        intro he
        rw [he] at hnew
        exact hnew (List.mem_map_of_mem hq)
      rw [find?_hold_of_ne hne]
      exact ih hrest hnodup q hq

/-- **The values of parameters fit them**, if the names differ and no required parameter is missing. -/
theorem resolveAll_fits {ps : List Parameter} {entries : List (String × Value)}
    (h : (resolveAll options kind bag ps).result = .ok entries) (hnodup : (ps.map Parameter.name).Nodup)
    (hgiven : ∀ p ∈ ps, p.isRequired = true → (supplied? p.name bag).isSome) : ∀ p ∈ ps, Fits entries p := by
  intro p hp
  exact resolveOne_suits (find?_of_resolveAll h hnodup p hp) (hgiven p hp)

/-- No required parameter is missing if none is found to be. -/
theorem isSome_of_firstMissing? {ps : List Parameter} (h : firstMissing? bag ps = none) :
    ∀ p ∈ ps, p.isRequired = true → (supplied? p.name bag).isSome := by
  intro p hp hr
  have := List.find?_eq_none.1 h p hp
  rw [hr, Bool.true_and, Bool.not_eq_true, Option.isNone_eq_false_iff] at this
  exact this

/-- Values are resolved only if no required parameter is missing and every value can be coerced. -/
theorem resolve_eq_ok {values : Values} (h : (resolve options kind bag).result = .ok values) :
    firstMissing? bag (schema kind) = none ∧
      ∃ entries, (resolveAll options kind bag (schema kind)).result = .ok entries ∧ values = ⟨kind, entries⟩ := by
  unfold resolve at h
  split at h
  · cases h
  · rename_i hmissing
    obtain ⟨entries, hentries, h⟩ := Report.result_bind_eq_ok h
    obtain ⟨-, -, h⟩ := Report.result_bind_eq_ok h
    cases h
    exact ⟨hmissing, entries, hentries, rfl⟩

/-- Whatever `resolve` gives can be put together. -/
theorem construct_resolve {values : Values} (h : (resolve options kind bag).result = .ok values) :
    Succeeds (construct values) := by
  obtain ⟨hmissing, entries, hentries, rfl⟩ := resolve_eq_ok h
  exact construct_succeeds (resolveAll_fits hentries (schema_names_nodup kind) (isSome_of_firstMissing? hmissing))

end Document
end SolidScript
