import Mathlib.Data.List.Basic
import SolidScript.Config.Override
import SolidScript.Proofs.Config.Keys

/-!
# Overriding settings

Four keys have a variable each, whose value takes the place of that of a configuration if it can be read.

* `override_eq`: every key is overridden on its own, and nothing else happens to a configuration.
* `override_of_unreadable`: a variable that cannot be read only warns: it is as good as absent, but for one warning.
* `Key.effective`: what holds of a flag, a variable, a document and the standard value.
* `Key.effective_of_no_variable`: what holds of a key without a variable does not depend on the environment.
-/

namespace SolidScript.Config

namespace Key

/-- The variable that overrides a key. -/
def variableName : Key → Option String
  | .unitSystem => some unitVariable
  | .theme => some themeVariable
  | .toolHeight => some toolHeightVariable
  | .resolution => some resolutionVariable
  | .defaultSpan | .metricStyle | .imperialStyle => none

/-- The value that the text of a variable means for a key. -/
def ofText? : (k : Key) → String → Option k.Value
  | .unitSystem, text => (Overlay.UnitSystem.ofName text).toOption
  | .theme, text => (Overlay.Theme.ofName text).toOption
  | .toolHeight, text => Decimal.float? text
  | .resolution, text => (Decimal.natural? UInt32.size text).map UInt32.ofNat
  | .defaultSpan, _ | .metricStyle, _ | .imperialStyle, _ => none

/-- The text that an environment has for a key. -/
def given? (k : Key) (environment : String → Option String) : Option String := k.variableName.bind environment

/-- The value that an environment has for a key, if it has one that can be read. -/
def override? (k : Key) (environment : String → Option String) : Option k.Value :=
  (k.given? environment).bind k.ofText?

/-- The warning about a variable that cannot be read. -/
def warningOf : Key → String → Option Warning
  | .unitSystem, text => some (.unit (.unitSystem (Overlay.normalName text)))
  | .theme, text => some (.theme (.theme (Overlay.normalName text)))
  | .toolHeight, text => some (.toolHeight text)
  | .resolution, text => some (.resolution text)
  | .defaultSpan, _ | .metricStyle, _ | .imperialStyle, _ => none

/-- The warning that an environment gives about a key. -/
def warning? (k : Key) (environment : String → Option String) : Option Warning :=
  (k.given? environment).bind fun text => if (k.ofText? text).isSome then none else k.warningOf text

/-- A configuration with another value of a key. -/
def put : (k : Key) → k.Value → Config → Config
  | .resolution, n, c => { c with nodes := { c.nodes with resolution := n } }
  | .toolHeight, h, c => { c with nodes := { c.nodes with toolHeight := h } }
  | .unitSystem, u, c => { c with overlay := { c.overlay with unitSystem := u } }
  | .theme, t, c => { c with overlay := { c.overlay with theme := t } }
  | .defaultSpan, x, c => { c with overlay := { c.overlay with defaultSpan := x } }
  | .metricStyle, s, c => { c with overlay := { c.overlay with metricStyle := s } }
  | .imperialStyle, s, c => { c with overlay := { c.overlay with imperialStyle := s } }

theorem put_get (k : Key) (c : Config) : k.put (k.get c) c = c := by cases k <;> rfl

/-- The keys with a variable, in the order in which their variables are examined. -/
def overridable : List Key := [.unitSystem, .theme, .toolHeight, .resolution]

end Key

section Overriding

variable {environment environment' : String → Option String} {k : Key} {name text : String}

theorem toOption_orText {α : Type} (read : String → Option α) (text : String) :
    (orText read text).toOption = read text := by
  rw [orText]
  cases read text <;> rfl

/-- A name that means no unit system is reported in its normal form. -/
theorem unitSystem_ofName_error {e : Overlay.NameError} (h : Overlay.UnitSystem.ofName text = .error e) :
    e = .unitSystem (Overlay.normalName text) := by
  simp only [Overlay.UnitSystem.ofName] at h
  grind

/-- A name that means no theme is reported in its normal form. -/
theorem theme_ofName_error {e : Overlay.NameError} (h : Overlay.Theme.ofName text = .error e) :
    e = .theme (Overlay.normalName text) := by
  simp only [Overlay.Theme.ofName] at h
  grind

theorem orText_error {α : Type} {read : String → Option α} {e : String} (h : orText read text = .error e) :
    e = text := by
  rw [orText] at h
  cases hread : read text with
  | none =>
    rw [hread] at h
    cases h
    rfl
  | some a =>
    rw [hread] at h
    cases h

/-- The override by a variable puts the value that can be read, or warns. -/
theorem overrideWith_eq {ε α : Type} (k : Key) (read : String → Except ε α) (value : α → k.Value)
    (warning : ε → Warning) (hname : k.variableName = some name)
    (hread : ∀ text, (read text).toOption.map value = k.ofText? text)
    (hwarning : ∀ text e, read text = .error e → k.warningOf text = some (warning e))
    (environment : String → Option String) (c : Config) :
    overrideWith (environment name) read (fun a => k.put (value a)) warning c =
      (k.put ((k.override? environment).getD (k.get c)) c, (k.warning? environment).toList) := by
  rw [Key.override?, Key.warning?, Key.given?, hname, Option.bind_some, overrideWith]
  cases environment name with
  | none => exact Prod.ext (k.put_get c).symm rfl
  | some text =>
    rw [Option.map_some, Option.bind_some, Option.bind_some, ← hread text]
    cases h : read text with
    | ok a => rfl
    | error e =>
      rw [hwarning text e h]
      exact Prod.ext (k.put_get c).symm rfl

/-- **Every key is overridden on its own**: it has the value of its variable if that can be read, and keeps its value
otherwise. There is a warning for each variable that has a value that cannot be read. -/
theorem override_eq (environment : String → Option String) (c : Config) :
    c.override environment =
      (ofKeys fun k => (k.override? environment).getD (k.get c),
        Key.overridable.filterMap fun k => k.warning? environment) := by
  have hunit := overrideWith_eq .unitSystem Overlay.UnitSystem.ofName (fun u => u) .unit rfl
    (fun _ => Option.map_id_apply)
    (fun _ _ h => congrArg (fun e => some (Warning.unit e)) (unitSystem_ofName_error h).symm) environment
  have htheme := overrideWith_eq .theme Overlay.Theme.ofName (fun t => t) .theme rfl (fun _ => Option.map_id_apply)
    (fun _ _ h => congrArg (fun e => some (Warning.theme e)) (theme_ofName_error h).symm) environment
  have hheight := overrideWith_eq .toolHeight (orText Decimal.float?) (fun h => h) .toolHeight rfl
    (fun text => Option.map_id_apply.trans (toOption_orText _ text))
    (fun _ _ h => congrArg (fun e => some (Warning.toolHeight e)) (orText_error h).symm) environment
  have hresolution := overrideWith_eq .resolution (orText (Decimal.natural? UInt32.size)) UInt32.ofNat .resolution rfl
    (fun text => congrArg (Option.map UInt32.ofNat) (toOption_orText _ text))
    (fun _ _ h => congrArg (fun e => some (Warning.resolution e)) (orText_error h).symm) environment
  have hsteps : c.override environment =
      let r₁ := overrideWith (environment unitVariable) Overlay.UnitSystem.ofName
        (fun (u : Overlay.UnitSystem) => Key.unitSystem.put u) .unit c
      let r₂ := overrideWith (environment themeVariable) Overlay.Theme.ofName
        (fun (t : Overlay.Theme) => Key.theme.put t) .theme r₁.1
      let r₃ := overrideWith (environment toolHeightVariable) (orText Decimal.float?)
        (fun (h : Float) => Key.toolHeight.put h) .toolHeight r₂.1
      let r₄ := overrideWith (environment resolutionVariable) (orText (Decimal.natural? UInt32.size))
        (fun n => Key.resolution.put (UInt32.ofNat n)) .resolution r₃.1
      (r₄.1, r₁.2 ++ r₂.2 ++ r₃.2 ++ r₄.2) := rfl
  rw [hsteps]
  simp only [hunit, htheme, hheight, hresolution]
  refine Prod.ext rfl ?_
  simp only [List.filterMap_eq_flatMap_toList, Key.overridable, List.flatMap_cons, List.flatMap_nil, List.append_nil,
    List.append_assoc]

/-- No two keys have the same variable. -/
theorem eq_of_variableName {k' : Key} (h : k.variableName = some name) (h' : k'.variableName = some name) : k = k' := by
  have hdistinct : ∀ k k' : Key, k.variableName = k'.variableName → k = k' ∨ k.variableName = none := by
    intro k k'
    cases k <;> cases k' <;> decide
  refine (hdistinct k k' (h.trans h'.symm)).resolve_right ?_
  rw [h]
  exact Option.some_ne_none name

theorem mem_overridable (hname : k.variableName = some name) : k ∈ Key.overridable := by
  cases k <;> first | decide | cases hname

/-- Every warning begins with the name of the variable. -/
theorem exists_warningOf (hname : k.variableName = some name) (text : String) :
    ∃ warning, k.warningOf text = some warning ∧ ∃ rest, warning.message = name ++ ": " ++ rest := by
  have hinteger : ": not an integer: " = ": " ++ "not an integer: " := by decide
  have hnumber : ": not a number: " = ": " ++ "not a number: " := by decide
  cases k <;> cases hname
  · exact ⟨_, rfl, "not an integer: " ++ text, by simp only [Warning.message, hinteger, String.append_assoc]⟩
  · exact ⟨_, rfl, "not a number: " ++ text, by simp only [Warning.message, hnumber, String.append_assoc]⟩
  · exact ⟨_, rfl, _, rfl⟩
  · exact ⟨_, rfl, _, rfl⟩

/-- The environment without a variable. -/
def without (environment : String → Option String) (name : String) : String → Option String :=
  fun other => if other = name then none else environment other

theorem given?_without (hname : k.variableName = some name) : k.given? (without environment name) = none := by
  rw [Key.given?, hname]
  exact if_pos rfl

/-- The variables of the other keys stay. -/
theorem given?_without_of_ne {k' : Key} (hname : k.variableName = some name) (hne : k' ≠ k) :
    k'.given? (without environment name) = k'.given? environment := by
  rw [Key.given?, Key.given?]
  cases hother : k'.variableName with
  | none => rfl
  | some other =>
    refine if_neg ?_
    rintro rfl
    exact hne (eq_of_variableName hother hname)

/-- What two functions find in a list, if only one of them finds something for one entry. -/
theorem filterMap_of_ne {α β : Type} {f g : α → Option β} {a : α} {b : β} {l : List α} (hl : l.Nodup) (ha : a ∈ l)
    (hf : f a = some b) (hg : g a = none) (hother : ∀ a', a' ≠ a → f a' = g a') :
    ∃ before after, l.filterMap g = before ++ after ∧ l.filterMap f = before ++ b :: after := by
  obtain ⟨before, after, rfl⟩ := List.append_of_mem ha
  have hsame : ∀ l : List α, a ∉ l → l.filterMap f = l.filterMap g := fun l hmem =>
    List.filterMap_congr fun a' ha' => hother a' (ne_of_mem_of_not_mem ha' hmem)
  have hbefore : a ∉ before := fun hmem => (List.nodup_append.1 hl).2.2 a hmem a List.mem_cons_self rfl
  have hafter : a ∉ after := (List.nodup_cons.1 (List.nodup_append.1 hl).2.1).1
  refine ⟨before.filterMap g, after.filterMap g, ?_, ?_⟩
  · rw [List.filterMap_append, List.filterMap_cons_none hg]
  · rw [List.filterMap_append, List.filterMap_cons_some hf, hsame before hbefore, hsame after hafter]

/-- A variable does nothing to a configuration but warn: it is as good as absent, and there is one more warning, which
begins with its name. -/
structure OnlyWarns (environment : String → Option String) (name : String) (c : Config) : Prop where
  same : (c.override environment).1 = (c.override (without environment name)).1
  warns : ∃ before after warning, (c.override (without environment name)).2 = before ++ after ∧
    (c.override environment).2 = before ++ warning :: after ∧ ∃ rest, warning.message = name ++ ": " ++ rest

/-- **A variable that cannot be read only warns.** -/
theorem override_of_unreadable (hname : k.variableName = some name) (hvalue : environment name = some text)
    (hunread : k.ofText? text = none) (c : Config) : OnlyWarns environment name c := by
  have hgiven : k.given? environment = some text := by rw [Key.given?, hname, Option.bind_some, hvalue]
  have hgone : k.given? (without environment name) = none := given?_without hname
  obtain ⟨warning, hwarning, hmessage⟩ := exists_warningOf hname text
  constructor
  case same =>
    simp only [override_eq]
    refine congrArg ofKeys (funext fun k' => ?_)
    by_cases hk : k' = k
    · subst hk
      rw [Key.override?, Key.override?, hgiven, hgone, Option.bind_some, hunread, Option.bind_none]
    · rw [Key.override?, Key.override?, given?_without_of_ne hname hk]
  case warns =>
    have hsome : k.warning? environment = some warning := by
      rw [Key.warning?, hgiven, Option.bind_some, hunread, hwarning]
      rfl
    have hnone : k.warning? (without environment name) = none := by rw [Key.warning?, hgone, Option.bind_none]
    have hother : ∀ k', k' ≠ k → k'.warning? environment = k'.warning? (without environment name) := by
      intro k' hk
      rw [Key.warning?, Key.warning?, given?_without_of_ne hname hk]
    obtain ⟨before, after, hwithout, hwith⟩ :=
      filterMap_of_ne (by decide) (mem_overridable hname) hsome hnone hother
    simp only [override_eq]
    exact ⟨before, after, warning, hwithout, hwith, hmessage⟩

end Overriding

/-! ## What holds -/

/-- What holds of a flag, the value of a variable, what a document states and the standard value: the first that there
is. A variable that cannot be read does not count. -/
def Key.effective (k : Key) (flag : Option k.Value) (environment : String → Option String) (document : Option Toml) :
    k.Value :=
  (((flag.or (k.override? environment)).or (document.bind k.stated?)).getD (k.get .standard))

namespace Key

section

variable {k : Key} {value : k.Value} {environment : String → Option String} {document : Option Toml}

theorem effective_of_override (h : k.override? environment = some value) :
    k.effective none environment document = value := by
  rw [effective, h]
  rfl

theorem effective_of_stated (hunset : k.override? environment = none) (h : document.bind k.stated? = some value) :
    k.effective none environment document = value := by
  rw [effective, hunset, h]
  rfl

theorem effective_of_unstated (hunset : k.override? environment = none) (h : document.bind k.stated? = none) :
    k.effective none environment document = k.get .standard := by
  rw [effective, hunset, h]
  rfl

end

/-- What holds of a key without a variable does not depend on the environment. -/
theorem effective_of_no_variable {k : Key} (hname : k.variableName = none) (flag : Option k.Value)
    (environment environment' : String → Option String) (document : Option Toml) :
    k.effective flag environment document = k.effective flag environment' document := by
  simp only [effective, override?, given?, hname, Option.bind_none]

end Key

/-- The configuration that holds of no flag, an environment and a document, if there is one. -/
def effective (environment : String → Option String) (document : Option Toml) : Config :=
  ofKeys fun k => k.effective none environment document

/-- A configuration file is overridden by the environment. -/
theorem override_of_document {document : Toml} {c : Config} (h : ofToml? document = some c)
    (environment : String → Option String) : (c.override environment).1 = effective environment (some document) := by
  simp only [override_eq, effective]
  refine congrArg ofKeys (funext fun k => ?_)
  rw [get_of_ofToml? h, Key.effective, Option.none_or, Option.bind_some]
  cases k.override? environment <;> rfl

/-- The standard settings are overridden by the environment. -/
theorem override_standard (environment : String → Option String) :
    (standard.override environment).1 = effective environment none := by
  simp only [override_eq, effective]
  refine congrArg ofKeys (funext fun k => ?_)
  rw [Key.effective, Option.none_or, Option.bind_none, Option.or_none]

end SolidScript.Config
