import SolidScript.Config.Text

/-!
# Keys of a configuration

A configuration is the values of seven keys, which stand in two tables of a document.

* `Key.get`, `Config.ofKeys`: a configuration as a function of its keys.
* `Table.fields?`, `Key.held?`: what a document has in a table and for a key.
* `ofToml?_eq_some_iff`: a document is accepted just if its tables are records and every key that it has means a value;
  the other keys have their standard values.
-/

namespace SolidScript.Config

/-- A table of a configuration file. -/
inductive Table where
  | nodes
  | overlay
deriving DecidableEq, Repr

namespace Table

/-- The name of the table. -/
def name : Table → String
  | .nodes => "nodes"
  | .overlay => "axis"

/-- The names of the keys of a table, in the order of its fields. -/
def keys : Table → List String
  | .nodes => ["resolution", "tool_height"]
  | .overlay => ["unit_system", "theme", "default_span", "metric_style", "imperial_style"]

end Table

/-- A setting that a configuration file may give. -/
inductive Key where
  | resolution
  | toolHeight
  | unitSystem
  | theme
  | defaultSpan
  | metricStyle
  | imperialStyle
deriving DecidableEq, Repr

namespace Key

/-- What values a key has. -/
def Value : Key → Type
  | .resolution => UInt32
  | .toolHeight => Float
  | .unitSystem => Overlay.UnitSystem
  | .theme => Overlay.Theme
  | .defaultSpan => Float
  | .metricStyle => Overlay.Style
  | .imperialStyle => Overlay.Style

/-- The table in which a key stands. -/
def table : Key → Table
  | .resolution | .toolHeight => .nodes
  | .unitSystem | .theme | .defaultSpan | .metricStyle | .imperialStyle => .overlay

/-- The name of a key in its table. -/
def name : Key → String
  | .resolution => "resolution"
  | .toolHeight => "tool_height"
  | .unitSystem => "unit_system"
  | .theme => "theme"
  | .defaultSpan => "default_span"
  | .metricStyle => "metric_style"
  | .imperialStyle => "imperial_style"

/-- The value of a key in a configuration. -/
def get : (k : Key) → Config → k.Value
  | .resolution, c => c.nodes.resolution
  | .toolHeight, c => c.nodes.toolHeight
  | .unitSystem, c => c.overlay.unitSystem
  | .theme, c => c.overlay.theme
  | .defaultSpan, c => c.overlay.defaultSpan
  | .metricStyle, c => c.overlay.metricStyle
  | .imperialStyle, c => c.overlay.imperialStyle

/-- The value that a value of a document means for a key. -/
def ofToml? : (k : Key) → Toml → Option k.Value
  | .resolution => Toml.asWord32?
  | .toolHeight => Toml.asDouble?
  | .unitSystem => fun value => value.asName?.bind Overlay.UnitSystem.ofExactName?
  | .theme => fun value => value.asName?.bind Overlay.Theme.ofExactName?
  | .defaultSpan => Toml.asDouble?
  | .metricStyle => readStyle?
  | .imperialStyle => readStyle?

end Key

/-- The configuration with given values of the keys. -/
def ofKeys (values : (k : Key) → k.Value) : Config where
  nodes := ⟨values .resolution, values .toolHeight⟩
  overlay :=
    ⟨values .unitSystem, values .theme, values .defaultSpan, values .metricStyle, values .imperialStyle⟩

theorem ofKeys_get (c : Config) : ofKeys (fun k => k.get c) = c := rfl

theorem get_ofKeys (values : (k : Key) → k.Value) (k : Key) : k.get (ofKeys values) = values k := by cases k <;> rfl

/-! ## Documents -/

/-- The fields of a table that is given by a value of a document: none if the table is absent. -/
def Table.fieldsOf? (σ : Table) (found : Option Toml) : Option (String → Option Toml) :=
  orElse found (Toml.asRecord? σ.keys) fun _ => none

/-- The fields of a table of a document. -/
def Table.fields? (σ : Table) (document : Toml) : Option (String → Option Toml) :=
  (document.asRecord? ["nodes", "axis"]).bind fun field => σ.fieldsOf? (field σ.name)

/-- What a document has for a key. -/
def Key.held? (k : Key) (document : Toml) : Option Toml :=
  (k.table.fields? document).bind fun field => field k.name

/-- The value that a document states for a key. -/
def Key.stated? (k : Key) (document : Toml) : Option k.Value := (k.held? document).bind k.ofToml?

/-- Whether a value of a document, or its absence, gives a key a value. -/
def Key.Means (k : Key) (found : Option Toml) (value : k.Value) : Prop :=
  orElse found k.ofToml? (k.get .standard) = some value

section Reading

variable {document : Toml} {c : Config}

theorem readNodes_eq_some_iff {found : Option Toml} {o : Options} :
    orElse found readNodes? Options.standard = some o ↔
      ∃ field, Table.nodes.fieldsOf? found = some field ∧ Key.Means .resolution (field "resolution") o.resolution ∧
        Key.Means .toolHeight (field "tool_height") o.toolHeight := by
  obtain ⟨resolution, toolHeight⟩ := o
  cases found with
  | none =>
    constructor
    · intro h
      cases h
      exact ⟨_, rfl, rfl, rfl⟩
    · rintro ⟨field, hfield, hresolution, htoolHeight⟩
      cases hfield
      cases hresolution
      cases htoolHeight
      rfl
  | some value =>
    simp only [orElse, readNodes?, Option.bind_eq_bind, Option.bind_eq_some_iff, Option.some.injEq, Options.mk.injEq,
      exists_eq_right_right]
    exact Iff.rfl

theorem readOverlay_eq_some_iff {found : Option Toml} {o : OverlayDefaults} :
    orElse found readOverlay? OverlayDefaults.standard = some o ↔
      ∃ field, Table.overlay.fieldsOf? found = some field ∧ Key.Means .unitSystem (field "unit_system") o.unitSystem ∧
        Key.Means .theme (field "theme") o.theme ∧ Key.Means .defaultSpan (field "default_span") o.defaultSpan ∧
        Key.Means .metricStyle (field "metric_style") o.metricStyle ∧
        Key.Means .imperialStyle (field "imperial_style") o.imperialStyle := by
  obtain ⟨unitSystem, theme, defaultSpan, metricStyle, imperialStyle⟩ := o
  cases found with
  | none =>
    constructor
    · intro h
      cases h
      exact ⟨_, rfl, rfl, rfl, rfl, rfl, rfl⟩
    · rintro ⟨field, hfield, hunitSystem, htheme, hspan, hmetric, himperial⟩
      cases hfield
      cases hunitSystem
      cases htheme
      cases hspan
      cases hmetric
      cases himperial
      rfl
  | some value =>
    simp only [orElse, readOverlay?, Option.bind_eq_bind, Option.bind_eq_some_iff, Option.some.injEq,
      OverlayDefaults.mk.injEq]
    constructor
    · rintro ⟨field, hfield, _, hunitSystem, _, htheme, _, hspan, _, hmetric, _, himperial, rfl, rfl, rfl, rfl, rfl⟩
      exact ⟨field, hfield, hunitSystem, htheme, hspan, hmetric, himperial⟩
    · rintro ⟨field, hfield, hunitSystem, htheme, hspan, hmetric, himperial⟩
      exact ⟨field, hfield, _, hunitSystem, _, htheme, _, hspan, _, hmetric, _, himperial, rfl, rfl, rfl, rfl, rfl⟩

/-- A configuration is read from the records of the two tables. -/
theorem ofToml?_eq_some_iff_tables :
    ofToml? document = some c ↔ ∃ field, document.asRecord? ["nodes", "axis"] = some field ∧
      orElse (field "nodes") readNodes? Options.standard = some c.nodes ∧
      orElse (field "axis") readOverlay? OverlayDefaults.standard = some c.overlay := by
  obtain ⟨nodes, overlay⟩ := c
  simp only [ofToml?, Option.bind_eq_bind, Option.bind_eq_some_iff, Option.some.injEq, Config.mk.injEq,
    exists_eq_right_right]

theorem held?_of_fields {fields : Table → String → Option Toml}
    (h : ∀ σ : Table, σ.fields? document = some (fields σ)) (k : Key) :
    k.held? document = fields k.table k.name := by
  rw [Key.held?, h, Option.bind_some]

/-- **A document is accepted** just if both of its tables are records and every key that it has means a value; the
other keys have their standard values. -/
theorem ofToml?_eq_some_iff :
    ofToml? document = some c ↔
      (∀ σ : Table, (σ.fields? document).isSome = true) ∧ ∀ k : Key, k.Means (k.held? document) (k.get c) := by
  rw [ofToml?_eq_some_iff_tables]
  constructor
  · rintro ⟨field, hfield, hnodes, hoverlay⟩
    obtain ⟨nodes, hnodes, hresolution, htoolHeight⟩ := readNodes_eq_some_iff.1 hnodes
    obtain ⟨overlay, hoverlay, hunitSystem, htheme, hspan, hmetric, himperial⟩ := readOverlay_eq_some_iff.1 hoverlay
    let fields : Table → String → Option Toml
      | .nodes => nodes
      | .overlay => overlay
    have hfields : ∀ σ : Table, σ.fields? document = some (fields σ) := by
      intro σ
      rw [Table.fields?, hfield, Option.bind_some]
      cases σ with
      | nodes => exact hnodes
      | overlay => exact hoverlay
    constructor
    · intro σ
      rw [hfields, Option.isSome_some]
    · intro k
      rw [held?_of_fields hfields]
      cases k <;> assumption
  · rintro ⟨htables, hkeys⟩
    let fields (σ : Table) : String → Option Toml := (σ.fields? document).get (htables σ)
    have hfields : ∀ σ : Table, σ.fields? document = some (fields σ) := fun σ => (Option.some_get (htables σ)).symm
    have hmeans : ∀ k : Key, k.Means (fields k.table k.name) (k.get c) := by
      intro k
      rw [← held?_of_fields hfields]
      exact hkeys k
    obtain ⟨field, hfield, -⟩ := Option.bind_eq_some_iff.1 (hfields .nodes)
    have hfound : ∀ σ : Table, σ.fieldsOf? (field σ.name) = some (fields σ) := by
      intro σ
      rw [← hfields σ, Table.fields?, hfield, Option.bind_some]
    refine ⟨field, hfield, readNodes_eq_some_iff.2 ⟨_, hfound .nodes, hmeans .resolution, hmeans .toolHeight⟩, ?_⟩
    exact readOverlay_eq_some_iff.2 ⟨_, hfound .overlay, hmeans .unitSystem, hmeans .theme, hmeans .defaultSpan,
      hmeans .metricStyle, hmeans .imperialStyle⟩

/-- A document that is accepted gives a key the value that it states, or else the standard value. -/
theorem get_of_ofToml? (h : ofToml? document = some c) (k : Key) :
    k.get c = (k.stated? document).getD (k.get .standard) := by
  have hmeans : k.Means (k.held? document) (k.get c) := (ofToml?_eq_some_iff.1 h).2 k
  rw [Key.Means] at hmeans
  rw [Key.stated?]
  cases hheld : k.held? document with
  | none =>
    rw [hheld] at hmeans
    exact (Option.some.inj hmeans).symm
  | some value =>
    rw [hheld] at hmeans
    have hvalue : k.ofToml? value = some (k.get c) := hmeans
    rw [Option.bind_some, hvalue, Option.getD_some]

end Reading

end SolidScript.Config
