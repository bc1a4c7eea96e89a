import SolidScript.Proofs.Command.Build

/-!
# What a run leaves behind

What is printed, what is written and whether a run succeeds, told by the settings that the run has: an overlay is drawn
in a unit system, a theme, a style and a span, and documents are read with a resolution and a tool height.

* `overlay_shows`: a run that renders an overlay shows the overlay in the settings of its options, or else of its
  configuration.
* `build_renders`, `build_idle`: a run that renders documents reads them with the options of its configuration, and does
  nothing if one of them cannot be read.
* `runTask_of_inputs`: what is done depends on the files only through the inputs, and not on the environment.
-/

namespace SolidScript.Command

/-! ## Outcomes -/

namespace Outcome

/-- Two outcomes are equal but for what they tell of errors. -/
structure SameEffect (o o' : Outcome) : Prop where
  success : o.success = o'.success
  output : o.output = o'.output
  written : o.written = o'.written

/-- The run that fails before it does anything. -/
structure Idle (o : Outcome) : Prop where
  success : o.success = false
  output : o.output = ""
  written : o.written = none

theorem idle_fail (reason : String) : (fail reason).Idle := ⟨rfl, rfl, rfl⟩

theorem Idle.sameEffect {o o' : Outcome} (h : o.Idle) (h' : o'.Idle) : o.SameEffect o' :=
  ⟨h.success.trans h'.success.symm, h.output.trans h'.output.symm, h.written.trans h'.written.symm⟩

end Outcome

/-- What is told of an overlay whose script is in a file. -/
def overlayReport (u : Overlay.UnitSystem) (r : Overlay.Rendered) (path : String) : String :=
  let volume := Decimal.plain.write r.volumeLinear ++ " " ++ u.volumeUnits.1 ++ " ("
    ++ Decimal.plain.write r.volumeScaled ++ " " ++ u.volumeUnits.2 ++ ")"
  "Module: " ++ r.moduleName ++ "\nInvocation: " ++ r.invocation ++ "\nVolume: " ++ volume ++ "\nOutput: " ++ path
    ++ "\n"

/-- What is told of documents whose script is in a file: how many could be built. -/
def batchReport (options : Options) (sources : List Source) (path : String) : String :=
  "Rendered " ++ Decimal.Digits.write (sources.length - (complaintsOf options sources).length)
    ++ " document(s) -> " ++ path ++ "\n"

namespace Outcome

/-- An overlay of a unit system is shown: in one of three ways, or not at all if its file cannot be written. -/
structure Shows (o : Outcome) (s : Surroundings) (u : Overlay.UnitSystem) (r : Overlay.Rendered)
    (output : Option String) (json : Bool) : Prop where
  /-- As a JSON text, also if there is an output file. -/
  asJson : json = true → o = .print (r.toJson.pretty ++ "\n")
  /-- As its script and its invocation. -/
  asScript : json = false → output = none → o = .print (r.script ++ r.invocation ++ "\n")
  /-- As a report, with the script in the output file. -/
  inFile : json = false → ∀ path ∈ output, s.writable path = true →
    o = ⟨true, overlayReport u r path, [], some (path, r.script)⟩
  unwritable : json = false → ∀ path ∈ output, s.writable path = false → o.Idle

/-- Documents are rendered that are read with some options: the script is printed or written, if its file can be. -/
structure Renders (o : Outcome) (s : Surroundings) (options : Options) (style : Script.Style)
    (output : Option String) (sources : List Source) : Prop where
  printed : output = none → o.output = scriptOf options style sources ∧ o.written = none
  /-- With an output file, only a report is printed. -/
  inFile : ∀ path ∈ output, s.writable path = true →
    o.output = batchReport options sources path ∧ o.written = some (path, scriptOf options style sources)
  success : (∀ path ∈ output, s.writable path = true) →
    (o.success = false ↔ ∃ source ∈ sources, ∃ error, (Document.read options source.document).result = .error error)
  unwritable : ∀ path ∈ output, s.writable path = false → o.Idle

end Outcome

section

variable {s : Surroundings} {config : Config} {output : Option String}

/-! ## Overlays -/

/-- **An overlay is drawn in the settings of its options, or else of its configuration.** -/
theorem overlay_shows (s : Surroundings) (config : Config) (bounds : Overlay.Bounds Float)
    (unit : Option Overlay.UnitSystem) (theme : Option Overlay.Theme) (output : Option String) (json : Bool) :
    let u := unit.getD config.overlay.unitSystem
    let t := theme.getD config.overlay.theme
    (overlay s config bounds unit theme output json).Shows s u
      (Overlay.render (config.overlay.style u) u t (bounds.normalize config.overlay.defaultSpan u)) output json := by
  intro u t
  constructor
  case asJson =>
    rintro rfl
    rfl
  case asScript =>
    rintro rfl rfl
    rfl
  case inFile =>
    rintro rfl path houtput hwritable
    obtain rfl : output = some path := houtput
    simp only [overlay, Bool.false_eq_true, if_false, hwritable, if_true]
    rfl
  case unwritable =>
    rintro rfl path houtput hwritable
    obtain rfl : output = some path := houtput
    simp only [overlay, Bool.false_eq_true, if_false, hwritable]
    exact Outcome.idle_fail _

/-! ## Documents -/

/-- A script that cannot be written is not printed either. -/
theorem buildSources_idle {path : String} (h : s.writable path = false) (options : Options) (style : Script.Style)
    (sources : List Source) : (buildSources s options style (some path) sources).Idle := by
  simp only [buildSources, h, Bool.false_eq_true, if_false]
  exact ⟨rfl, rfl, rfl⟩

theorem buildSources_renders (s : Surroundings) (options : Options) (style : Script.Style) (output : Option String)
    (sources : List Source) : (buildSources s options style output sources).Renders s options style output sources := by
  constructor
  case printed =>
    rintro rfl
    have hnone : ∀ path ∈ (none : Option String), s.writable path = true := nofun
    rw [buildSources_eq hnone]
    exact ⟨rfl, rfl⟩
  case inFile =>
    rintro path houtput hwritable
    obtain rfl : output = some path := houtput
    rw [buildSources_eq fun other hother => Option.some.inj hother ▸ hwritable]
    exact ⟨rfl, rfl⟩
  case success =>
    intro hwritable
    rw [buildSources_eq hwritable]
    exact isEmpty_complaintsOf options sources
  case unwritable =>
    rintro path houtput hwritable
    obtain rfl : output = some path := houtput
    exact buildSources_idle hwritable options style sources

/-- **Documents are read with the options of the configuration.** -/
theorem build_renders {inputs : List String} {sources : List Source} (hpresent : ∀ path ∈ inputs, s.entry path ≠ none)
    (hsources : (filesAt s.entry inputs).map Input.source? = sources.map some) (pretty : Bool) :
    (build s config inputs output pretty).Renders s config.nodes (if pretty then .indented else .compact) output
      sources := by
  rw [build_of_readable output pretty hpresent hsources]
  exact buildSources_renders s config.nodes _ output sources

theorem build_idle {inputs : List String}
    (h : (∃ path ∈ inputs, s.entry path = none) ∨ ∃ file ∈ filesAt s.entry inputs, file.source? = none)
    (pretty : Bool) : (build s config inputs output pretty).Idle := by
  obtain ⟨reason, hfail⟩ := build_of_unreadable output pretty h
  rw [hfail]
  exact Outcome.idle_fail reason

/-! ## Surroundings -/

/-- The inputs of a task. -/
def Task.inputs : Task → List String
  | .build inputs _ _ => inputs
  | _ => []

/-- What is done with a configuration depends on the files only through the inputs, and not on the environment. -/
theorem runTask_of_inputs {entry : String → Option Entry} {environment : String → Option String} {task : Task}
    (h : collectInputs entry task.inputs = collectInputs s.entry task.inputs) (c : Config) :
    runTask { s with entry := entry, environment := environment } c task = runTask s c task := by
  cases task with
  | build inputs output pretty =>
    have hinputs : collectInputs entry inputs = collectInputs s.entry inputs := h
    simp only [runTask, build, hinputs]
    rfl
  | overlay bounds unit theme output json => rfl
  | kinds kind json => rfl
  | version => rfl

end

end SolidScript.Command
