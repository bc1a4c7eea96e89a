import SolidScript.Proofs.Command.Arguments
import SolidScript.Proofs.Command.Effect
import SolidScript.Proofs.Command.FileTree
import SolidScript.Proofs.Config.Override

/-!
# The settings of a run

Which settings a run has, what it does with them, and that it does not matter how its configuration file is found.

* `run_of_configures`: a run has the settings that hold of its options, the environment and its configuration file.
* `overlay_of_configures`, `build_of_configures`: in these settings its overlay is drawn, or its documents are read;
  `Precedence` puts this together.
* `run_of_not_configures`: a configuration file that is not accepted stops every run before it does anything.
* `run_of_unreadable`: a run does the same without a variable that cannot be read.
* `sameEffect_moved`: a run does the same with a configuration file that is named and with the standard one.
* `sameEffect_written`: in particular in a directory into which the standard one is put.
* `run_settings`: all of these, with the options that a command line gives.
-/

namespace SolidScript.Command

open Config (Key)

/-! ## Options and documents -/

namespace Task

/-- The value that an option of a task has for a key. -/
def flag : Task → (k : Key) → Option k.Value
  | .overlay _ unit _ _ _, .unitSystem => unit
  | .overlay _ _ theme _ _, .theme => theme
  | _, _ => none

/-- A task without the options that are settings. -/
def withoutFlags : Task → Task
  | .overlay bounds _ _ output json => .overlay bounds none none output json
  | .build inputs output pretty => .build inputs output pretty
  | .kinds kind json => .kinds kind json
  | .version => .version

end Task

/-- What configures a run: the document of its configuration file, which is accepted, or nothing if no file is named and
the standard one is not there. -/
def Configures (s : Surroundings) (named : Option String) : Option Toml → Prop
  | none => named = none ∧ s.entry standardConfigFile = none
  | some document => ∃ text, s.entry (named.getD standardConfigFile) = some (.file (some text)) ∧
      Toml.read? text = some document ∧ (Config.ofToml? document).isSome = true

/-- What a run sees in a directory. -/
def Surroundings.ofTree (root : Entry) (environment : String → Option String) : Surroundings :=
  ⟨root.find?, fun path => (root.target? path).isSome, environment⟩

section

variable {s : Surroundings} {named : Option String} {document : Option Toml}

/-! ## Loading -/

theorem readConfig_eq_ok {text : String} {document : Toml} {c : Config} (hread : Toml.read? text = some document)
    (h : Config.ofToml? document = some c) (path : String) : readConfig path (some (.file (some text))) = .ok c := by
  have hconfig : Config.read? text = some c := by rw [Config.read?, hread, Option.bind_some, h]
  rw [readConfig]
  simp only [hconfig]

theorem readConfig_eq_error {path : String} {entry : Option Entry}
    (h : ∀ text document, entry = some (.file (some text)) → Toml.read? text = some document →
      Config.ofToml? document = none) : ∃ reason, readConfig path entry = .error reason := by
  rcases entry with _ | (_ | text) | entries
  · exact ⟨_, rfl⟩
  · exact ⟨_, rfl⟩
  · have hconfig : Config.read? text = none := by
      rw [Config.read?, Option.bind_eq_none_iff]
      exact fun document hread => h text document rfl hread
    rw [readConfig, hconfig]
    exact ⟨_, rfl⟩
  · exact ⟨_, rfl⟩

/-- The settings of a run that is configured. -/
theorem loadConfig_of_configures (h : Configures s named document) :
    loadConfig s named = .ok (Config.effective s.environment document) := by
  cases document with
  | none =>
    obtain ⟨rfl, habsent⟩ := h
    rw [loadConfig]
    simp only [habsent]
    exact congrArg Except.ok (Config.override_standard s.environment)
  | some document =>
    obtain ⟨text, hentry, hread, haccepted⟩ := h
    obtain ⟨c, hc⟩ := Option.isSome_iff_exists.1 haccepted
    have hconfig := fun path => readConfig_eq_ok hread hc path
    have hload : loadConfig s named = .ok (c.override s.environment).1 := by
      cases named with
      | none =>
        rw [Option.getD_none] at hentry
        simp only [loadConfig, hentry, hconfig, Except.map]
      | some path =>
        rw [Option.getD_some] at hentry
        simp only [loadConfig, hentry, hconfig, Except.map]
    rw [hload, Config.override_of_document hc]

theorem loadConfig_of_not_configures (h : ∀ document, ¬ Configures s named document) :
    ∃ reason, loadConfig s named = .error reason := by
  have hrefused : ∀ path, path = named.getD standardConfigFile →
      ∃ reason, readConfig path (s.entry path) = .error reason := by
    rintro path rfl
    refine readConfig_eq_error fun text document hentry hread => ?_
    by_contra haccepted
    exact h (some document) ⟨text, hentry, hread, Option.isSome_iff_ne_none.2 haccepted⟩
  cases named with
  | some path =>
    obtain ⟨reason, hreason⟩ := hrefused path rfl
    exact ⟨reason, by simp only [loadConfig, hreason, Except.map]⟩
  | none =>
    cases hentry : s.entry standardConfigFile with
    | none => exact absurd ⟨rfl, hentry⟩ (h none)
    | some found =>
      obtain ⟨reason, hreason⟩ := hrefused standardConfigFile rfl
      rw [hentry] at hreason
      exact ⟨reason, by simp only [loadConfig, hentry, hreason, Except.map]⟩

/-! ## Running -/

/-- A run whose configuration file is not accepted fails before it does anything. -/
theorem run_of_not_configures (h : ∀ document, ¬ Configures s named document) :
    ∃ reason, ∀ task, run s ⟨named, task⟩ = .fail reason := by
  obtain ⟨reason, hreason⟩ := loadConfig_of_not_configures h
  refine ⟨reason, fun task => ?_⟩
  rw [run, hreason]

/-- **A run has the settings that hold** of its options, the environment and its configuration file. -/
theorem run_of_configures (h : Configures s named document) (task : Task) :
    run s ⟨named, task⟩ =
      runTask s (.ofKeys fun k => k.effective (task.flag k) s.environment document) task.withoutFlags := by
  have hrun : run s ⟨named, task⟩ = runTask s (Config.effective s.environment document) task := by
    rw [run, loadConfig_of_configures h]
  rw [hrun]
  cases task with
  | overlay bounds unit theme output json => cases unit <;> cases theme <;> rfl
  | build inputs output pretty => rfl
  | kinds kind json => rfl
  | version => rfl

/-- **A run does the same without a variable that cannot be read.** -/
theorem run_of_unreadable {k : Key} {name text : String} (hname : k.variableName = some name)
    (hvalue : s.environment name = some text) (hunread : k.ofText? text = none) (invocation : Invocation) :
    run s invocation = run { s with environment := Config.without s.environment name } invocation := by
  have hoverride : (fun c : Config => (c.override s.environment).1) =
      fun c => (c.override (Config.without s.environment name)).1 :=
    funext fun c => (Config.override_of_unreadable hname hvalue hunread c).same
  have hload : loadConfig s invocation.config =
      loadConfig { s with environment := Config.without s.environment name } invocation.config := by
    unfold loadConfig
    rw [hoverride]
  rw [run, run, ← hload]
  cases loadConfig s invocation.config with
  | error reason => rfl
  | ok config => exact (runTask_of_inputs rfl config).symm

/-! ## What the settings come to -/

/-- The overlay of bounds in the settings that hold of two options, an environment and a configuration file. -/
def effectiveOverlay (bounds : Overlay.Bounds Float) (unit : Option Overlay.UnitSystem)
    (theme : Option Overlay.Theme) (environment : String → Option String) (document : Option Toml) : Overlay.Rendered :=
  let u : Overlay.UnitSystem := Key.unitSystem.effective unit environment document
  let style : Overlay.Style := match u with
    | .metric => Key.metricStyle.effective none environment document
    | .imperial => Key.imperialStyle.effective none environment document
  Overlay.render style u (Key.theme.effective theme environment document)
    (bounds.normalize (Key.defaultSpan.effective none environment document) u)

theorem effectiveOverlay_eq {bounds : Overlay.Bounds Float} {unit : Option Overlay.UnitSystem}
    {theme : Option Overlay.Theme} {environment : String → Option String} {u : Overlay.UnitSystem} {t : Overlay.Theme}
    {span : Float} {metric imperial : Overlay.Style} (hunit : Key.unitSystem.effective unit environment document = u)
    (htheme : Key.theme.effective theme environment document = t)
    (hspan : Key.defaultSpan.effective none environment document = span)
    (hmetric : Key.metricStyle.effective none environment document = metric)
    (himperial : Key.imperialStyle.effective none environment document = imperial) :
    effectiveOverlay bounds unit theme environment document =
      Overlay.render (OverlayDefaults.style ⟨u, t, span, metric, imperial⟩ u) u t (bounds.normalize span u) := by
  subst hunit htheme hspan hmetric himperial
  rfl

/-- The options for documents that hold of an environment and a configuration file. -/
def effectiveOptions (environment : String → Option String) (document : Option Toml) : Options where
  resolution := Key.resolution.effective none environment document
  toolHeight := Key.toolHeight.effective none environment document

/-- **An overlay is drawn in the settings that hold.** -/
theorem overlay_of_configures (h : Configures s named document) (bounds : Overlay.Bounds Float)
    (unit : Option Overlay.UnitSystem) (theme : Option Overlay.Theme) (output : Option String) (json : Bool) :
    (run s ⟨named, .overlay bounds unit theme output json⟩).Shows s
      (Key.unitSystem.effective unit s.environment document)
      (effectiveOverlay bounds unit theme s.environment document) output json := by
  rw [run_of_configures h]
  exact overlay_shows s _ bounds none none output json

/-- **Documents are read in the settings that hold**, if all inputs can be read. -/
theorem build_of_configures (h : Configures s named document) {inputs : List String} {sources : List Source}
    (hpresent : ∀ path ∈ inputs, s.entry path ≠ none)
    (hsources : (filesAt s.entry inputs).map Input.source? = sources.map some) (output : Option String)
    (pretty : Bool) :
    (run s ⟨named, .build inputs output pretty⟩).Renders s (effectiveOptions s.environment document)
      (if pretty then .indented else .compact) output sources := by
  rw [run_of_configures h]
  exact build_renders hpresent hsources pretty

theorem build_idle_of_configures (h : Configures s named document) {inputs : List String}
    (hunreadable : (∃ path ∈ inputs, s.entry path = none) ∨ ∃ file ∈ filesAt s.entry inputs, file.source? = none)
    (output : Option String) (pretty : Bool) : (run s ⟨named, .build inputs output pretty⟩).Idle := by
  rw [run_of_configures h]
  exact build_idle hunreadable pretty

/-- What a configured run does, in terms of the settings that hold of its options, the environment and its
configuration file. -/
structure Precedence (s : Surroundings) (named : Option String) (document : Option Toml) : Prop where
  /-- A run is the run of its task without options, with the configuration that holds key by key. -/
  run_eq : ∀ task, run s ⟨named, task⟩ =
    runTask s (.ofKeys fun k => k.effective (task.flag k) s.environment document) task.withoutFlags
  /-- An overlay is drawn and told in the unit system that holds, in the theme, the style and the span that hold. -/
  overlay : ∀ bounds unit theme output json,
    (run s ⟨named, .overlay bounds unit theme output json⟩).Shows s
      (Key.unitSystem.effective unit s.environment document)
      (effectiveOverlay bounds unit theme s.environment document) output json
  /-- Documents that can be read are read with the resolution and the tool height that hold. -/
  build : ∀ inputs sources output pretty, (∀ path ∈ inputs, s.entry path ≠ none) →
    (filesAt s.entry inputs).map Input.source? = sources.map some →
      (run s ⟨named, .build inputs output pretty⟩).Renders s (effectiveOptions s.environment document)
        (if pretty then .indented else .compact) output sources
  /-- If one cannot be read, no setting matters. -/
  build_idle : ∀ inputs output pretty,
    (∃ path ∈ inputs, s.entry path = none) ∨ (∃ file ∈ filesAt s.entry inputs, file.source? = none) →
      (run s ⟨named, .build inputs output pretty⟩).Idle

theorem precedence_of_configures (h : Configures s named document) : Precedence s named document where
  run_eq := run_of_configures h
  overlay := overlay_of_configures h
  build _ _ output pretty hpresent hsources := build_of_configures h hpresent hsources output pretty
  build_idle _ output pretty hunreadable := build_idle_of_configures h hunreadable output pretty

/-! ## Two ways to a configuration file -/

/-- A text that is no configuration stops the run, whether its file is named or is the standard one. -/
theorem idle_of_refused {text : String} (hentry : s.entry (named.getD standardConfigFile) = some (.file (some text)))
    (hrefused : Config.read? text = none) (task : Task) : (run s ⟨named, task⟩).Idle := by
  have hnot : ∀ document, ¬ Configures s named document := by
    rintro (_ | document)
    · rintro ⟨rfl, habsent⟩
      rw [Option.getD_none, habsent] at hentry
      cases hentry
    · rintro ⟨other, hother, hread, haccepted⟩
      rw [hentry] at hother
      cases hother
      rw [Config.read?, hread, Option.bind_some] at hrefused
      rw [hrefused] at haccepted
      cases haccepted
  obtain ⟨reason, hrun⟩ := run_of_not_configures hnot
  rw [hrun]
  exact Outcome.idle_fail reason

/-- **The two ways to a configuration file agree**: naming a file, and keeping its text in the standard one. -/
theorem sameEffect_moved {entry : String → Option Entry} {path text : String} {task : Task}
    (hnamed : s.entry path = some (.file (some text)))
    (hstandard : entry standardConfigFile = some (.file (some text)))
    (hinputs : collectInputs entry task.inputs = collectInputs s.entry task.inputs) :
    (run s ⟨some path, task⟩).SameEffect (run { s with entry := entry } ⟨none, task⟩) := by
  cases hread : Config.read? text with
  | none => exact (idle_of_refused hnamed hread task).sameEffect (idle_of_refused hstandard hread task)
  | some c =>
    obtain ⟨document, hdocument, hc⟩ := Option.bind_eq_some_iff.1 hread
    have haccepted : (Config.ofToml? document).isSome = true := by rw [hc, Option.isSome_some]
    have hthere : Configures s (some path) (some document) := ⟨text, hnamed, hdocument, haccepted⟩
    have hhere : Configures { s with entry := entry } none (some document) := ⟨text, hstandard, hdocument, haccepted⟩
    have hflags : collectInputs entry task.withoutFlags.inputs = collectInputs s.entry task.withoutFlags.inputs := by
      cases task <;> exact hinputs
    rw [run_of_configures hthere, run_of_configures hhere, runTask_of_inputs hflags]
    exact ⟨rfl, rfl, rfl⟩

theorem isName_standardConfigFile : Entry.IsName standardConfigFile :=
  ⟨by decide, by decide, by decide, by decide⟩

/-- So a run in a directory does the same when the named text is put into the standard file, unless an input of the run
is that file. -/
theorem sameEffect_written {root : Entry} {path text : String} {task : Task} (environment : String → Option String)
    (hnew : root.find? standardConfigFile = none) (hnamed : root.find? path = some (.file (some text))) :
    ∃ root', root.write? standardConfigFile text = some root' ∧
      ((∀ input ∈ task.inputs, root.find? input = none → root'.find? input = none) →
        (run (.ofTree root environment) ⟨some path, task⟩).SameEffect
          (run (.ofTree root' environment) ⟨none, task⟩)) := by
  have hroot : root.isDirectory = true := Entry.isDirectory_of_find? hnamed
  refine ⟨_, Entry.write?_eq_withFile isName_standardConfigFile hroot hnew text, fun hinputs => ?_⟩
  have hsurroundings : Surroundings.ofTree (root.withFile standardConfigFile text) environment =
      { Surroundings.ofTree root environment with entry := (root.withFile standardConfigFile text).find? } := by
    simp only [Surroundings.ofTree, Entry.target?_withFile]
  rw [hsurroundings]
  exact sameEffect_moved hnamed (Entry.find?_withFile isName_standardConfigFile hroot hnew text)
    (collectInputs_withFile (by decide) hinputs)

end

/-! ## Where settings come from -/

/-- The text of a configuration file that chooses the dark theme and nothing else. -/
def darkConfig : String := "[axis]\ntheme = \"dark\"\n"

theorem exists_darkConfig : ∃ document, Toml.read? darkConfig = some document ∧
    (Config.ofToml? document).isSome = true ∧ Key.theme.stated? document = some Overlay.Theme.dark ∧
      ∀ k : Key, k ≠ .theme → k.stated? document = none := by
  let others : List Key := [.resolution, .toolHeight, .unitSystem, .defaultSpan, .metricStyle, .imperialStyle]
  have hread : (Toml.read? darkConfig).map (fun document => ((Config.ofToml? document).isSome,
      Key.theme.stated? document, others.all fun k => (k.stated? document).isNone) :
        Toml → Bool × Option Overlay.Theme × Bool) = some (true, some .dark, true) := by
    decide +kernel
  obtain ⟨document, hdocument, hstated⟩ := Option.map_eq_some_iff.1 hread
  obtain ⟨haccepted, hstated⟩ := Prod.mk.inj hstated
  obtain ⟨htheme, hothers⟩ := Prod.mk.inj hstated
  refine ⟨document, hdocument, haccepted, htheme, fun k hk => ?_⟩
  have hmem : k ∈ others := by cases k <;> first | decide | exact absurd rfl hk
  exact Option.isNone_iff_eq_none.1 (List.all_eq_true.1 hothers k hmem)

/-- **Every setting has its value from the first source that has one**: an option, a variable that can be read, the
configuration file, or else the standard settings.

* In these settings a configured run draws its overlay, or reads its documents.
* Options that are given are read, and only the unit system and the theme of an overlay are options.
* A variable that cannot be read only warns, and a run does the same without it.
* A key without a variable does not depend on the environment.
* A run does the same with a configuration file that is named and with the same text in the standard file, whatever else
  there is, if its inputs mean the same documents; so it does in a directory into which the standard file is put.
* A text that is no configuration stops a run before it does anything. -/
theorem run_settings :
    (∀ s named document, Configures s named document → Precedence s named document) ∧
    (∀ arguments named unit theme,
      (∃ bounds output json,
        Invocation.ofArguments arguments = .ok ⟨named, .overlay bounds unit theme output json⟩) ↔
        AsksOverlay arguments named unit theme) ∧
    (∀ (environment : String → Option String) (k : Key) (name text : String), k.variableName = some name →
      environment name = some text → k.ofText? text = none →
        (∀ c, Config.OnlyWarns environment name c) ∧
        ∀ entry writable invocation, run ⟨entry, writable, environment⟩ invocation =
          run ⟨entry, writable, Config.without environment name⟩ invocation) ∧
    (∀ (k : Key) (flag : Option k.Value) (environment environment' : String → Option String)
      (document : Option Toml), k.variableName = none →
        k.effective flag environment document = k.effective flag environment' document) ∧
    (∀ (s : Surroundings) (entry : String → Option Entry) (path text : String) (task : Task),
      s.entry path = some (.file (some text)) → entry standardConfigFile = some (.file (some text)) →
      collectInputs entry task.inputs = collectInputs s.entry task.inputs →
        (run s ⟨some path, task⟩).SameEffect (run { s with entry := entry } ⟨none, task⟩)) ∧
    (∀ (root : Entry) (environment : String → Option String) (path text : String) (task : Task),
      root.find? standardConfigFile = none → root.find? path = some (.file (some text)) →
        ∃ root', root.write? standardConfigFile text = some root' ∧
          ((∀ input ∈ task.inputs, root.find? input = none → root'.find? input = none) →
            (run (.ofTree root environment) ⟨some path, task⟩).SameEffect
              (run (.ofTree root' environment) ⟨none, task⟩))) ∧
    ∀ (s : Surroundings) (named : Option String) (text : String) (task : Task),
      s.entry (named.getD standardConfigFile) = some (.file (some text)) → Config.read? text = none →
        (run s ⟨named, task⟩).Idle := by
  refine ⟨fun _ _ _ => precedence_of_configures, fun _ _ _ _ => ofArguments_overlay_iff, ?_,
    fun _ flag environment environment' document hname =>
      Key.effective_of_no_variable hname flag environment environment' document,
    fun _ _ _ _ _ hnamed hstandard hinputs => sameEffect_moved hnamed hstandard hinputs,
    fun _ environment _ _ _ hnew hnamed => sameEffect_written environment hnew hnamed,
    fun _ _ _ task hentry hrefused => idle_of_refused hentry hrefused task⟩
  intro environment k name text hname hvalue hunread
  exact ⟨Config.override_of_unreadable hname hvalue hunread, fun _ _ => run_of_unreadable hname hvalue hunread⟩

/-- A file named on the command line chooses the dark theme, and the environment inches, a resolution, and a theme that
is none. The overlay is dark and in inches, or light and in millimetres if options say so, and otherwise as it is by
default; documents are read with the resolution. -/
theorem run_settings_dark :
    let root : Entry := .directory [("dark.toml", .file (some darkConfig)),
      ("ball.json", .file (some "\x7b\"kind\": \"sphere\", \"params\": \x7b\"r\": 1\x7d\x7d"))]
    let environment (name : String) : Option String :=
      [("SCADGEN_UNIT", " IN"), ("SCADGEN_RESOLUTION", "64"), ("SCADGEN_THEME", "neon")].lookup name
    let s : Surroundings := .ofTree root environment
    let bounds : Overlay.Bounds Float := ⟨⟨0, 0⟩, ⟨0, 0⟩, ⟨0, 0⟩⟩
    let task (unit : Option Overlay.UnitSystem) (theme : Option Overlay.Theme) : Task :=
      .overlay bounds unit theme none false
    let drawn (u : Overlay.UnitSystem) (t : Overlay.Theme) : Overlay.Rendered :=
      Overlay.render (Overlay.Style.ofUnit u) u t (bounds.normalize Overlay.defaultSpan u)
    let plain : List String := ["-c", "dark.toml", "axis"]
    let chosen : List String := ["axis", "-c", "dark.toml", "-u", "mm", "--theme= Light"]
    Invocation.ofArguments plain = .ok ⟨some "dark.toml", task none none⟩ ∧
    Invocation.ofArguments chosen = .ok ⟨some "dark.toml", task (some .metric) (some .light)⟩ ∧
    AsksOverlay chosen (some "dark.toml") (some .metric) (some .light) ∧
    ∃ document ball, Configures s (some "dark.toml") (some document) ∧
      run s ⟨some "dark.toml", task none none⟩ =
        .print ((drawn .imperial .dark).script ++ (drawn .imperial .dark).invocation ++ "\n") ∧
      run s ⟨some "dark.toml", task (some .metric) (some .light)⟩ =
        .print ((drawn .metric .light).script ++ (drawn .metric .light).invocation ++ "\n") ∧
      (filesAt s.entry ["ball.json"]).map Input.source? = [some ball] ∧
      (run s ⟨some "dark.toml", .build ["ball.json"] none false⟩).Renders s ⟨64, Options.standard.toolHeight⟩ .compact
        none [ball] ∧
      ∃ root', root.write? standardConfigFile darkConfig = some root' ∧
        (run s ⟨some "dark.toml", task none none⟩).SameEffect
          (run (.ofTree root' environment) ⟨none, task none none⟩) := by
  intro root environment s bounds task drawn plain chosen
  obtain ⟨document, hdocument, haccepted, htheme, hothers⟩ := exists_darkConfig
  obtain ⟨hconfigured, hasks, -, -, -, hwritten, -⟩ := run_settings
  have hplain : Invocation.ofArguments plain = .ok ⟨some "dark.toml", task none none⟩ := by rfl
  have hchosen : Invocation.ofArguments chosen = .ok ⟨some "dark.toml", task (some .metric) (some .light)⟩ := by rfl
  have hentry : s.entry "dark.toml" = some (.file (some darkConfig)) := by rfl
  have hconfigures : Configures s (some "dark.toml") (some document) := ⟨darkConfig, hentry, hdocument, haccepted⟩
  have hprecedence := hconfigured s _ _ hconfigures
  obtain ⟨root', hroot', hsame⟩ := hwritten root environment "dark.toml" darkConfig (task none none) (by rfl) hentry
  have hinches : Key.unitSystem.effective none environment (some document) = Overlay.UnitSystem.imperial := by
    refine Key.effective_of_override ?_
    show (Overlay.UnitSystem.ofName " IN").toOption = some .imperial
    decide +kernel
  have hdark : Key.theme.effective none environment (some document) = Overlay.Theme.dark := by
    refine Key.effective_of_stated ?_ htheme
    show (Overlay.Theme.ofName "neon").toOption = none
    decide +kernel
  have hshown : ∀ (unit : Option Overlay.UnitSystem) (theme : Option Overlay.Theme) (u : Overlay.UnitSystem)
      (t : Overlay.Theme), Key.unitSystem.effective unit environment (some document) = u →
        Key.theme.effective theme environment (some document) = t → run s ⟨some "dark.toml", task unit theme⟩ =
          .print ((drawn u t).script ++ (drawn u t).invocation ++ "\n") := by
    intro unit theme u t hu ht
    have hdrawn : effectiveOverlay bounds unit theme environment (some document) = drawn u t := by
      refine (effectiveOverlay_eq hu ht (Key.effective_of_unstated rfl (hothers .defaultSpan nofun))
        (Key.effective_of_unstated rfl (hothers .metricStyle nofun))
        (Key.effective_of_unstated rfl (hothers .imperialStyle nofun))).trans ?_
      cases u <;> rfl
    rw [← hdrawn]
    exact (hprecedence.overlay bounds unit theme none false).asScript rfl rfl
  have hoptions : effectiveOptions environment (some document) = ⟨64, Options.standard.toolHeight⟩ := by
    have hresolution : Key.resolution.effective none environment (some document) = (64 : UInt32) := by
      refine Key.effective_of_override ?_
      show (Decimal.natural? UInt32.size "64").map UInt32.ofNat = some 64
      decide +kernel
    have htool : Key.toolHeight.effective none environment (some document) = Options.standard.toolHeight :=
      Key.effective_of_unstated rfl (hothers .toolHeight nofun)
    exact congrArg₂ Options.mk hresolution htool
  have hread : ((filesAt s.entry ["ball.json"]).map Input.source?).all Option.isSome = true := by decide +kernel
  have hpresent : ∀ path ∈ ["ball.json"], s.entry path ≠ none := List.forall_mem_singleton.2 (Option.some_ne_none _)
  obtain ⟨ball, hball⟩ := Option.isSome_iff_exists.1 (List.all_eq_true.1 hread _ List.mem_cons_self)
  have hsources : (filesAt s.entry ["ball.json"]).map Input.source? = [some ball] := congrArg (fun a => [a]) hball
  have hrendered := hprecedence.build ["ball.json"] [ball] none false hpresent hsources
  rw [show s.environment = environment from rfl, hoptions] at hrendered
  exact ⟨hplain, hchosen, (hasks chosen _ _ _).1 ⟨_, _, _, hchosen⟩, document, ball, hconfigures,
    hshown none none .imperial .dark hinches hdark, hshown (some .metric) (some .light) .metric .light rfl rfl,
    hsources, hrendered, root', hroot', hsame nofun⟩

end SolidScript.Command
