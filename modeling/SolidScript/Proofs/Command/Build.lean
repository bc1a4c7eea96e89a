import Mathlib.Data.List.DropRight
import SolidScript.Command.Run
import SolidScript.Proofs.Document.Children
import SolidScript.Proofs.Json.Readable

/-!
# Rendering a batch of documents

What a run that renders documents leaves behind. It goes in three stages, and only the last can fail in part: if an
input is missing or a file holds no document, the run stops before anything is printed or written; after that every
document counts on its own.

* `collectInputs_of_present`, `collectInputs_of_missing`: all files are collected, or the run stops.
* `readSources_eq_ok`, `readSources_of_unreadable`: all documents are read, or the run stops.
* `withLineEnd_render`: a script gets exactly one line end, in either layout.
* `renderSources_eq`: what is rendered and what is reported are read off the documents one by one, in order.
* `run_build`: what is printed and written, and whether the run succeeds.
-/

namespace SolidScript.Command

/-! ## Collecting files -/

/-- The files that the inputs mean, in order. An input that is not there means none. -/
def filesAt (entry : String → Option Entry) (inputs : List String) : List Input :=
  inputs.flatMap fun path => ((entry path).map (filesOfInput path)).getD []

section Collecting

variable {entry : String → Option Entry} {inputs : List String}

theorem collectInputs_of_present (h : ∀ path ∈ inputs, entry path ≠ none) :
    collectInputs entry inputs = .ok (filesAt entry inputs) := by
  induction inputs with
  | nil => rfl
  | cons path rest ih =>
    obtain ⟨hpath, hrest⟩ := List.forall_mem_cons.1 h
    obtain ⟨found, hfound⟩ := Option.ne_none_iff_exists'.1 hpath
    rw [collectInputs, hfound, ih hrest, filesAt, filesAt, List.flatMap_cons, hfound]
    rfl

theorem collectInputs_of_missing (h : ∃ path ∈ inputs, entry path = none) :
    ∃ missing, collectInputs entry inputs = .error missing := by
  induction inputs with
  | nil => simp at h
  | cons path rest ih =>
    rw [collectInputs]
    cases hfound : entry path with
    | none => exact ⟨path, rfl⟩
    | some found =>
      have hrest := ((List.exists_mem_cons_iff _ _ _).1 h).resolve_left (by rw [hfound]; exact Option.some_ne_none _)
      obtain ⟨missing, hcollect⟩ := ih hrest
      exact ⟨missing, by rw [hcollect]⟩

end Collecting

/-! ## Reading documents -/

/-- The document of a file, if it can be read and its text is a JSON text. -/
def Input.source? (file : Input) : Option Source :=
  (file.text.bind Json.read?).map fun document => ⟨file.path, document⟩

section Reading

variable {file : Input} {files : List Input}

theorem readSource_eq_ok {source : Source} (h : file.source? = some source) : readSource file = .ok source := by
  obtain ⟨document, hdocument, rfl⟩ := Option.map_eq_some_iff.1 h
  obtain ⟨text, htext, hread⟩ := Option.bind_eq_some_iff.1 hdocument
  rw [readSource, htext]
  simp only [hread]

theorem readSource_of_unreadable (h : file.source? = none) : ∃ reason, readSource file = .error reason := by
  rw [Input.source?, Option.map_eq_none_iff] at h
  rw [readSource]
  cases htext : file.text with
  | none => exact ⟨_, rfl⟩
  | some text =>
    rw [htext, Option.bind_some] at h
    simp only [h]
    exact ⟨_, rfl⟩

theorem readSources_eq_ok {sources : List Source} (h : files.map Input.source? = sources.map some) :
    readSources files = .ok sources := by
  induction files generalizing sources with
  | nil =>
    cases sources with
    | nil => rfl
    | cons source rest => cases h
  | cons file rest ih =>
    cases sources with
    | nil => cases h
    | cons source others =>
      obtain ⟨hfile, hrest⟩ := List.cons.inj h
      rw [readSources, readSource_eq_ok hfile, ih hrest]

theorem readSources_of_unreadable (h : ∃ file ∈ files, file.source? = none) :
    ∃ reason, readSources files = .error reason := by
  induction files with
  | nil => simp at h
  | cons file rest ih =>
    rw [readSources]
    cases hsource : file.source? with
    | none =>
      obtain ⟨reason, hread⟩ := readSource_of_unreadable hsource
      exact ⟨reason, by rw [hread]⟩
    | some source =>
      have hrest := ((List.exists_mem_cons_iff _ _ _).1 h).resolve_left (by rw [hsource]; exact Option.some_ne_none _)
      obtain ⟨reason, hread⟩ := ih hrest
      exact ⟨reason, by rw [readSource_eq_ok hsource, hread]⟩

theorem exists_sources (h : ∀ file ∈ files, file.source? ≠ none) :
    ∃ sources : List Source, files.map Input.source? = sources.map some := by
  induction files with
  | nil => exact ⟨[], rfl⟩
  | cons file rest ih =>
    obtain ⟨hfile, hrest⟩ := List.forall_mem_cons.1 h
    obtain ⟨source, hsource⟩ := Option.ne_none_iff_exists'.1 hfile
    obtain ⟨sources, hsources⟩ := ih hrest
    exact ⟨source :: sources, by rw [List.map_cons, List.map_cons, hsource, hsources]⟩

end Reading

/-! ## Line ends -/

/-- A text with exactly one line end behind it. -/
def lineEnded (text : String) : String := String.ofList (text.toList.rdropWhile (· == '\n') ++ ['\n'])

theorem suffix_toList_append {suffix : List Char} {second : String} (h : suffix <:+ second.toList) (first : String) :
    suffix <:+ (first ++ second).toList := by
  rw [String.toList_append]
  exact h.trans (List.suffix_append first.toList second.toList)

/-- A script ends in a semicolon, with a line end behind it if it is indented. -/
theorem suffix_layout (style : Script.Style) (statement : Script.Statement) :
    [';'] <:+ (statement.layout style).toList ∨ [';', '\n'] <:+ (statement.layout style).toList := by
  cases style with
  | compact =>
    left
    cases statement with
    | call text => exact suffix_toList_append (by decide) _
    | block header body => exact suffix_toList_append (by decide) _
  | indented =>
    right
    rcases statement with text | ⟨header, _ | ⟨first, rest⟩⟩
    · exact suffix_toList_append (by decide) _
    · exact suffix_toList_append (by decide) _
    · exact suffix_toList_append (by decide) _

/-- **A script gets exactly one line end.** -/
theorem withLineEnd_render (style : Script.Style) (node : Node Float) :
    withLineEnd (node.render style) = lineEnded (node.render style) := by
  have hkept : ∀ body : List Char, (body ++ [';']).rdropWhile (· == '\n') = body ++ [';'] :=
    fun body => List.rdropWhile_concat_neg _ _ _ (by decide)
  rw [← String.toList_inj, withLineEnd, lineEnded, String.toList_ofList]
  rcases suffix_layout style node.statement with ⟨body, hbody⟩ | ⟨body, hbody⟩
  · rw [Node.render, ← hbody, hkept, List.getLast?_concat, if_neg (by decide), String.toList_append, ← hbody]
    rfl
  · have hsplit : (node.render style).toList = (body ++ [';']) ++ ['\n'] := by
      rw [Node.render, ← hbody, List.append_assoc]
      rfl
    rw [hsplit, List.rdropWhile_concat_pos _ _ _ (by decide), hkept, List.getLast?_concat, if_pos rfl, hsplit]

/-! ## Rendering documents -/

namespace Source

variable (options : Options) (style : Script.Style) (named : Bool)

/-- What a source adds to the script if its document can be built: the script of the document, ended by one line end,
behind a line with its path if sources are named. -/
def part? (source : Source) : Option String :=
  match (Document.read options source.document).result with
  | .ok node => some ((if named then "// " ++ source.path ++ "\n" else "") ++ lineEnded (node.render style))
  | .error _ => none

/-- What is reported of a source if its document cannot be built. -/
def complaint? (source : Source) : Option String :=
  match (Document.read options source.document).result with
  | .ok _ => none
  | .error error => some (source.path ++ ": " ++ error.message)

end Source

section Rendering

/-- The script of sources: what each of them adds to it, in order. They are named if there are several. -/
def scriptOf (options : Options) (style : Script.Style) (sources : List Source) : String :=
  String.join (sources.filterMap (Source.part? options style (decide (1 < sources.length))))

/-- What is reported of sources, in order. -/
def complaintsOf (options : Options) (sources : List Source) : List String :=
  sources.filterMap (Source.complaint? options)

/-- The line about all documents that cannot be built, if there are any. -/
def summaryOf (options : Options) (sources : List Source) : List String :=
  let failed := (complaintsOf options sources).length
  if failed = 0 then []
  else [Decimal.Digits.write failed ++ " of " ++ Decimal.Digits.write sources.length ++ " document(s) failed"]

/-- **Every source counts on its own**: the script is what each source adds to it, in order, and so are the reports. -/
theorem renderSources_eq (options : Options) (style : Script.Style) (named : Bool) (sources : List Source) :
    renderSources options style named sources =
      (String.join (sources.filterMap (Source.part? options style named)), complaintsOf options sources) := by
  induction sources with
  | nil => rfl
  | cons source rest ih =>
    rw [renderSources, ih, renderSource, complaintsOf, complaintsOf]
    cases hresult : (Document.read options source.document).result with
    | ok node =>
      have hpart : Source.part? options style named source =
          some ((if named then sourceLine source else "") ++ withLineEnd (node.render style)) := by
        rw [Source.part?, hresult, withLineEnd_render]
        rfl
      have hcomplaint : Source.complaint? options source = none := by rw [Source.complaint?, hresult]
      rw [List.filterMap_cons_some hpart, List.filterMap_cons_none hcomplaint, String.join_cons]
    | error error =>
      have hpart : Source.part? options style named source = none := by rw [Source.part?, hresult]
      have hcomplaint : Source.complaint? options source = some (source.path ++ ": " ++ error.message) := by
        rw [Source.complaint?, hresult]
      rw [List.filterMap_cons_none hpart, List.filterMap_cons_some hcomplaint]

/-- Something is reported if and only if a document cannot be built. -/
theorem isEmpty_complaintsOf (options : Options) (sources : List Source) :
    (complaintsOf options sources).isEmpty = false ↔
      ∃ source ∈ sources, ∃ error, (Document.read options source.document).result = .error error := by
  have hcomplaint : ∀ source, Source.complaint? options source ≠ none ↔
      ∃ error, (Document.read options source.document).result = .error error := by
    intro source
    rw [Source.complaint?]
    cases (Document.read options source.document).result <;> simp
  rw [← Bool.not_eq_true, List.isEmpty_iff, complaintsOf, List.filterMap_eq_nil_iff]
  simp only [not_forall, exists_prop]
  exact exists_congr fun source => and_congr_right fun _ => hcomplaint source

end Rendering

/-! ## The run -/

section Run

variable {s : Surroundings} {config : Config} {inputs : List String}

/-- The run stops if something cannot be read. -/
theorem build_of_unreadable (output : Option String) (pretty : Bool)
    (h : (∃ path ∈ inputs, s.entry path = none) ∨ ∃ file ∈ filesAt s.entry inputs, file.source? = none) :
    ∃ reason, build s config inputs output pretty = .fail reason := by
  rw [build]
  by_cases hmissing : ∃ path ∈ inputs, s.entry path = none
  · obtain ⟨missing, hcollect⟩ := collectInputs_of_missing hmissing
    rw [hcollect]
    exact ⟨_, rfl⟩
  · have hpresent : ∀ path ∈ inputs, s.entry path ≠ none := by
      intro path hpath hnone
      exact hmissing ⟨path, hpath, hnone⟩
    obtain ⟨reason, hread⟩ := readSources_of_unreadable (h.resolve_left hmissing)
    rw [collectInputs_of_present hpresent]
    simp only [hread]
    exact ⟨reason, rfl⟩

/-- The documents are rendered if all can be read. -/
theorem build_of_readable {sources : List Source} (output : Option String) (pretty : Bool)
    (hpresent : ∀ path ∈ inputs, s.entry path ≠ none)
    (hsources : (filesAt s.entry inputs).map Input.source? = sources.map some) :
    build s config inputs output pretty =
      buildSources s config.nodes (if pretty then .indented else .compact) output sources := by
  rw [build, collectInputs_of_present hpresent]
  simp only [readSources_eq_ok hsources]

/-- What comes of sources: a script that is printed or written, if it can be, and the lines about those that cannot be
built. -/
theorem buildSources_eq {output : Option String} (houtput : ∀ path ∈ output, s.writable path = true)
    (options : Options) (style : Script.Style) (sources : List Source) :
    buildSources s options style output sources =
      let rendered := Decimal.Digits.write (sources.length - (complaintsOf options sources).length)
      { success := (complaintsOf options sources).isEmpty
        output := match output with
          | none => scriptOf options style sources
          | some path => "Rendered " ++ rendered ++ " document(s) -> " ++ path ++ "\n"
        errors := complaintsOf options sources ++ summaryOf options sources
        written := output.map fun path => (path, scriptOf options style sources) } := by
  have hsummary : summaryOf options sources =
      if (complaintsOf options sources).isEmpty then []
      else [Decimal.Digits.write (complaintsOf options sources).length ++ " of "
        ++ Decimal.Digits.write sources.length ++ " document(s) failed"] := by
    rw [summaryOf]
    cases complaintsOf options sources <;> rfl
  rw [buildSources, renderSources_eq, hsummary]
  cases output with
  | none => rfl
  | some path =>
    simp only [houtput path rfl, if_true]
    rfl

end Run

/-- **Rendering a batch is all or nothing on unreadable input and complete on bad documents.** If an input is missing
or a file holds no document, the run fails and nothing is printed or written. Otherwise the script is written to the
output file, or printed if there is none, whether or not all documents can be built: it is the scripts of those that
can, in order. There is a line about each of the others, in order, and if there are any a line that counts them and the
run fails. -/
theorem run_build {s : Surroundings} {named : Option String} {config : Config} {output : Option String}
    (hconfig : loadConfig s named = .ok config) (houtput : ∀ path ∈ output, s.writable path = true)
    (inputs : List String) (pretty : Bool) :
    let outcome := run s ⟨named, .build inputs output pretty⟩
    let files := filesAt s.entry inputs
    let style := if pretty then .indented else .compact
    ((∃ path ∈ inputs, s.entry path = none) ∨ (∃ file ∈ files, file.source? = none) →
      outcome.success = false ∧ outcome.output = "" ∧ outcome.written = none) ∧
    ((∀ path ∈ inputs, s.entry path ≠ none) → (∀ file ∈ files, file.source? ≠ none) →
      ∃ sources : List Source, files.map Input.source? = sources.map some ∧
        (output = none → outcome.output = scriptOf config.nodes style sources) ∧
        outcome.written = output.map (fun path => (path, scriptOf config.nodes style sources)) ∧
        outcome.errorText = String.join
          ((complaintsOf config.nodes sources ++ summaryOf config.nodes sources).map fun line =>
            "Error: " ++ line ++ "\n") ∧
        (outcome.success = false ↔
          ∃ source ∈ sources, ∃ error, (Document.read config.nodes source.document).result = .error error)) := by
  intro outcome files style
  have hrun : outcome = build s config inputs output pretty := by
    show run s _ = _
    rw [run, hconfig]
    rfl
  rw [hrun]
  constructor
  · intro hunreadable
    obtain ⟨reason, hfail⟩ := build_of_unreadable output pretty hunreadable
    rw [hfail]
    exact ⟨rfl, rfl, rfl⟩
  · intro hpresent hreadable
    obtain ⟨sources, hsources⟩ := exists_sources hreadable
    rw [build_of_readable output pretty hpresent hsources, buildSources_eq houtput]
    refine ⟨sources, hsources, ?_, rfl, rfl, isEmpty_complaintsOf _ _⟩
    rintro rfl
    rfl

/-- A hull and a union, and between them a cube without a size. -/
theorem run_build_mixed :
    let bare (kind : Kind) : Json := .object [("kind", .string kind.tag), ("params", .object [])]
    let file (kind : Kind) : Entry := .file (some (bare kind).compact)
    let s : Surroundings :=
      ⟨fun path => [("a", file .hull), ("b", file .cube), ("c", file .union)].lookup path, fun _ => true, fun _ => none⟩
    let outcome := run s ⟨none, .build ["a", "b", "c"] (some "all.scad") false⟩
    loadConfig s none = .ok Config.standard ∧ (∀ path ∈ some "all.scad", s.writable path = true) ∧
      outcome.success = false ∧
      outcome.written = some ("all.scad", "// a\nhull() \x7b \x7d;\n// c\nunion() \x7b \x7d;\n") ∧
      outcome.errorText = "Error: b: missing parameter 'size' for cube\nError: 1 of 3 document(s) failed\n" := by
  intro bare file s outcome
  have hconfig : loadConfig s none = .ok Config.standard := rfl
  have houtput : ∀ path ∈ some "all.scad", s.writable path = true := fun _ _ => rfl
  let sources : List Source := [⟨"a", bare .hull⟩, ⟨"b", bare .cube⟩, ⟨"c", bare .union⟩]
  have hparse : ∀ kind, Json.read? (bare kind).compact = some (bare kind) := by
    intro kind
    have hexact : Json.Exact (bare kind) := by simp [bare, Json.exact_object, Json.Exact.string]
    have hdepth : (bare kind).depth ≤ Json.depthLimit := by
      simp only [bare, Json.depth, Json.depthFields]
      decide
    rw [Json.read?_compact hexact hdepth]
    rfl
  have hfiles : (filesAt s.entry ["a", "b", "c"]).map Input.source? = sources.map some := by
    show [Input.source? ⟨"a", some (bare .hull).compact⟩, Input.source? ⟨"b", some (bare .cube).compact⟩,
      Input.source? ⟨"c", some (bare .union).compact⟩] = _
    simp only [Input.source?, Option.bind_some, hparse]
    rfl
  have hreadable : ∀ file ∈ filesAt s.entry ["a", "b", "c"], file.source? ≠ none := by
    intro file hfile hnone
    have hmem := List.mem_map_of_mem (f := Input.source?) hfile
    rw [hfiles, hnone] at hmem
    simp at hmem
  have hread : ∀ kind, (Document.read .standard (bare kind)).result =
      (Document.build .standard kind []).result.mapError .node :=
    fun kind => congrArg Report.result (Document.read_named (Document.named?_tag kind []))
  have hhull : (Document.read .standard (bare .hull)).result = .ok (.apply .hull []) := (hread .hull).trans rfl
  have hunion : (Document.read .standard (bare .union)).result = .ok (.apply .union []) := (hread .union).trans rfl
  have hcube : (Document.read .standard (bare .cube)).result = .error (.node (.missing .cube "size")) :=
    (hread .cube).trans rfl
  have hrender : ∀ op, lineEnded (Node.render .compact (.apply op [])) =
      lineEnded (op.header ++ " \x7b " ++ "" ++ "\x7d;") := by
    intro op
    rw [Node.render, Node.statement_apply, Node.statements]
    rfl
  have hscript : scriptOf .standard .compact sources = "// a\nhull() \x7b \x7d;\n// c\nunion() \x7b \x7d;\n" := by
    simp only [scriptOf, sources, List.filterMap, Source.part?, hhull, hcube, hunion, hrender]
    rfl
  have hcomplaints : complaintsOf .standard sources = ["b: missing parameter 'size' for cube"] := by
    simp only [complaintsOf, sources, List.filterMap, Source.complaint?, hhull, hcube, hunion]
    rfl
  have hsummary : summaryOf .standard sources = ["1 of 3 document(s) failed"] := by
    rw [summaryOf, hcomplaints]
    decide
  obtain ⟨_, hsources, -, hwritten, herrors, hsuccess⟩ :=
    (run_build hconfig houtput ["a", "b", "c"] false).2 (by simp [s, List.lookup]) hreadable
  cases (List.map_inj_right fun _ _ => Option.some.inj).1 (hfiles.symm.trans hsources)
  refine ⟨hconfig, houtput, hsuccess.2 ⟨⟨"b", bare .cube⟩, by simp [sources], _, hcube⟩, ?_, ?_⟩
  · exact hwritten.trans (congrArg (fun script => some ("all.scad", script)) hscript)
  · refine herrors.trans ?_
    show String.join ((complaintsOf .standard sources ++ summaryOf .standard sources).map _) = _
    rw [hcomplaints, hsummary]
    rfl

end SolidScript.Command
