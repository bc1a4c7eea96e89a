import SolidScript.Command.Arguments
import SolidScript.Command.Inputs
import SolidScript.Command.Kinds
import SolidScript.Config.Override
import SolidScript.Config.Text
import SolidScript.Document.Build
import SolidScript.Json.Write
import SolidScript.Overlay.Stored
import SolidScript.Script.Render
import SolidScript.Text.Visible.Escape

/-!
# Running a command

A run sees its `Surroundings`, the files at the paths that are named and the environment, and has an `Outcome`: what is
printed, whether it succeeded, and the file that it writes. The configuration is read before all else: the file that
the command line names, or the standard one if it is there; the environment overrides it, and options of the command
override both. Rendering documents stops before anything is printed if an input is missing or is no JSON text; a
document that cannot be built is reported and the others are rendered.
-/

namespace SolidScript.Command

/-- What a run sees of the world. -/
structure Surroundings where
  /-- What stands at a path. -/
  entry : String → Option Entry
  /-- Whether a file can be written at a path. -/
  writable : String → Bool
  /-- The value of an environment variable. -/
  environment : String → Option String

/-- What comes of a run. -/
structure Outcome where
  success : Bool
  output : String
  /-- The lines that tell what went wrong. -/
  errors : List String
  /-- The file that is written, with its text. -/
  written : Option (String × String)

namespace Outcome

/-- A success that prints a text. -/
def print (text : String) : Outcome := ⟨true, text, [], none⟩

/-- A failure for one reason. -/
def fail (reason : String) : Outcome := ⟨false, "", [reason], none⟩

end Outcome

/-! ## Configuration -/

/-- The configuration file that is read if none is named. -/
def standardConfigFile : String := "scadgen.toml"

/-- The configuration in a file, or why there is none. -/
def readConfig (path : String) (entry : Option Entry) : Except String Config :=
  match entry with
  | some (.file (some text)) =>
    match Config.read? text with
    | some config => .ok config
    | none => .error ("Failed to parse config file: " ++ Text.Visible.quote path)
  | _ => .error ("Failed to read config file: " ++ Text.Visible.quote path)

/-- The configuration of a run, overridden by the environment. -/
def loadConfig (s : Surroundings) (named : Option String) : Except String Config :=
  let config := match named with
    | some path => readConfig path (s.entry path)
    | none =>
      match s.entry standardConfigFile with
      | some found => readConfig standardConfigFile (some found)
      | none => .ok Config.standard
  config.map fun config => (config.override s.environment).1

/-! ## Rendering documents -/

/-- An input whose document has been read. -/
structure Source where
  path : String
  document : Json

/-- The document of an input, or why it cannot be read. -/
def readSource (input : Input) : Except String Source :=
  match input.text with
  | none => .error ("Failed to read " ++ input.path)
  | some text =>
    match Json.read? text with
    | some document => .ok ⟨input.path, document⟩
    | none => .error ("Failed to parse " ++ input.path)

/-- The documents of all inputs, or why the first of them cannot be read. -/
def readSources : List Input → Except String (List Source)
  | [] => .ok []
  | input :: rest =>
    match readSource input with
    | .error reason => .error reason
    | .ok source =>
      match readSources rest with
      | .error reason => .error reason
      | .ok sources => .ok (source :: sources)

/-- A text that ends in a line end. -/
def withLineEnd (text : String) : String := if text.toList.getLast? = some '\n' then text else text ++ "\n"

/-- The script of a source, or what is wrong with its document. -/
def renderSource (options : Options) (style : Script.Style) (source : Source) : Except String String :=
  match (Document.read options source.document).result with
  | .ok node => .ok (withLineEnd (Node.render style node))
  | .error error => .error (source.path ++ ": " ++ error.message)

/-- The line that names the source of what follows. -/
def sourceLine (source : Source) : String := "// " ++ source.path ++ "\n"

/-- The script of all sources that can be built, each named if there are several, and what is wrong with the others. -/
def renderSources (options : Options) (style : Script.Style) (named : Bool) : List Source → String × List String
  | [] => ("", [])
  | source :: rest =>
    let (script, errors) := renderSources options style named rest
    match renderSource options style source with
    | .ok text => ((if named then sourceLine source else "") ++ text ++ script, errors)
    | .error error => (script, error :: errors)

/-- The run that renders sources. -/
def buildSources (s : Surroundings) (options : Options) (style : Script.Style) (output : Option String)
    (sources : List Source) : Outcome :=
  let (script, errors) := renderSources options style (decide (1 < sources.length)) sources
  let count := Decimal.Digits.write
  let failures :=
    if errors.isEmpty then []
    else [count errors.length ++ " of " ++ count sources.length ++ " document(s) failed"]
  match output with
  | none => ⟨errors.isEmpty, script, errors ++ failures, none⟩
  | some path =>
    if s.writable path then
      let rendered := count (sources.length - errors.length)
      ⟨errors.isEmpty, "Rendered " ++ rendered ++ " document(s) -> " ++ path ++ "\n", errors ++ failures,
       some (path, script)⟩
    else ⟨false, "", errors ++ ["Failed to write " ++ path], none⟩

/-- The run that renders the documents of inputs. -/
def build (s : Surroundings) (config : Config) (inputs : List String) (output : Option String) (pretty : Bool) :
    Outcome :=
  match collectInputs s.entry inputs with
  | .error missing => .fail ("Input not found: " ++ missing)
  | .ok files =>
    match readSources files with
    | .error reason => .fail reason
    | .ok sources => buildSources s config.nodes (if pretty then .indented else .compact) output sources

/-! ## The other commands -/

/-- The run that renders an overlay. -/
def overlay (s : Surroundings) (config : Config) (bounds : Overlay.Bounds Float) (unit : Option Overlay.UnitSystem)
    (theme : Option Overlay.Theme) (output : Option String) (json : Bool) : Outcome :=
  let unit := unit.getD config.overlay.unitSystem
  let result := config.overlay.generate bounds unit (theme.getD config.overlay.theme)
  if json then .print (result.toJson.pretty ++ "\n")
  else
    match output with
    | none => .print (result.script ++ result.invocation ++ "\n")
    | some path =>
      if s.writable path then
        let volume := Decimal.plain.write result.volumeLinear ++ " " ++ unit.volumeUnits.1 ++ " ("
          ++ Decimal.plain.write result.volumeScaled ++ " " ++ unit.volumeUnits.2 ++ ")"
        let report := "Module: " ++ result.moduleName ++ "\nInvocation: " ++ result.invocation ++ "\nVolume: "
          ++ volume ++ "\nOutput: " ++ path ++ "\n"
        ⟨true, report, [], some (path, result.script)⟩
      else .fail ("Failed to write " ++ path)

/-- The run that lists kinds, or the parameters of one. -/
def kinds (kind : Option String) (json : Bool) : Outcome :=
  match kind with
  | none => .print (if json then kindList.pretty ++ "\n" else kindTable)
  | some tag =>
    match Kind.ofTag? tag with
    | none => .fail (unknownKindMessage tag)
    | some kind => .print (if json then (schemaJson kind).pretty ++ "\n" else parameterTable kind)

/-- The name and version of the program. -/
def versionLine : String := "scadgen v0.1.0\n"

/-- The run of a task with a configuration. -/
def runTask (s : Surroundings) (config : Config) : Task → Outcome
  | .build inputs output pretty => build s config inputs output pretty
  | .overlay bounds unit theme output json => overlay s config bounds unit theme output json
  | .kinds kind json => kinds kind json
  | .version => .print versionLine

/-- The run that a command line asks for. -/
def run (s : Surroundings) (invocation : Invocation) : Outcome :=
  match loadConfig s invocation.config with
  | .error reason => .fail reason
  | .ok config => runTask s config invocation.task

/-- The text that tells what went wrong. -/
def Outcome.errorText (o : Outcome) : String := String.join (o.errors.map fun error => "Error: " ++ error ++ "\n")

end SolidScript.Command
