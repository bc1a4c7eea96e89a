import SolidScript.Decimal.Read
import SolidScript.Overlay.Settings

/-!
# Command lines

What a command line asks for. An option has a long name and perhaps a letter; it is a flag, or takes a value as
`--name value`, `--name=value`, `-n value`, `-nvalue` or `-n=value`. Letters may share one dash. All else are operands,
as is everything behind `--`. No option may be given twice, and an argument is refused as soon as it is met; a request
for help that comes first wins. The options of every command may also stand before the name of the command.
-/

namespace SolidScript.Command

/-- What a command line asks for. -/
inductive Task where
  /-- Render documents, from files and from directories of files. -/
  | build (inputs : List String) (output : Option String) (pretty : Bool)
  /-- Render the overlay of bounds. -/
  | overlay (bounds : Overlay.Bounds Float) (unit : Option Overlay.UnitSystem) (theme : Option Overlay.Theme)
      (output : Option String) (json : Bool)
  /-- List the kinds of node, or the parameters of one kind. -/
  | kinds (kind : Option String) (json : Bool)
  | version

/-- A task, and the configuration file it is to be run with. -/
structure Invocation where
  config : Option String
  task : Task

/-- Why a command line asks for no task. -/
inductive Stop where
  /-- It asks how to be used. -/
  | help
  /-- It cannot be understood. -/
  | refused
deriving DecidableEq, Repr

/-! ## Options -/

/-- An option that a command knows. -/
structure OptionRule where
  name : String
  letter : Option Char
  takesValue : Bool
  /-- Whether the next argument is the value even if it begins with a dash. -/
  takesDash : Bool
  /-- Whether a value makes sense. -/
  accepts : String → Bool

/-- An option without a value. -/
def flagRule (name : String) (letter : Option Char) : OptionRule := ⟨name, letter, false, false, fun _ => true⟩

/-- Whether a text can be a path. -/
def isPath (text : String) : Bool := !text.isEmpty

/-- An option whose value is a path. -/
def pathRule (name : String) (letter : Char) : OptionRule := ⟨name, some letter, true, false, isPath⟩

/-- An option whose value is a number. -/
def numberRule (name : String) : OptionRule :=
  ⟨name, none, true, true, fun value => (Decimal.float? value).isSome⟩

/-- Whether a result is a success. -/
def succeeds {ε α : Type} : Except ε α → Bool
  | .ok _ => true
  | .error _ => false

/-- The options that every command knows. -/
def commonRules : List OptionRule := [pathRule "config" 'c', flagRule "verbose" (some 'v')]

/-- The option for the output file. -/
def outputRule : OptionRule := pathRule "output" 'o'

/-- The options of the command that renders documents. -/
def buildRules : List OptionRule := outputRule :: flagRule "pretty" none :: commonRules

/-- The options of the command that renders an overlay. -/
def overlayRules : List OptionRule :=
  ["min-x", "max-x", "min-y", "max-y", "min-z", "max-z"].map numberRule
    ++ [⟨"unit", some 'u', true, false, fun value => succeeds (Overlay.UnitSystem.ofName value)⟩,
        ⟨"theme", some 't', true, false, fun value => succeeds (Overlay.Theme.ofName value)⟩,
        outputRule, flagRule "json" none]
    ++ commonRules

/-- The options of the command that lists kinds. -/
def kindsRules : List OptionRule := flagRule "json" none :: commonRules

/-! ## Scanning -/

/-- The options and operands met so far, and the arguments that are left for a command. -/
structure Scanned where
  options : List (String × String)
  operands : List String
  rest : List String

/-- One more option, which must not have been given yet. -/
def Scanned.option (s : Scanned) (rule : OptionRule) (value : String) : Except Stop Scanned :=
  if s.options.any (fun (name, _) => name == rule.name) || !rule.accepts value then .error .refused
  else .ok { s with options := s.options ++ [(rule.name, value)] }

/-- What operands a command takes. -/
structure OperandRule where
  most : Option Nat
  accepts : String → Bool

/-- One more operand. -/
def Scanned.operand (s : Scanned) (rule : OperandRule) (value : String) : Except Stop Scanned :=
  if rule.most.all (fun most => decide (s.operands.length < most)) && rule.accepts value then
    .ok { s with operands := s.operands ++ [value] }
  else .error .refused

/-- Options that share a dash: flags, of which the last may be an option with a value. If the value is not among the
letters, the option that waits for it comes back. -/
def scanLetters (rules : List OptionRule) : List Char → Scanned → Except Stop (Scanned × Option OptionRule)
  | [], s => .ok (s, none)
  | letter :: rest, s =>
    match rules.find? fun rule => rule.letter == some letter with
    | none => .error (if letter = 'h' then .help else .refused)
    | some rule =>
      if rule.takesValue then
        match rest with
        | [] => .ok (s, some rule)
        | '=' :: value => do .ok (← s.option rule (String.ofList value), none)
        | value => do .ok (← s.option rule (String.ofList value), none)
      else do scanLetters rules rest (← s.option rule "")

/-- An option with a long name: the name, and the value if there is one behind an equals sign. -/
def splitLong (text : List Char) : String × Option String :=
  match text.span (· != '=') with
  | (name, '=' :: value) => (String.ofList name, some (String.ofList value))
  | (name, _) => (String.ofList name, none)

/-- One option with a long name; it comes back if it waits for its value. -/
def scanLong (rules : List OptionRule) (text : List Char) (s : Scanned) :
    Except Stop (Scanned × Option OptionRule) :=
  let (name, value) := splitLong text
  match rules.find? fun rule => rule.name == name, value with
  | none, none => .error (if name = "help" then .help else .refused)
  | none, some _ => .error .refused
  | some rule, none => if rule.takesValue then .ok (s, some rule) else do .ok (← s.option rule "", none)
  | some rule, some value =>
    if rule.takesValue then do .ok (← s.option rule value, none) else .error .refused

/-- Whether an argument can be the value that an option waits for. -/
def canFollow (rule : OptionRule) (argument : String) : Bool :=
  rule.takesDash || argument == "-" || argument.toList.head? != some '-'

/-- One argument that is no value: options, or none if it is an operand. -/
def scanDashed (rules : List OptionRule) (argument : List Char) (s : Scanned) :
    Except Stop (Option (Scanned × Option OptionRule)) :=
  match argument with
  | '-' :: '-' :: long => (scanLong rules long s).map some
  | '-' :: letter :: letters => (scanLetters rules (letter :: letters) s).map some
  | _ => .ok none

/-- The options and operands of a command. -/
def scan (rules : List OptionRule) (operands : OperandRule) : List String → Scanned → Except Stop Scanned
  | [], s => .ok s
  | argument :: rest, s =>
    if argument = "--" then rest.foldlM (fun s value => s.operand operands value) s
    else
      match scanDashed rules argument.toList s with
      | .error stop => .error stop
      | .ok none =>
        match s.operand operands argument with
        | .error stop => .error stop
        | .ok s => scan rules operands rest s
      | .ok (some (s, none)) => scan rules operands rest s
      | .ok (some (s, some rule)) =>
        match rest with
        | [] => .error .refused
        | value :: rest =>
          if canFollow rule value then
            match s.option rule value with
            | .error stop => .error stop
            | .ok s => scan rules operands rest s
          else .error .refused

/-- The options before the name of a command; the name and what follows are left. -/
def scanCommon : List String → Scanned → Except Stop Scanned
  | [], s => .ok s
  | argument :: rest, s =>
    if argument = "--" then .error .refused
    else
      match scanDashed commonRules argument.toList s with
      | .error stop => .error stop
      | .ok none => .ok { s with rest := argument :: rest }
      | .ok (some (s, none)) => scanCommon rest s
      | .ok (some (s, some rule)) =>
        match rest with
        | [] => .error .refused
        | value :: rest =>
          if canFollow rule value then
            match s.option rule value with
            | .error stop => .error stop
            | .ok s => scanCommon rest s
          else .error .refused

/-! ## Commands -/

namespace Scanned

/-- Nothing met yet. -/
def start : Scanned := ⟨[], [], []⟩

/-- The value of an option. -/
def value? (s : Scanned) (name : String) : Option String :=
  (s.options.find? fun (n, _) => n == name).map fun (_, value) => value

/-- Whether a flag is given. -/
def flag (s : Scanned) (name : String) : Bool := (s.value? name).isSome

/-- The number that an option gives, or zero. -/
def number (s : Scanned) (name : String) : Float := ((s.value? name).bind Decimal.float?).getD 0

end Scanned

/-- The value of a success. -/
def succeeded? {ε α : Type} : Except ε α → Option α
  | .ok a => some a
  | .error _ => none

/-- The operands of the command that renders documents. -/
def inputOperands : OperandRule := ⟨none, isPath⟩

/-- At most so many operands, of any form. -/
def atMost (n : Nat) : OperandRule := ⟨some n, fun _ => true⟩

/-- The names of the commands. -/
def commandNames : List String := ["build", "axis", "kinds", "version", "help"]

/-- Whether help can be given on the names behind the command for help: there is one, of a command, or none. -/
def describes : List String → Bool
  | [] => true
  | [name] => commandNames.contains name
  | _ => false

/-- The task of a command with the given name and arguments, and the options that all commands know. -/
def taskOf (name : String) (arguments : List String) : Except Stop (Scanned × Task) :=
  match name with
  | "build" => do
    let s ← scan buildRules inputOperands arguments .start
    if s.operands.isEmpty then .error .refused
    else .ok (s, .build s.operands (s.value? "output") (s.flag "pretty"))
  | "axis" => do
    let s ← scan overlayRules (atMost 0) arguments .start
    let bounds : Overlay.Bounds Float :=
      ⟨⟨s.number "min-x", s.number "max-x"⟩, ⟨s.number "min-y", s.number "max-y"⟩,
       ⟨s.number "min-z", s.number "max-z"⟩⟩
    let unit := (s.value? "unit").bind fun value => succeeded? (Overlay.UnitSystem.ofName value)
    let theme := (s.value? "theme").bind fun value => succeeded? (Overlay.Theme.ofName value)
    .ok (s, .overlay bounds unit theme (s.value? "output") (s.flag "json"))
  | "kinds" => do
    let s ← scan kindsRules (atMost 1) arguments .start
    .ok (s, .kinds s.operands.head? (s.flag "json"))
  | "version" => do .ok (← scan commonRules (atMost 0) arguments .start, .version)
  | "help" => .error (if describes arguments then .help else .refused)
  | _ => .error .refused

/-- What a command line asks for. A common option behind the name of the command counts before one in front of it. -/
def Invocation.ofArguments (arguments : List String) : Except Stop Invocation := do
  let before ← scanCommon arguments .start
  match before.rest with
  | [] => .error .refused
  | name :: rest =>
    let (s, task) ← taskOf name rest
    .ok ⟨(s.value? "config").or (before.value? "config"), task⟩

end SolidScript.Command
