import SolidScript.Command.Run
import SolidScript.Command.Usage

/-!
# The program

Reads the files that a command line names, runs the command on what they hold, and prints and writes what comes of it.
-/

namespace SolidScript.Command

/-- What stands at a path; absent if nothing does. -/
partial def readEntry (path : String) : IO (Option Entry) := do
  let place := (← IO.currentDir) / path
  if path.isEmpty then return none
  else if ← place.isDir then
    let mut entries : List (String × Entry) := []
    for found in ← place.readDir do
      if let some entry ← readEntry (path ++ "/" ++ found.fileName) then
        entries := (found.fileName, entry) :: entries
    return some (.directory entries)
  else if ← place.pathExists then
    let text ← try some <$> IO.FS.readFile place catch _ => pure none
    return some (.file text)
  else return none

/-- Whether a file can be written at a path, as far as that can be seen. -/
def isWritable (path : String) : IO Bool := do
  let place := (← IO.currentDir) / path
  if ← place.isDir then return false
  match place.parent with
  | some directory => directory.isDir
  | none => return false

/-- The paths that a command line reads. -/
def pathsRead (invocation : Invocation) : List String :=
  let inputs := match invocation.task with
    | .build inputs _ _ => inputs
    | _ => []
  invocation.config.getD standardConfigFile :: inputs

/-- The path that a command line writes. -/
def pathWritten? (invocation : Invocation) : Option String :=
  match invocation.task with
  | .build _ output _ => output
  | .overlay _ _ _ output _ => output
  | _ => none

/-- What the run of a command line sees. -/
def observe (invocation : Invocation) : IO Surroundings := do
  let mut entries : List (String × Entry) := []
  for path in pathsRead invocation do
    if let some entry ← readEntry path then entries := (path, entry) :: entries
  let writable ← match pathWritten? invocation with
    | some path => isWritable path
    | none => pure false
  let mut found : List (String × String) := []
  for name in [Config.unitVariable, Config.themeVariable, Config.toolHeightVariable, Config.resolutionVariable] do
    if let some value ← IO.getEnv name then found := (name, value) :: found
  return ⟨(entries.lookup ·), fun _ => writable, (found.lookup ·)⟩

/-- Does what an outcome says, and gives the exit code. -/
def perform (outcome : Outcome) : IO UInt32 := do
  IO.eprint outcome.errorText
  if let some (path, text) := outcome.written then
    try IO.FS.writeFile path text
    catch _ =>
      IO.eprintln ("Error: Failed to write " ++ path)
      return 1
  IO.print outcome.output
  return if outcome.success then 0 else 1

end SolidScript.Command

open SolidScript.Command in
/-- Runs the command that the arguments ask for. -/
def main (arguments : List String) : IO UInt32 := do
  match Invocation.ofArguments arguments with
  | .ok invocation => perform (run (← observe invocation) invocation)
  | .error .help =>
    IO.print usage
    return 0
  | .error .refused =>
    IO.eprint usage
    return 2
