import SolidScript.Command.FileTree

/-!
# Input files

The files that the inputs of a run mean. An input that is a file means itself; a directory means the files below it
whose name ends in `.json` behind something else, in the order of their paths, compared part by part. An input that is
not there is an error.
-/

namespace SolidScript.Command

/-- An input file: its path, and its text if it can be read. -/
structure Input where
  path : String
  text : Option String

/-- The ending of the names of documents. -/
def documentEnding : List Char := ['.', 'j', 's', 'o', 'n']

/-- Whether the name of a file is that of a document: something, and the ending. -/
def isDocumentName (name : String) : Bool :=
  let chars := name.toList
  decide (documentEnding.length < chars.length) && documentEnding.isSuffixOf chars

/-- Whether names that lead to a file come no later than others, part by part. -/
def notAfter : List String → List String → Bool
  | [], _ => true
  | _ :: _, [] => false
  | a :: as, b :: bs => if a < b then true else if b < a then false else notAfter as bs

/-- The path of a file below a directory with a given path. -/
def pathBelow (directory : String) (names : List String) : String :=
  (if directory.toList.getLast? = some '/' then directory else directory ++ "/") ++ "/".intercalate names

/-- The documents below a directory. -/
def documentsBelow (path : String) (directory : Entry) : List Input :=
  let found := directory.filesBelow.filter fun (names, _) => isDocumentName (names.getLastD "")
  (found.mergeSort fun a b => notAfter a.1 b.1).map fun (names, text) => ⟨pathBelow path names, text⟩

/-- The files that an input means. -/
def filesOfInput (path : String) : Entry → List Input
  | .file text => [⟨path, text⟩]
  | directory => documentsBelow path directory

/-- The files that inputs mean, in order; or the first input that is not there. -/
def collectInputs (entry : String → Option Entry) : List String → Except String (List Input)
  | [] => .ok []
  | path :: rest =>
    match entry path with
    | none => .error path
    | some found =>
      match collectInputs entry rest with
      | .error missing => .error missing
      | .ok inputs => .ok (filesOfInput path found ++ inputs)

end SolidScript.Command
