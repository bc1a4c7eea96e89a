/-!
# File trees

What stands in the directory of a run: files with their text, and directories. Paths are read from that directory on;
a dot or nothing between two slashes stays where it is, and two dots go back up. A path has fewer than `pathLimit`
bytes, and a name in it at most `nameLimit`. `find?` is what stands at a path, `write?` the tree with a file written,
and `filesBelow` all files below a directory with the names that lead to them.
-/

namespace SolidScript.Command

/-- A file or a directory. -/
inductive Entry where
  /-- A file, with its text if it can be read. -/
  | file (text : Option String)
  | directory (entries : List (String × Entry))

namespace Entry

/-- The entry of a directory with a name. -/
def child? (name : String) : Entry → Option Entry
  | .file _ => none
  | .directory entries => (entries.find? fun (n, _) => n == name).map fun (_, entry) => entry

/-- Whether an entry is a directory. -/
def isDirectory : Entry → Bool
  | .file _ => false
  | .directory _ => true

/-- The parts between the slashes of a text; there is one more part than there are slashes. -/
def splitSlashes : List Char → List (List Char)
  | [] => [[]]
  | c :: rest =>
    if c = '/' then [] :: splitSlashes rest
    else
      match splitSlashes rest with
      | part :: parts => (c :: part) :: parts
      | [] => [[c]]

/-- The parts of a path. -/
def parts (path : String) : List String := (splitSlashes path.toList).map String.ofList

/-- Whether a path begins at the root of all files, which is outside of every tree. -/
def isAbsolute (path : String) : Bool := path.toList.head? == some '/'

/-- The length in bytes from which on a path leads nowhere. -/
def pathLimit : Nat := 4096

/-- The greatest length in bytes of the name of a file or directory. -/
def nameLimit : Nat := 255

/-- Whether a path can lead to a file of the tree. -/
def isInside (path : String) : Bool :=
  !isAbsolute path && !path.isEmpty && decide (path.utf8ByteSize < pathLimit)

/-- The entry that parts of a path lead to. `above` holds the directories that were passed, the last first. -/
def follow? (above : List Entry) (here : Entry) : List String → Option Entry
  | [] => some here
  | part :: rest =>
    if !here.isDirectory then none
    else if part = "" ∨ part = "." then follow? above here rest
    else if part = ".." then
      match above with
      | [] => none
      | parent :: above => follow? above parent rest
    else
      match here.child? part with
      | some entry => follow? (here :: above) entry rest
      | none => none

/-- What stands at a path that begins in a directory. -/
def find? (root : Entry) (path : String) : Option Entry :=
  if isInside path then follow? [] root (parts path) else none

/-- The names that lead from a directory to where parts of a path lead, all but the last of which must exist. `passed`
holds the names so far, the last first. -/
def names? (root : Entry) (passed : List String) : List String → Option (List String)
  | [] => some passed.reverse
  | part :: rest =>
    if part = "" ∨ part = "." then names? root passed rest
    else if part = ".." then
      match passed with
      | [] => none
      | _ :: passed => names? root passed rest
    else if rest.isEmpty || ((follow? [] root (part :: passed).reverse).any isDirectory) then
      names? root (part :: passed) rest
    else none

/-- The entries with a name given to an entry. -/
def putEntry (name : String) (entry : Entry) : List (String × Entry) → List (String × Entry)
  | [] => [(name, entry)]
  | (n, e) :: rest => if n = name then (name, entry) :: rest else (n, e) :: putEntry name entry rest

/-- The tree with an entry put where names lead. Directories that are missing on the way are made. -/
def putAt (entry : Entry) : List String → Entry → Entry
  | [], _ => entry
  | name :: rest, here =>
    let entries := match here with
      | .directory entries => entries
      | .file _ => []
    let inner := (here.child? name).getD (.directory [])
    .directory (putEntry name (putAt entry rest inner) entries)

/-- Where a file can be written: the names that lead to it. Its directory must exist, and no directory stand there. -/
def target? (root : Entry) (path : String) : Option (List String) :=
  let last := (parts path).getLastD ""
  if !isInside path || last = "" || last = "." || last = ".." || nameLimit < last.utf8ByteSize then none
  else
    match names? root [] (parts path) with
    | some names => if (follow? [] root names).any isDirectory then none else some names
    | none => none

/-- The tree with a text written to a file. -/
def write? (root : Entry) (path text : String) : Option Entry :=
  (target? root path).map fun names => putAt (.file (some text)) names root

/-- The tree with files and directories at given paths. -/
def ofPaths (paths : List (String × String)) : Entry :=
  paths.foldl
    (fun root (path, text) =>
      let entry := if (parts path).getLastD "" = "" then Entry.directory [] else .file (some text)
      putAt entry ((parts path).filter fun part => !part.isEmpty) root)
    (.directory [])

mutual

/-- All files below an entry, with the names that lead to them; a file is below itself. -/
def filesBelow : Entry → List (List String × Option String)
  | .file text => [([], text)]
  | .directory entries => filesOf entries

/-- All files in and below the entries of a directory. -/
def filesOf : List (String × Entry) → List (List String × Option String)
  | [] => []
  | (name, entry) :: rest =>
    (filesBelow entry).map (fun (names, text) => (name :: names, text)) ++ filesOf rest

end

end Entry
end SolidScript.Command
