/-!
# TOML values

The values of a TOML document. A table remembers how it came about, since that decides which later lines may add to it:
a header may define a table that was only implied by the header of one below it, and dotted keys may add only to tables
that dotted keys made. `Table.put` and its kin are the lines of a document acting on the tables so far; they fail where
a key or a table would be given twice.
-/

namespace SolidScript

/-- How a table came about. -/
inductive Toml.Origin where
  /-- By a header of its own, or as the document itself. -/
  | header
  /-- By the header of a table below it. -/
  | implied
  /-- By a dotted key. -/
  | dotted
  /-- As a value between braces. -/
  | inline
deriving DecidableEq, Repr

/-- A value of a document. -/
inductive Toml where
  | string (s : String)
  | integer (n : Int)
  | float (x : Float)
  | boolean (b : Bool)
  /-- A date, a time or both, which nothing here looks into. -/
  | moment
  | array (items : List Toml)
  | table (origin : Toml.Origin) (entries : List (String × Toml))
  /-- The tables of repeated headers. -/
  | tables (elements : List (List (String × Toml)))

namespace Toml

/-- The entries of a table, in the order in which they were made. -/
abbrev Entries := List (String × Toml)

/-- The value of a key. -/
def lookup? (key : String) : Entries → Option Toml
  | [] => none
  | (k, value) :: rest => if k = key then some value else lookup? key rest

/-- The entries with a key given a value, in place of the one it has. -/
def put (key : String) (value : Toml) : Entries → Entries
  | [] => [(key, value)]
  | (k, v) :: rest => if k = key then (key, value) :: rest else (k, v) :: put key value rest

/-- A list without its last element, and that element. -/
def splitLast? {α : Type} (l : List α) : Option (List α × α) :=
  match l.getLast? with
  | some last => some (l.dropLast, last)
  | none => none

/-- A change to the entries of a table that is reached from here along a path. Tables that are missing on the way are
made; of repeated tables the last is meant. A dotted key does not enter a table that has a header, and nothing enters
an inline one. -/
def alterAt (dotted : Bool) (change : Origin → Entries → Option Entries) :
    List String → Origin → Entries → Option Entries
  | [], origin, entries => change origin entries
  | key :: path, _, entries =>
    match lookup? key entries with
    | none => do
      let made := if dotted then Origin.dotted else .implied
      some (put key (.table made (← alterAt dotted change path made [])) entries)
    | some (.table origin inner) =>
      if origin = .inline || (dotted && origin = .header) then none
      else do some (put key (.table origin (← alterAt dotted change path origin inner)) entries)
    | some (.tables elements) => do
      let (before, last) ← splitLast? elements
      some (put key (.tables (before ++ [← alterAt dotted change path .header last])) entries)
    | some _ => none

/-- A new value for a key that has none. A dotted path must end in a table that dotted keys made. -/
def addEntry (path : List String) (key : String) (value : Toml) (origin : Origin) (entries : Entries) :
    Option Entries :=
  alterAt true
    (fun reached inner =>
      if decide (reached = .dotted) == path.isEmpty then none
      else if (lookup? key inner).isSome then none
      else some (inner ++ [(key, value)]))
    path origin entries

/-- A table with a header: a new one, or one that was only implied so far. -/
def addTable (path : List String) (key : String) (entries : Entries) : Option Entries :=
  alterAt false
    (fun _ inner =>
      match lookup? key inner with
      | none => some (put key (.table .header []) inner)
      | some (.table .implied known) => some (put key (.table .header known) inner)
      | some _ => none)
    path .header entries

/-- One more table of those that share a repeated header. -/
def addElement (path : List String) (key : String) (entries : Entries) : Option Entries :=
  alterAt false
    (fun _ inner =>
      match lookup? key inner with
      | none => some (put key (.tables [[]]) inner)
      | some (.tables elements) => some (put key (.tables (elements ++ [[]])) inner)
      | some _ => none)
    path .header entries

/-- The entries of a table between braces. -/
def inlineEntries? (pairs : List (List String × String × Toml)) : Option Entries :=
  pairs.foldlM (fun entries (path, key, value) => addEntry path key value .inline entries) []

/-! ## Lines -/

/-- A line of a document. A key is the last part of a dotted key, and the path holds those before it. -/
inductive Line where
  | entry (path : List String) (key : String) (value : Toml)
  | header (path : List String) (key : String)
  | element (path : List String) (key : String)

/-- The document so far, and the path of the table that entries go to. -/
structure Draft where
  entries : Entries
  current : List String

/-- The document after one more line. -/
def Draft.add (draft : Draft) : Line → Option Draft
  | .entry path key value => do
    let entries ← alterAt false (fun _ => addEntry path key value .header) draft.current .header draft.entries
    some ⟨entries, draft.current⟩
  | .header path key => do some ⟨← addTable path key draft.entries, path ++ [key]⟩
  | .element path key => do some ⟨← addElement path key draft.entries, path ++ [key]⟩

/-- The document that lines make up. -/
def ofLines? (lines : List Line) : Option Toml := do
  let draft ← lines.foldlM Draft.add ⟨[], []⟩
  some (.table .header draft.entries)

/-! ## Typed values -/

/-- The items of a list, or the tables of repeated headers. -/
def items? : Toml → Option (List Toml)
  | .array items => some items
  | .tables elements => some (elements.map (Toml.table .header))
  | _ => none

/-- A number as a double. -/
def asDouble? : Toml → Option Float
  | .float x => some x
  | .integer n => some (if n < 0 then -(Float.ofNat n.natAbs) else Float.ofNat n.natAbs)
  | _ => none

/-- An integer as a 32-bit count. -/
def asWord32? : Toml → Option UInt32
  | .integer n => if 0 ≤ n ∧ n < UInt32.size then some (UInt32.ofNat n.toNat) else none
  | _ => none

/-- A variant without content: its name, or a table whose only key is its name, with nothing in it. -/
def asName? : Toml → Option String
  | .string name => some name
  | .table _ [(name, .table _ [])] => some name
  | .table _ [(name, .array [])] => some name
  | _ => none

/-- The fields of a record by name: those of a table, list items in the declared order, or none at all of a moment. -/
def asRecord? (names : List String) : Toml → Option (String → Option Toml)
  | .table _ entries => some fun name => lookup? name entries
  | .moment => some fun _ => none
  | value => do
    let items ← items? value
    some fun name => lookup? name (names.zip items)

end Toml
end SolidScript
