import Mathlib.Data.List.Lex
import SolidScript.Proofs.Command.FileTree
import SolidScript.Proofs.Text.Bytes

/-!
# Paths and their order

Paths are ordered by their components from the front, and names among these by their bytes (`components`). A name that
is joined to a path is one component more (`components_join`), so the files below a directory are ordered as the names
that lead to them are (`components_lt`).
-/

namespace SolidScript.Command

/-! ## Components -/

/-- A step of a path. -/
inductive Component where
  /-- To the root of all files. -/
  | root
  /-- To the directory that the path begins in. -/
  | current
  /-- To the directory above. -/
  | parent
  | name (text : String)
deriving DecidableEq

namespace Component

/-- The step that a part between slashes means. Nothing and a single dot mean none. -/
def ofPart? (part : String) : Option Component :=
  if part = "" ∨ part = "." then none else if part = ".." then some .parent else some (.name part)

/-- The kinds of steps in their order. -/
def rank : Component → Nat
  | .root => 0
  | .current => 1
  | .parent => 2
  | .name _ => 3

/-- Names are ordered by their bytes, and other steps by their kinds. -/
protected def Lt : Component → Component → Prop
  | .name a, .name b => Text.bytes a < Text.bytes b
  | a, b => a.rank < b.rank

instance : LT Component := ⟨Component.Lt⟩

theorem name_lt_name {a b : String} (h : a < b) : name a < name b := Text.bytes_lt_bytes.2 h

end Component

/-- The components of a path. A dot at its front is kept. -/
def components (path : String) : List Component :=
  (if Entry.isAbsolute path then [.root] else if (Entry.parts path).head? = some "." then [.current] else []) ++
    (Entry.parts path).filterMap Component.ofPart?

/-- A path with a name joined to it. -/
def join (path name : String) : String :=
  if path = "" ∨ path.toList.getLast? = some '/' then path ++ name else path ++ "/" ++ name

/-- What a file or a directory can be called. -/
structure IsEntryName (name : String) : Prop where
  ordinary : name ≠ "" ∧ name ≠ "." ∧ name ≠ ".."
  slashless : '/' ∉ name.toList

instance (name : String) : Decidable (IsEntryName name) :=
  decidable_of_iff ((name ≠ "" ∧ name ≠ "." ∧ name ≠ "..") ∧ '/' ∉ name.toList)
    ⟨fun ⟨ordinary, slashless⟩ => ⟨ordinary, slashless⟩, fun h => ⟨h.ordinary, h.slashless⟩⟩

namespace Entry

theorem splitSlashes_append (first second : List Char) :
    splitSlashes (first ++ '/' :: second) = splitSlashes first ++ splitSlashes second := by
  induction first with
  | nil => rfl
  | cons c rest ih =>
    rw [List.cons_append, splitSlashes, splitSlashes, ih]
    by_cases hc : c = '/'
    · rw [if_pos hc, if_pos hc, List.cons_append]
    · rw [if_neg hc, if_neg hc]
      cases hrest : splitSlashes rest with
      | nil => exact absurd hrest (splitSlashes_ne_nil rest)
      | cons part parts => rfl

theorem splitSlashes_of_slashless {chars : List Char} (h : '/' ∉ chars) : splitSlashes chars = [chars] := by
  induction chars with
  | nil => rfl
  | cons c rest ih =>
    obtain ⟨hc, hrest⟩ := not_or.1 (mt List.mem_cons.2 h)
    rw [splitSlashes, if_neg (Ne.symm hc), ih hrest]

theorem parts_append (first second : String) : parts (first ++ "/" ++ second) = parts first ++ parts second := by
  have hchars : (first ++ "/" ++ second).toList = first.toList ++ '/' :: second.toList := by
    simp
  rw [parts, hchars, splitSlashes_append, List.map_append, parts, parts]

theorem parts_ne_nil (path : String) : parts path ≠ [] := by
  rw [parts, ne_eq, List.map_eq_nil_iff]
  exact splitSlashes_ne_nil _

end Entry

namespace IsEntryName

variable {name : String} (h : IsEntryName name)
include h

theorem parts : Entry.parts name = [name] := by
  rw [Entry.parts, Entry.splitSlashes_of_slashless h.slashless, List.map_singleton, String.ofList_toList]

theorem ofPart? : Component.ofPart? name = some (.name name) := by
  obtain ⟨hempty, hdot, hdots⟩ := h.ordinary
  rw [Component.ofPart?, if_neg (not_or.2 ⟨hempty, hdot⟩), if_neg hdots]

end IsEntryName

section Join

variable {path name : String} (hpath : path ≠ "")
include hpath

theorem isAbsolute_append (rest : String) : Entry.isAbsolute (path ++ rest) = Entry.isAbsolute path := by
  have hchars : path.toList ≠ [] := mt String.toList_eq_nil_iff.1 hpath
  rw [Entry.isAbsolute, Entry.isAbsolute, String.toList_append, List.head?_append_of_ne_nil _ hchars]

theorem isAbsolute_join (name : String) : Entry.isAbsolute (join path name) = Entry.isAbsolute path := by
  unfold join
  split
  · exact isAbsolute_append hpath name
  · rw [String.append_assoc]
    exact isAbsolute_append hpath _

/-- The parts of a path in front of a name that is joined to it. There is an empty one behind them if the path ends in a
slash. -/
theorem exists_parts_join (h : IsEntryName name) : ∃ front, front ≠ [] ∧
    (Entry.parts path = front ∨ Entry.parts path = front ++ [""]) ∧ Entry.parts (join path name) = front ++ [name] := by
  unfold join
  split
  · next hslash =>
    obtain ⟨chars, hchars⟩ := List.getLast?_eq_some_iff.1 (hslash.resolve_left hpath)
    have hfront : path = String.ofList chars ++ "/" := String.toList_inj.1 (by simp [hchars])
    have hempty : Entry.parts "" = [""] := rfl
    refine ⟨Entry.parts (String.ofList chars), Entry.parts_ne_nil _, .inr ?_, ?_⟩
    · rw [← hempty, ← Entry.parts_append, ← hfront, String.append_empty]
    · rw [hfront, Entry.parts_append, h.parts]
  · exact ⟨Entry.parts path, Entry.parts_ne_nil path, .inl rfl, by rw [Entry.parts_append, h.parts]⟩

/-- A joined name is one component more. -/
theorem components_join (h : IsEntryName name) : components (join path name) = components path ++ [.name name] := by
  obtain ⟨front, hfront, hparts, hjoined⟩ := exists_parts_join hpath h
  have hhead : (Entry.parts path).head? = front.head? := by
    rcases hparts with hparts | hparts
    · rw [hparts]
    · rw [hparts, List.head?_append_of_ne_nil _ hfront]
  have hsteps : (Entry.parts path).filterMap Component.ofPart? = front.filterMap Component.ofPart? := by
    rcases hparts with hparts | hparts
    · rw [hparts]
    · rw [hparts, List.filterMap_append]
      exact List.append_nil _
  have hname : [name].filterMap Component.ofPart? = [.name name] := by
    rw [List.filterMap_cons_some h.ofPart?, List.filterMap_nil]
  rw [components, components, isAbsolute_join hpath, hjoined, hhead, hsteps, List.filterMap_append,
    List.head?_append_of_ne_nil _ hfront, hname, List.append_assoc]

theorem join_ne_empty (name : String) : join path name ≠ "" := by
  intro hempty
  have hchars := congrArg String.toList hempty
  unfold join at hchars
  split at hchars <;> simp_all

end Join

/-! ## Files below a directory -/

section Below

variable {path : String} {names : List String}

/-- Names one after another are as many components more. -/
theorem components_foldl (hpath : path ≠ "") (hnames : ∀ name ∈ names, IsEntryName name) :
    components (names.foldl join path) = components path ++ names.map .name := by
  induction names generalizing path with
  | nil => exact (List.append_nil _).symm
  | cons name rest ih =>
    obtain ⟨hname, hrest⟩ := List.forall_mem_cons.1 hnames
    rw [List.foldl_cons, ih (join_ne_empty hpath name) hrest, components_join hpath hname, List.append_assoc,
      List.map_cons, List.singleton_append]

theorem pathBelow_singleton (hpath : path ≠ "") (name : String) : pathBelow path [name] = join path name := by
  have hsingle : "/".intercalate [name] = name := rfl
  unfold pathBelow join
  rw [hsingle]
  split
  · next h => rw [if_pos (.inr h)]
  · next h => rw [if_neg (not_or.2 ⟨hpath, h⟩)]

theorem pathBelow_cons (hpath : path ≠ "") {name : String} (hname : IsEntryName name) (hnames : names ≠ []) :
    pathBelow path (name :: names) = pathBelow (join path name) names := by
  have hchars : name.toList ≠ [] := mt String.toList_eq_nil_iff.1 hname.ordinary.1
  have hlast (front : String) : (front ++ name).toList.getLast? ≠ some '/' := by
    rw [String.toList_append, List.getLast?_append_of_ne_nil _ hchars]
    exact fun hslash => hname.slashless (List.mem_of_getLast? hslash)
  have hjoined : join path name = (if path.toList.getLast? = some '/' then path else path ++ "/") ++ name := by
    rw [← pathBelow_singleton hpath, pathBelow]
    rfl
  rw [pathBelow, pathBelow, hjoined, if_neg (hlast _), String.intercalate_cons_of_ne_nil hnames]
  simp only [String.append_assoc]

/-- The path of a file has the names that lead to it joined to the path of the directory. -/
theorem pathBelow_eq_foldl (hpath : path ≠ "") (hnames : ∀ name ∈ names, IsEntryName name) (hne : names ≠ []) :
    pathBelow path names = names.foldl join path := by
  induction names generalizing path with
  | nil => exact absurd rfl hne
  | cons name rest ih =>
    obtain ⟨hname, hrest⟩ := List.forall_mem_cons.1 hnames
    cases rest with
    | nil => exact pathBelow_singleton hpath name
    | cons next others =>
      rw [pathBelow_cons hpath hname (List.cons_ne_nil _ _), List.foldl_cons]
      exact ih (join_ne_empty hpath name) hrest (List.cons_ne_nil _ _)

end Below

/-! ## Order -/

/-- Names that lead to files are compared one by one. -/
theorem notAfter_iff {as bs : List String} : notAfter as bs = true ↔ ¬ bs < as := by
  induction as generalizing bs with
  | nil => simp [notAfter]
  | cons a as ih =>
    cases bs with
    | nil => simp [notAfter]
    | cons b bs =>
      rw [notAfter, List.cons_lt_cons_iff]
      rcases lt_trichotomy a b with hlt | rfl | hgt
      · simp [hlt, hlt.not_gt, hlt.ne']
      · simp [ih]
      · simp [hgt, hgt.not_gt]

theorem notAfter_trans (as bs cs : List String) (h : notAfter as bs = true) (h' : notAfter bs cs = true) :
    notAfter as cs = true := by
  rw [notAfter_iff] at h h' ⊢
  exact not_lt.2 (le_trans (not_lt.1 h) (not_lt.1 h'))

theorem notAfter_total (as bs : List String) : (notAfter as bs || notAfter bs as) = true := by
  rw [Bool.or_eq_true, notAfter_iff, notAfter_iff]
  exact (le_total as bs).imp not_lt.2 not_lt.2

theorem lt_of_notAfter {as bs : List String} (h : notAfter as bs = true) (hne : as ≠ bs) : as < bs :=
  lt_of_le_of_ne (not_lt.1 (notAfter_iff.1 h)) hne

/-- Below a directory, paths are ordered as the names are that lead to them. -/
theorem components_lt {path : String} (hpath : path ≠ "") {as bs : List String} (has : ∀ name ∈ as, IsEntryName name)
    (hbs : ∀ name ∈ bs, IsEntryName name) (h : as < bs) :
    components (as.foldl join path) < components (bs.foldl join path) := by
  rw [components_foldl hpath has, components_foldl hpath hbs]
  exact List.append_left_lt (List.map_lt (fun _ _ => Component.name_lt_name) h)

/-- A path below a directory tells the names that lead there. -/
theorem eq_of_foldl_join {path : String} (hpath : path ≠ "") {as bs : List String}
    (has : ∀ name ∈ as, IsEntryName name) (hbs : ∀ name ∈ bs, IsEntryName name)
    (h : as.foldl join path = bs.foldl join path) : as = bs := by
  have hcomponents := congrArg components h
  rw [components_foldl hpath has, components_foldl hpath hbs] at hcomponents
  exact List.map_injective_iff.2 (fun _ _ => Component.name.inj) (List.append_cancel_left hcomponents)

end SolidScript.Command
