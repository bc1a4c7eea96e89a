import Mathlib.Data.List.Forall2
import SolidScript.Command.Inputs

/-!
# A directory with one more file

What changes for the paths of a run when a new file is put into its directory (`write?_eq_withFile`): the file is found
(`find?_withFile`), and every other path leads where it led (`find?_beside`). So files can be written where they could
be written before (`target?_withFile`), and unless an input is the new file itself the inputs mean the same documents,
if the name of the file is not that of a document (`collectInputs_withFile`).
-/

namespace SolidScript.Command

namespace Entry

/-- A directory with one more file. -/
def withFile (name text : String) : Entry → Entry
  | .directory entries => .directory (entries ++ [(name, .file (some text))])
  | .file content => .file content

/-- Two entries are the same, or a directory and that directory with one more file. -/
def Grown (root : Entry) (name text : String) (e e' : Entry) : Prop :=
  e' = e ∨ (e = root ∧ e' = root.withFile name text)

/-- What a path leads to, without and with one more file: the same, or to the new file. -/
inductive Beside (root : Entry) (name text : String) : Option Entry → Option Entry → Prop where
  | absent : Beside root name text none none
  | kept {e e' : Entry} (h : Grown root name text e e') : Beside root name text (some e) (some e')
  | added : Beside root name text none (some (.file (some text)))

section

variable {root e e' : Entry} {name text : String}

@[simp]
theorem isDirectory_withFile (root : Entry) (name text : String) :
    (root.withFile name text).isDirectory = root.isDirectory := by
  cases root <;> rfl

theorem Grown.isDirectory_eq (h : Grown root name text e e') : e'.isDirectory = e.isDirectory := by
  rcases h with rfl | ⟨rfl, rfl⟩
  · rfl
  · exact isDirectory_withFile ..

theorem child?_withFile (root : Entry) (hroot : root.isDirectory = true) (name text part : String) :
    (root.withFile name text).child? part =
      (root.child? part).or (if name = part then some (.file (some text)) else none) := by
  cases root with
  | file t => cases hroot
  | directory entries =>
    simp only [withFile, child?, List.find?_append]
    cases hfound : entries.find? fun entry => entry.1 == part with
    | some found => simp
    | none =>
      by_cases hname : name = part
      · simp [hname]
      · simp [hname]

/-- A child of a directory stays, and the only new one is the file. -/
theorem Grown.child? (h : Grown root name text e e') (part : String) :
    e'.child? part = e.child? part ∨ (e.child? part = none ∧ e'.child? part = some (.file (some text))) := by
  rcases h with rfl | ⟨rfl, rfl⟩
  · exact .inl rfl
  · cases hroot : e.isDirectory with
    | false =>
      cases e with
      | file t => exact .inl rfl
      | directory entries => cases hroot
    | true =>
      rw [child?_withFile e hroot]
      cases e.child? part with
      | some found => exact .inl rfl
      | none =>
        by_cases hname : name = part
        · exact .inr ⟨rfl, by simp [hname]⟩
        · exact .inl (by simp [hname])

theorem follow?_file (above : List Entry) (t : Option String) (parts : List String) :
    follow? above (.file t) parts = if parts.isEmpty then some (.file t) else none := by
  cases parts <;> simp [follow?, isDirectory]

/-- Following a path step by step: every step keeps to the same place, or reaches the new file and ends there. -/
theorem follow?_beside (parts : List String) {above above' : List Entry} {here here' : Entry}
    (habove : List.Forall₂ (Grown root name text) above above') (hhere : Grown root name text here here') :
    Beside root name text (follow? above here parts) (follow? above' here' parts) := by
  induction parts generalizing above above' here here' with
  | nil => exact .kept hhere
  | cons part rest ih =>
    simp only [follow?, hhere.isDirectory_eq]
    cases here.isDirectory with
    | false => exact .absent
    | true =>
      simp only [Bool.not_true, Bool.false_eq_true, if_false]
      by_cases hstay : part = "" ∨ part = "."
      · rw [if_pos hstay, if_pos hstay]
        exact ih habove hhere
      · rw [if_neg hstay, if_neg hstay]
        by_cases hup : part = ".."
        · rw [if_pos hup, if_pos hup]
          cases habove with
          | nil => exact .absent
          | cons hparent habove => exact ih habove hparent
        · rw [if_neg hup, if_neg hup]
          rcases hhere.child? part with hsame | ⟨hnone, hnew⟩
          · rw [hsame]
            cases here.child? part with
            | none => exact .absent
            | some found => exact ih (.cons hhere habove) (.inl rfl)
          · simp only [hnone, hnew, follow?_file]
            cases rest with
            | nil => exact .added
            | cons next others => exact .absent

theorem find?_beside (root : Entry) (name text path : String) :
    Beside root name text (root.find? path) ((root.withFile name text).find? path) := by
  rw [find?, find?]
  split
  · exact follow?_beside _ .nil (.inr ⟨rfl, rfl⟩)
  · exact .absent

theorem Beside.any_isDirectory {o o' : Option Entry} (h : Beside root name text o o') :
    o'.any isDirectory = o.any isDirectory := by
  cases h with
  | absent => rfl
  | kept h => exact h.isDirectory_eq
  | added => rfl

/-- Files can be written where they could be written before. -/
theorem target?_withFile (root : Entry) (name text path : String) :
    (root.withFile name text).target? path = root.target? path := by
  have hfollow : ∀ parts, (follow? [] (root.withFile name text) parts).any isDirectory =
      (follow? [] root parts).any isDirectory :=
    fun parts => (follow?_beside parts .nil (.inr ⟨rfl, rfl⟩)).any_isDirectory
  have hnames : ∀ parts passed, names? (root.withFile name text) passed parts = names? root passed parts := by
    intro parts
    induction parts with
    | nil => exact fun _ => rfl
    | cons part rest ih =>
      intro passed
      simp only [names?, hfollow, ih]
  rw [target?, target?]
  simp only [hnames, hfollow]

theorem splitSlashes_ne_nil (path : List Char) : splitSlashes path ≠ [] := by
  cases path with
  | nil => exact List.cons_ne_nil _ _
  | cons c rest =>
    rw [splitSlashes]
    split
    · exact List.cons_ne_nil _ _
    · split <;> exact List.cons_ne_nil _ _

/-- Paths are found in directories only. -/
theorem isDirectory_of_find? {path : String} (h : root.find? path = some e) : root.isDirectory = true := by
  cases root with
  | directory entries => rfl
  | file t =>
    have hparts : (parts path).isEmpty = false := by
      rw [parts, List.isEmpty_map, List.isEmpty_eq_false_iff]
      exact splitSlashes_ne_nil _
    rw [find?, follow?_file, hparts] at h
    split at h <;> cases h

/-- A path of one part, which is a name. -/
structure IsName (name : String) : Prop where
  inside : isInside name = true
  parts : parts name = [name]
  ordinary : name ≠ "" ∧ name ≠ "." ∧ name ≠ ".."
  short : name.utf8ByteSize ≤ nameLimit

theorem IsName.follow? (h : IsName name) (root : Entry) :
    follow? [] root [name] = if root.isDirectory then root.child? name else none := by
  obtain ⟨hempty, hdot, hdots⟩ := h.ordinary
  simp only [Entry.follow?, hempty, hdot, hdots, or_self, if_false]
  cases root.isDirectory with
  | false => rfl
  | true =>
    simp only [Bool.not_true, Bool.false_eq_true, if_false, if_true]
    cases root.child? name <;> rfl

theorem IsName.find? (h : IsName name) (root : Entry) :
    root.find? name = if root.isDirectory then root.child? name else none := by
  rw [Entry.find?, if_pos h.inside, h.parts, h.follow?]

/-- The new file is found. -/
theorem find?_withFile (h : IsName name) (hroot : root.isDirectory = true) (hnew : root.find? name = none)
    (text : String) : (root.withFile name text).find? name = some (.file (some text)) := by
  rw [h.find?, if_pos hroot] at hnew
  rw [h.find?, isDirectory_withFile, if_pos hroot, child?_withFile root hroot, hnew, if_pos rfl, Option.none_or]

theorem putEntry_of_absent {entries : List (String × Entry)} (h : (directory entries).child? name = none)
    (entry : Entry) : putEntry name entry entries = entries ++ [(name, entry)] := by
  rw [child?, Option.map_eq_none_iff] at h
  induction entries with
  | nil => rfl
  | cons first rest ih =>
    obtain ⟨n, e⟩ := first
    by_cases hname : n = name
    · simp [hname] at h
    · rw [putEntry, if_neg hname, List.cons_append, ih (by simpa [hname] using h)]

/-- Writing a file that is not there puts one more file into the directory. -/
theorem write?_eq_withFile (h : IsName name) (hroot : root.isDirectory = true) (hnew : root.find? name = none)
    (text : String) : root.write? name text = some (root.withFile name text) := by
  obtain ⟨hempty, hdot, hdots⟩ := h.ordinary
  rw [h.find?, if_pos hroot] at hnew
  have hnames : names? root [] (parts name) = some [name] := by
    rw [h.parts]
    simp [names?, hempty, hdot, hdots]
  have hfree : (Entry.follow? [] root [name]).any isDirectory = false := by
    rw [h.follow?, if_pos hroot, hnew, Option.any_none]
  have htarget : root.target? name = some [name] := by
    rw [target?, hnames]
    simp [h.inside, h.parts, hempty, hdot, hdots, Nat.not_lt.2 h.short, hfree]
  rw [write?, htarget, Option.map_some]
  cases root with
  | file t => cases hroot
  | directory entries =>
    simp only [putAt, putEntry_of_absent hnew, withFile]

theorem filesOf_append (entries others : List (String × Entry)) :
    filesOf (entries ++ others) = filesOf entries ++ filesOf others := by
  induction entries with
  | nil => rfl
  | cons entry rest ih => 
    obtain ⟨n, e⟩ := entry
    rw [List.cons_append, filesOf, filesOf, ih, List.append_assoc]

end

end Entry

section Collecting

variable {root e e' : Entry} {name text : String}

/-- A file with another name than that of a document is no input of a directory. -/
theorem filesOfInput_of_grown (hname : isDocumentName name = false) (h : Entry.Grown root name text e e')
    (path : String) : filesOfInput path e' = filesOfInput path e := by
  rcases h with rfl | ⟨rfl, rfl⟩
  · rfl
  · cases e with
    | file t => rfl
    | directory entries =>
      have hadded : Entry.filesOf [(name, .file (some text))] = [([name], some text)] := rfl
      show documentsBelow path _ = documentsBelow path _
      simp only [documentsBelow, Entry.filesBelow, Entry.withFile, Entry.filesOf_append, hadded, List.filter_append]
      simp [hname]

theorem collectInputs_withFile (hname : isDocumentName name = false) {inputs : List String}
    (h : ∀ input ∈ inputs, root.find? input = none → (root.withFile name text).find? input = none) :
    collectInputs (root.withFile name text).find? inputs = collectInputs root.find? inputs := by
  induction inputs with
  | nil => rfl
  | cons input rest ih =>
    obtain ⟨hinput, hrest⟩ := List.forall_mem_cons.1 h
    have hbeside := Entry.find?_beside root name text input
    rw [collectInputs, collectInputs, ih hrest]
    generalize root.find? input = o at *
    generalize (root.withFile name text).find? input = o' at *
    cases hbeside with
    | absent => rfl
    | kept h => simp only [filesOfInput_of_grown hname h]
    | added => cases hinput rfl

end Collecting

end SolidScript.Command
