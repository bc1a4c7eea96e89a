import Mathlib.Data.List.Nodup
import SolidScript.Proofs.Command.Path

/-!
# The documents below a directory

What inputs of a run mean, in trees in which every directory has distinct entries with names of their own
(`WellFormed`).

* `mem_filesBelow`, `nodup_filesBelow`: every file below a directory is found once.
* `isDocumentName_iff`: documents are the files with the extension `json`.
* `listing_documentsBelow`: the documents below a directory are listed once each, in the order of their paths.
* `collectInputs_listing`: inputs that are there mean themselves or what they list, one input after another.
-/

namespace SolidScript.Command

namespace Entry

/-! ## Trees -/

/-- Names lead from an entry to one below it. -/
inductive Leads : Entry → List String → Entry → Prop where
  | here (e : Entry) : Leads e [] e
  | into {entries : List (String × Entry)} {name : String} {e e' : Entry} {names : List String} :
    (name, e) ∈ entries → Leads e names e' → Leads (.directory entries) (name :: names) e'

/-- The entries of every directory of a tree have names, all different. -/
def WellFormed (root : Entry) : Prop :=
  ∀ names entries, Leads root names (.directory entries) →
    (entries.map Prod.fst).Nodup ∧ ∀ entry ∈ entries, IsEntryName entry.1

section WellFormed

variable {root e : Entry} {entries : List (String × Entry)} {names : List String} {name : String}

theorem WellFormed.entry (h : (directory entries).WellFormed) (hmem : (name, e) ∈ entries) : e.WellFormed :=
  fun names entries hleads => h (name :: names) entries (.into hmem hleads)

theorem wellFormed_file (text : Option String) : (file text).WellFormed := by
  rintro names entries ⟨⟩

/-- The entries of a well-formed directory have names, all different, and are well-formed themselves. -/
theorem wellFormed_directory : (directory entries).WellFormed ↔
    (entries.map Prod.fst).Nodup ∧ ∀ entry ∈ entries, IsEntryName entry.1 ∧ entry.2.WellFormed := by
  constructor
  · intro h
    obtain ⟨hnodup, hnames⟩ := h [] entries (.here _)
    exact ⟨hnodup, fun entry hentry => ⟨hnames entry hentry, h.entry hentry⟩⟩
  · rintro ⟨hnodup, h⟩ names found (_ | ⟨hmem, hleads⟩)
    · exact ⟨hnodup, fun entry hentry => (h entry hentry).1⟩
    · exact (h _ hmem).2 _ _ hleads

theorem WellFormed.child? (h : root.WellFormed) (hchild : root.child? name = some e) : e.WellFormed := by
  cases root with
  | file text => cases hchild
  | directory entries =>
    obtain ⟨entry, hfound, rfl⟩ := Option.map_eq_some_iff.1 hchild
    exact h.entry (List.mem_of_find?_eq_some hfound)

/-- What a path leads to is well-formed. -/
theorem WellFormed.follow? {parts : List String} {above : List Entry} {here : Entry}
    (habove : ∀ parent ∈ above, parent.WellFormed) (hhere : here.WellFormed)
    (h : Entry.follow? above here parts = some e) : e.WellFormed := by
  induction parts generalizing above here with
  | nil =>
    cases h
    exact hhere
  | cons part rest ih =>
    simp only [Entry.follow?] at h
    split at h
    · cases h
    · split at h
      · exact ih habove hhere h
      · split at h
        · cases above with
          | nil => cases h
          | cons parent above =>
            obtain ⟨hparent, habove⟩ := List.forall_mem_cons.1 habove
            exact ih habove hparent h
        · cases hchild : here.child? part with
          | none => rw [hchild] at h; cases h
          | some child =>
            rw [hchild] at h
            exact ih (List.forall_mem_cons.2 ⟨hhere, habove⟩) (hhere.child? hchild) h

theorem WellFormed.find? {path : String} (h : root.WellFormed) (hfind : root.find? path = some e) : e.WellFormed := by
  rw [Entry.find?] at hfind
  split at hfind
  · exact follow? (fun parent hparent => absurd hparent List.not_mem_nil) h hfind
  · cases hfind

/-- Names that lead somewhere are names of entries. -/
theorem WellFormed.isEntryName (h : root.WellFormed) (hleads : Leads root names e) :
    ∀ name ∈ names, IsEntryName name := by
  induction hleads with
  | here e => exact fun name hname => absurd hname List.not_mem_nil
  | @into entries name _ _ _ hmem _ ih =>
    exact List.forall_mem_cons.2 ⟨(h [] entries (.here _)).2 _ hmem, ih (h.entry hmem)⟩

end WellFormed

/-! ## Files -/

mutual

/-- The files below an entry are those that names lead to. -/
theorem mem_filesBelow : ∀ (e : Entry) (found : List String × Option String),
    found ∈ e.filesBelow ↔ Leads e found.1 (.file found.2)
  | .file text, (names, content) => by
    rw [filesBelow, List.mem_singleton]
    constructor
    · rintro ⟨⟩
      exact .here _
    · rintro ⟨⟩
      rfl
  | .directory entries, (names, content) => by
    rw [filesBelow, mem_filesOf]
    constructor
    · rintro ⟨name, e, rest, hmem, rfl, hleads⟩
      exact .into hmem hleads
    · rintro (_ | ⟨hmem, hleads⟩)
      exact ⟨_, _, _, hmem, rfl, hleads⟩

theorem mem_filesOf : ∀ (entries : List (String × Entry)) (found : List String × Option String),
    found ∈ filesOf entries ↔
      ∃ name e names, (name, e) ∈ entries ∧ found.1 = name :: names ∧ Leads e names (.file found.2)
  | [], found => by simp [filesOf]
  | (name, e) :: rest, (names, content) => by
    rw [filesOf, List.mem_append, mem_filesOf rest, List.mem_map]
    constructor
    · rintro (⟨⟨names, text⟩, hfound, ⟨⟩⟩ | ⟨name', e', names', hmem, hnames, hleads⟩)
      · exact ⟨name, e, names, List.mem_cons_self, rfl, (mem_filesBelow e _).1 hfound⟩
      · exact ⟨name', e', names', List.mem_cons_of_mem _ hmem, hnames, hleads⟩
    · rintro ⟨name', e', names', hmem, rfl, hleads⟩
      rcases List.mem_cons.1 hmem with heq | hmem
      · cases heq
        exact .inl ⟨(names', content), (mem_filesBelow e _).2 hleads, rfl⟩
      · exact .inr ⟨name', e', names', hmem, rfl, hleads⟩

end

mutual

/-- No file is found twice. -/
theorem nodup_filesBelow : ∀ e : Entry, e.WellFormed → (e.filesBelow.map Prod.fst).Nodup
  | .file text, _ => by
    rw [filesBelow]
    exact List.nodup_singleton _
  | .directory entries, h => by
    rw [filesBelow]
    exact nodup_filesOf entries (h [] entries (.here _)).1 fun entry hmem => h.entry hmem

theorem nodup_filesOf : ∀ entries : List (String × Entry), (entries.map Prod.fst).Nodup →
    (∀ entry ∈ entries, entry.2.WellFormed) → ((filesOf entries).map Prod.fst).Nodup
  | [], _, _ => by
    rw [filesOf]
    exact List.nodup_nil
  | (name, e) :: rest, hnodup, hwf => by
    obtain ⟨hname, hrest⟩ := List.nodup_cons.1 hnodup
    obtain ⟨he, hwf⟩ := List.forall_mem_cons.1 hwf
    have hfirst : ((filesBelow e).map fun found => (name :: found.1, found.2)).map Prod.fst =
        ((filesBelow e).map Prod.fst).map (name :: ·) := by
      simp only [List.map_map, Function.comp_def]
    rw [filesOf, List.map_append, List.nodup_append]
    refine ⟨?_, nodup_filesOf rest hrest hwf, ?_⟩
    · rw [hfirst]
      exact List.Nodup.map List.cons_injective (nodup_filesBelow e he)
    · -- names from here begin with another entry than those from the rest
      rw [hfirst]
      rintro _ hfirst second hsecond rfl
      obtain ⟨names, -, hnames⟩ := List.mem_map.1 hfirst
      obtain ⟨found, hfound, rfl⟩ := List.mem_map.1 hsecond
      obtain ⟨name', e', names', hmem, hnames', -⟩ := (mem_filesOf rest found).1 hfound
      obtain ⟨rfl, -⟩ := List.cons.inj (hnames.trans hnames')
      exact hname (List.mem_map.2 ⟨_, hmem, rfl⟩)

end

end Entry

/-! ## Documents -/

/-- What stands behind the last dot of a name is its extension, if anything stands in front of that dot. -/
def HasExtension (extension name : String) : Prop :=
  ∃ stem, stem ≠ "" ∧ '.' ∉ extension.toList ∧ name = stem ++ "." ++ extension

theorem isDocumentName_iff {name : String} : isDocumentName name = true ↔ HasExtension "json" name := by
  have hending (stem : String) : (stem ++ "." ++ "json").toList = stem.toList ++ documentEnding := by
    rw [String.append_assoc, String.toList_append]
    rfl
  simp only [isDocumentName, Bool.and_eq_true, decide_eq_true_eq, List.isSuffixOf_iff_suffix]
  constructor
  · rintro ⟨hlength, stem, hstem⟩
    refine ⟨String.ofList stem, ?_, by decide, String.toList_inj.1 ?_⟩
    · intro hempty
      have hnil := congrArg String.toList hempty
      rw [String.toList_ofList] at hnil
      rw [← hstem, hnil] at hlength
      exact Nat.lt_irrefl _ hlength
    · rw [hending, String.toList_ofList, hstem]
  · rintro ⟨stem, hstem, -, rfl⟩
    have hpos := List.length_pos_iff.2 (mt String.toList_eq_nil_iff.1 hstem)
    rw [hending]
    refine ⟨?_, List.suffix_append _ _⟩
    rw [List.length_append]
    omega

/-! ## Listings -/

/-- The documents below a directory: every file with the extension `json`, once, in the order of paths. Paths lead
through the path of the directory. -/
structure Listing (path : String) (directory : Entry) (files : List Input) : Prop where
  mem_iff : ∀ file, file ∈ files ↔ ∃ above name, directory.Leads (above ++ [name]) (.file file.text) ∧
    HasExtension "json" name ∧ file.path = (above ++ [name]).foldl join path
  nodup : (files.map Input.path).Nodup
  sorted : files.Pairwise fun a b => components a.path < components b.path

/-- The documents below an entry in order, with the names that lead to them. -/
def documents (e : Entry) : List (List String × Option String) :=
  (e.filesBelow.filter fun found => isDocumentName (found.1.getLastD "")).mergeSort fun a b => notAfter a.1 b.1

theorem documentsBelow_eq (path : String) (e : Entry) :
    documentsBelow path e = (documents e).map fun found => ⟨pathBelow path found.1, found.2⟩ := rfl

section Documents

variable {path : String} {entries : List (String × Entry)}

theorem mem_documents {found : List String × Option String} :
    found ∈ documents (.directory entries) ↔ ∃ above name, found.1 = above ++ [name] ∧ HasExtension "json" name ∧
      (Entry.directory entries).Leads (above ++ [name]) (.file found.2) := by
  rw [documents, List.mem_mergeSort, List.mem_filter, Entry.mem_filesBelow]
  constructor
  · rintro ⟨hleads, hname⟩
    rcases List.eq_nil_or_concat found.1 with hnil | ⟨above, name, hnames⟩
    · rw [hnil] at hleads
      cases hleads
    · rw [List.concat_eq_append] at hnames
      rw [hnames, List.getLastD_concat, isDocumentName_iff] at hname
      exact ⟨above, name, hnames, hname, hnames ▸ hleads⟩
  · rintro ⟨above, name, hnames, hname, hleads⟩
    rw [hnames, List.getLastD_concat, isDocumentName_iff]
    exact ⟨hleads, hname⟩

variable (h : (Entry.directory entries).WellFormed)
include h

/-- Sorting leaves each document once, so the order is strict. -/
theorem pairwise_documents : (documents (.directory entries)).Pairwise fun a b => a.1 < b.1 := by
  have hfound := (List.filter_sublist (p := fun found : List String × Option String =>
    isDocumentName (found.1.getLastD ""))).map Prod.fst |>.nodup (Entry.nodup_filesBelow _ h)
  have hnodup : ((documents (.directory entries)).map Prod.fst).Nodup :=
    ((List.mergeSort_perm _ _).map Prod.fst).nodup_iff.2 hfound
  have hsorted : (documents (.directory entries)).Pairwise fun a b => notAfter a.1 b.1 = true :=
    List.pairwise_mergeSort (fun a b c => notAfter_trans a.1 b.1 c.1) (fun a b => notAfter_total a.1 b.1) _
  exact (hsorted.and (List.pairwise_map.1 hnodup)).imp fun ⟨hle, hne⟩ => lt_of_notAfter hle hne

/-- The names that lead to a document are names, and there is at least one. -/
theorem isEntryName_of_mem_documents {found : List String × Option String}
    (hfound : found ∈ documents (.directory entries)) : (∀ name ∈ found.1, IsEntryName name) ∧ found.1 ≠ [] := by
  obtain ⟨above, name, hnames, -, hleads⟩ := mem_documents.1 hfound
  rw [hnames]
  exact ⟨h.isEntryName hleads, by simp⟩

theorem listing_documentsBelow (hpath : path ≠ "") :
    Listing path (.directory entries) (documentsBelow path (.directory entries)) := by
  have hjoined : documentsBelow path (.directory entries) =
      (documents (.directory entries)).map fun found => ⟨found.1.foldl join path, found.2⟩ := by
    rw [documentsBelow_eq]
    refine List.map_congr_left fun found hfound => ?_
    obtain ⟨hnames, hne⟩ := isEntryName_of_mem_documents h hfound
    rw [pathBelow_eq_foldl hpath hnames hne]
  have hpairwise := pairwise_documents h
  rw [hjoined]
  refine ⟨fun file => ?_, ?_, ?_⟩
  · rw [List.mem_map]
    constructor
    · rintro ⟨found, hfound, rfl⟩
      obtain ⟨above, name, hnames, hname, hleads⟩ := mem_documents.1 hfound
      exact ⟨above, name, hleads, hname, by rw [hnames]⟩
    · rintro ⟨above, name, hleads, hname, hpath⟩
      refine ⟨(above ++ [name], file.text), mem_documents.2 ⟨above, name, rfl, hname, hleads⟩, ?_⟩
      rw [← hpath]
  · rw [List.map_map, List.Nodup, List.pairwise_map]
    refine hpairwise.imp_of_mem fun {a b} ha hb hlt heq => ?_
    have hsame := eq_of_foldl_join hpath (isEntryName_of_mem_documents h ha).1 (isEntryName_of_mem_documents h hb).1 heq
    exact absurd hlt (hsame ▸ List.lt_irrefl _)
  · rw [List.pairwise_map]
    exact hpairwise.imp_of_mem fun {a b} ha hb hlt =>
      components_lt hpath (isEntryName_of_mem_documents h ha).1 (isEntryName_of_mem_documents h hb).1 hlt

end Documents

/-! ## Inputs -/

/-- What an input means: a file itself, whatever its name is, and a directory the documents below it. -/
inductive Means (root : Entry) (path : String) : List Input → Prop where
  | file {text : Option String} : root.find? path = some (.file text) → Means root path [⟨path, text⟩]
  | directory {entries : List (String × Entry)} {files : List Input} :
    root.find? path = some (.directory entries) → Listing path (.directory entries) files → Means root path files

theorem means_filesOfInput {root e : Entry} (hroot : root.WellFormed) {path : String} (h : root.find? path = some e) :
    Means root path (filesOfInput path e) := by
  have hpath : path ≠ "" := by
    rintro rfl
    cases h
  cases e with
  | file text => exact .file h
  | directory entries => exact .directory h (listing_documentsBelow (hroot.find? h) hpath)

/-- **Inputs mean themselves or the documents below them.** In a well-formed tree, inputs that are there are collected
without an error, and what is collected are the files that they mean, one input after another. -/
theorem collectInputs_listing {root : Entry} (hroot : root.WellFormed) {inputs : List String}
    (h : ∀ input ∈ inputs, root.find? input ≠ none) :
    ∃ lists, List.Forall₂ (Means root) inputs lists ∧ collectInputs root.find? inputs = .ok lists.flatten := by
  induction inputs with
  | nil => exact ⟨[], .nil, rfl⟩
  | cons input rest ih =>
    obtain ⟨hinput, hrest⟩ := List.forall_mem_cons.1 h
    obtain ⟨e, he⟩ := Option.ne_none_iff_exists'.1 hinput
    obtain ⟨lists, hlists, hcollect⟩ := ih hrest
    refine ⟨filesOfInput input e :: lists, .cons (means_filesOfInput hroot he) hlists, ?_⟩
    rw [collectInputs, he, hcollect, List.flatten_cons]

/-- A tree with names that are ordered otherwise than their paths as texts, and with names that are not those of
documents. -/
def sampleTree : Entry :=
  .directory [
    ("a-b", .directory [("x.json", .file "1")]),
    ("a", .directory [("b", .directory [("x.json", .file "2"), ("X.JSON", .file "3")]), (".json", .file "4")]),
    ("notes.txt", .file "5")]

theorem wellFormed_sampleTree : sampleTree.WellFormed := by
  simp only [sampleTree, Entry.wellFormed_directory, Entry.wellFormed_file, List.forall_mem_cons, List.not_mem_nil,
    false_imp_iff, implies_true, and_true]
  decide

/-- Inputs that are nested in one another, and a file that is no document. -/
theorem collectInputs_listing_sample : sampleTree.WellFormed ∧
    (∀ input ∈ ["a/b/", ".", "notes.txt"], sampleTree.find? input ≠ none) ∧
    ∃ lists, List.Forall₂ (Means sampleTree) ["a/b/", ".", "notes.txt"] lists ∧
      collectInputs sampleTree.find? ["a/b/", ".", "notes.txt"] = .ok lists.flatten := by
  have h : ∀ input ∈ ["a/b/", ".", "notes.txt"], sampleTree.find? input ≠ none := by
    decide
  exact ⟨wellFormed_sampleTree, h, collectInputs_listing wellFormed_sampleTree h⟩

example : (documentsBelow "." sampleTree).map Input.path = ["./a/b/x.json", "./a-b/x.json"] := by
  cbv

end SolidScript.Command
