import SolidScript.Proofs.Toml.Lines
import SolidScript.Proofs.Toml.Tables

/-!
# Documents that are written plainly

A document that is built up from entries, tables and repeated tables, each written plainly (`Plain`), is read from its
text as what it was built from (`Plain.read?`). Entries come first (`plain_fields`), since a line below a header belongs
to the header; then come tables (`plain_document`) or repeated tables (`Plain.elements`), whose own documents are less
deep.
-/

namespace SolidScript.Toml

/-- An item below a header with a name. -/
def Item.under (name : String) (item : Item) : Item := { item with line := item.line.under name }

/-- Items that are written plainly, with at most so many names in a header, and make up a document with given
entries. -/
structure Plain (depth : Nat) (items : List Item) (entries : Entries) : Prop where
  readable : ∀ item ∈ items, item.Readable depth
  makes : Makes (items.map Item.line) entries

/-! ## Parts of a document -/

/-- A key with its value and the text of the value. -/
structure Field where
  key : String
  text : List Char
  value : Toml

namespace Field

/-- The line of a field. -/
def item (field : Field) : Item := ⟨false, .entry [] field.key field.value, field.text⟩

/-- The entry of a field. -/
def entry (field : Field) : String × Toml := (field.key, field.value)

/-- A field that is written plainly. -/
structure IsPlain (field : Field) : Prop where
  key : IsBareKey field.key
  value : ReadsValue field.text field.value

end Field

/-- A table with the items below its header, which make up a document with its entries. -/
structure Subtable where
  key : String
  below : List Item
  inner : Entries
  /-- Whether an empty line stands in front. -/
  spaced : Bool

namespace Subtable

/-- The items of a table. -/
def items (t : Subtable) : List Item := ⟨t.spaced, .header [] t.key, []⟩ :: t.below.map (Item.under t.key)

/-- The entry of a table. -/
def entry (t : Subtable) : String × Toml := (t.key, .table .header t.inner)

/-- A table that is written plainly. -/
structure IsPlain (depth : Nat) (t : Subtable) : Prop where
  key : IsBareKey t.key
  below : Plain depth t.below t.inner

end Subtable

/-- The items of one of several tables of a name, behind an empty line. -/
def elementItems (key : String) (fields : List Field) : List Item :=
  ⟨true, .element [] key, []⟩ :: (fields.map Field.item).map (Item.under key)

section

variable {depth : Nat} {items below : List Item} {entries inner : Entries} {key : String} {fields : List Field}

theorem Item.Readable.under {item : Item} (h : item.Readable depth) (hkey : IsBareKey key) :
    (item.under key).Readable (depth + 1) := by
  obtain ⟨spaced, line, value⟩ := item
  cases line with
  | entry path name v => exact h
  | header path name =>
    obtain ⟨hlength, hpath, hname⟩ := h
    exact ⟨Nat.succ_lt_succ hlength, List.forall_mem_cons.2 ⟨hkey, hpath⟩, hname⟩
  | element path name =>
    obtain ⟨hlength, hpath, hname⟩ := h
    exact ⟨Nat.succ_lt_succ hlength, List.forall_mem_cons.2 ⟨hkey, hpath⟩, hname⟩

/-- Items below a header are written plainly if they are so in a document of their own. -/
theorem readable_under (h : ∀ item ∈ below, item.Readable depth) (hkey : IsBareKey key) :
    ∀ item ∈ below.map (Item.under key), item.Readable (depth + 1) :=
  List.forall_mem_map.2 fun item hitem => (h item hitem).under hkey

theorem map_line_under (key : String) (below : List Item) :
    (below.map (Item.under key)).map Item.line = (below.map Item.line).map (Line.under key) := by
  rw [List.map_map, List.map_map]
  rfl

/-! ## Building documents -/

/-- Fields with different keys make up a document of their entries. -/
theorem plain_fields (hplain : ∀ field ∈ fields, field.IsPlain) (hkeys : (fields.map Field.key).Nodup) (depth : Nat) :
    Plain depth (fields.map Field.item) (fields.map Field.entry) := by
  refine ⟨?_, ?_⟩
  · rw [List.forall_mem_map]
    exact fun field hfield => ⟨rfl, (hplain field hfield).key, (hplain field hfield).value⟩
  · have hmakes : Makes ((fields.map Field.entry).map Line.ofEntry) (fields.map Field.entry) :=
      makes_entries (by rwa [List.map_map])
    rw [List.map_map] at hmakes
    rwa [List.map_map]

/-- A table is added. -/
theorem Plain.table {t : Subtable} (h : Plain (depth + 1) items entries) (ht : t.IsPlain depth)
    (hnew : lookup? t.key entries = none) : Plain (depth + 1) (items ++ t.items) (entries ++ [t.entry]) := by
  refine ⟨?_, ?_⟩
  · rw [List.forall_mem_append, Subtable.items, List.forall_mem_cons]
    exact ⟨h.readable, ⟨Nat.succ_pos _, nofun, ht.key⟩, readable_under ht.below.readable ht.key⟩
  · rw [List.map_append, Subtable.items, List.map_cons, map_line_under]
    exact h.makes.table hnew ht.below.makes

theorem Plain.tables {tables : List Subtable} (h : Plain (depth + 1) items entries)
    (htables : ∀ t ∈ tables, t.IsPlain depth) (hkeys : (entries.map Prod.fst ++ tables.map Subtable.key).Nodup) :
    Plain (depth + 1) (items ++ tables.flatMap Subtable.items) (entries ++ tables.map Subtable.entry) := by
  induction tables generalizing items entries with
  | nil =>
    rw [List.flatMap_nil, List.map_nil, List.append_nil, List.append_nil]
    exact h
  | cons t rest ih =>
    obtain ⟨ht, hrest⟩ := List.forall_mem_cons.1 htables
    have hnew : lookup? t.key entries = none := by
      refine lookup?_eq_none fun hmem => ?_
      exact (List.nodup_append.1 hkeys).2.2 _ hmem _ List.mem_cons_self rfl
    rw [List.flatMap_cons, List.map_cons, ← List.append_assoc, List.append_cons]
    refine ih (h.table ht hnew) hrest ?_
    rwa [List.map_append, List.append_assoc]

/-- **Fields and then tables**, all with different keys, make up a document of their entries. -/
theorem plain_document {tables : List Subtable} (hfields : ∀ field ∈ fields, field.IsPlain)
    (htables : ∀ t ∈ tables, t.IsPlain depth) (hkeys : (fields.map Field.key ++ tables.map Subtable.key).Nodup) :
    Plain (depth + 1) (fields.map Field.item ++ tables.flatMap Subtable.items)
      (fields.map Field.entry ++ tables.map Subtable.entry) := by
  refine (plain_fields hfields (List.nodup_append.1 hkeys).1 (depth + 1)).tables htables ?_
  rwa [List.map_map]

/-- One of several tables is added. -/
theorem Plain.element {elements : List Entries} (h : Plain (depth + 1) items (withTables key entries elements))
    (hkey : IsBareKey key) (hnew : lookup? key entries = none) (hplain : ∀ field ∈ fields, field.IsPlain)
    (hkeys : (fields.map Field.key).Nodup) :
    Plain (depth + 1) (items ++ elementItems key fields)
      (withTables key entries (elements ++ [fields.map Field.entry])) := by
  have hbelow := plain_fields hplain hkeys depth
  refine ⟨?_, ?_⟩
  · rw [List.forall_mem_append, elementItems, List.forall_mem_cons]
    exact ⟨h.readable, ⟨Nat.succ_pos _, nofun, hkey⟩, readable_under hbelow.readable hkey⟩
  · rw [List.map_append, elementItems, List.map_cons, map_line_under]
    exact h.makes.element hnew hbelow.makes

/-- **Repeated tables** of fields are added one by one. -/
theorem Plain.elements {before : List Entries} {all : List (List Field)}
    (h : Plain (depth + 1) items (withTables key entries before)) (hkey : IsBareKey key)
    (hnew : lookup? key entries = none) (hplain : ∀ fields ∈ all, ∀ field ∈ fields, field.IsPlain)
    (hkeys : ∀ fields ∈ all, (fields.map Field.key).Nodup) :
    Plain (depth + 1) (items ++ all.flatMap (elementItems key))
      (withTables key entries (before ++ all.map fun fields => fields.map Field.entry)) := by
  induction all generalizing items before with
  | nil =>
    rw [List.flatMap_nil, List.map_nil, List.append_nil, List.append_nil]
    exact h
  | cons fields rest ih =>
    obtain ⟨hfields, hrest⟩ := List.forall_mem_cons.1 hplain
    obtain ⟨hfirst, hothers⟩ := List.forall_mem_cons.1 hkeys
    rw [List.flatMap_cons, List.map_cons, ← List.append_assoc, List.append_cons]
    exact ih (h.element hkey hnew hfields hfirst) hrest hothers

/-- **A document that is written plainly is read from its text.** -/
theorem Plain.read? (h : Plain 3 items entries) :
    read? (String.ofList (items.flatMap Item.chars)) = some (.table .header entries) := by
  rw [read?_items fun item hitem => (h.readable item hitem).reads, h.makes.ofLines?]

end

end SolidScript.Toml
