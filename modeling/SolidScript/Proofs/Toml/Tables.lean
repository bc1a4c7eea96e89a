import SolidScript.Toml.Basic

/-!
# Lines of a document and their tables

What lines make of a document. Documents nest: the lines of a document, put below a header, act on the table of the
header as they act on a document of their own (`foldlM_under`). So a document is made up of its entries
(`makes_entries`), its tables (`Makes.table`) and its repeated tables (`Makes.element`), each given by the lines of a
smaller document.
-/

namespace SolidScript.Toml

/-! ## Entries -/

section Entries

variable {key : String} {value value' : Toml} {entries : Entries}

theorem lookup?_append (key : String) (entries others : Entries) :
    lookup? key (entries ++ others) = (lookup? key entries).or (lookup? key others) := by
  induction entries with
  | nil => rfl
  | cons entry rest ih =>
    obtain ⟨k, v⟩ := entry
    rw [List.cons_append, lookup?, lookup?, ih]
    split <;> rfl

theorem lookup?_eq_none (h : key ∉ entries.map Prod.fst) : lookup? key entries = none := by
  induction entries with
  | nil => rfl
  | cons entry rest ih =>
    obtain ⟨k, v⟩ := entry
    rw [List.map_cons, List.mem_cons, not_or] at h
    rw [lookup?, if_neg (Ne.symm h.1), ih h.2]

theorem lookup?_put (key : String) (value : Toml) (entries : Entries) :
    lookup? key (put key value entries) = some value := by
  induction entries with
  | nil => exact if_pos rfl
  | cons entry rest ih =>
    obtain ⟨k, v⟩ := entry
    rw [put]
    split
    · exact if_pos rfl
    · next hk => rw [lookup?, if_neg hk, ih]

theorem put_put (key : String) (value value' : Toml) (entries : Entries) :
    put key value' (put key value entries) = put key value' entries := by
  induction entries with
  | nil => exact if_pos rfl
  | cons entry rest ih =>
    obtain ⟨k, v⟩ := entry
    rw [put, put]
    split
    · exact if_pos rfl
    · next hk => rw [put, if_neg hk, ih]

theorem put_of_lookup? (h : lookup? key entries = some value) : put key value entries = entries := by
  induction entries with
  | nil => cases h
  | cons entry rest ih =>
    obtain ⟨k, v⟩ := entry
    rw [lookup?] at h
    rw [put]
    split at h
    · next hk =>
      cases h
      rw [if_pos hk, hk]
    · next hk => rw [if_neg hk, ih h]

theorem put_append (h : lookup? key entries = none) (value : Toml) (others : Entries) :
    put key value (entries ++ others) = entries ++ put key value others := by
  induction entries with
  | nil => rfl
  | cons entry rest ih =>
    obtain ⟨k, v⟩ := entry
    rw [lookup?] at h
    split at h
    · cases h
    · next hk => rw [List.cons_append, put, if_neg hk, ih h, List.cons_append]

/-- A new key comes behind the others. -/
theorem put_of_absent (h : lookup? key entries = none) (value : Toml) :
    put key value entries = entries ++ [(key, value)] := by
  have hput := put_append h value []
  rwa [List.append_nil] at hput

/-- The value of the last key, if no other has its name. -/
theorem lookup?_concat (h : lookup? key entries = none) (value : Toml) :
    lookup? key (entries ++ [(key, value)]) = some value := by
  rw [lookup?_append, h, Option.none_or]
  exact if_pos rfl

theorem put_concat (h : lookup? key entries = none) (value value' : Toml) :
    put key value' (entries ++ [(key, value)]) = entries ++ [(key, value')] := by
  rw [put_append h]
  exact congrArg (entries ++ ·) (if_pos rfl)

end Entries

/-! ## Documents within documents -/

/-- A line below a header with a name. -/
def Line.under (name : String) : Line → Line
  | .entry path key value => .entry path key value
  | .header path key => .header (name :: path) key
  | .element path key => .element (name :: path) key

/-- A kind of value whose entries the lines below a header act on: a table, or the last of repeated tables. -/
def Holds (hold : Entries → Toml) : Prop :=
  ∀ {name : String} {entries inner : Entries}, lookup? name entries = some (hold inner) →
    ∀ (change : Origin → Entries → Option Entries) (path : List String),
      alterAt false change (name :: path) .header entries =
        (alterAt false change path .header inner).map fun changed => put name (hold changed) entries

theorem holds_table : Holds (.table .header) := by
  intro name entries inner h change path
  simp only [alterAt, h, Bool.false_and, Bool.or_false, reduceCtorEq, decide_false, Bool.false_eq_true, if_false]
  cases alterAt false change path .header inner <;> rfl

theorem holds_tables (before : List Entries) : Holds fun inner => .tables (before ++ [inner]) := by
  intro name entries inner h change path
  have hsplit : splitLast? (before ++ [inner]) = some (before, inner) := by simp [splitLast?]
  simp only [alterAt, h, hsplit, Option.bind_eq_bind, Option.bind_some]
  cases alterAt false change path .header inner <;> rfl

section Nesting

variable {hold : Entries → Toml} {name : String} {entries inner : Entries}

/-- A document with another in a table of a name. -/
def Draft.within (hold : Entries → Toml) (name : String) (entries : Entries) (d : Draft) : Draft :=
  ⟨put name (hold d.entries) entries, name :: d.current⟩

/-- A line below a header acts on the table of the header. -/
theorem add_under (hhold : Holds hold) (h : lookup? name entries = some (hold inner)) (current : List String)
    (line : Line) :
    (Draft.mk entries (name :: current)).add (line.under name) =
      ((Draft.mk inner current).add line).map (Draft.within hold name entries) := by
  cases line with
  | entry path key value =>
    simp only [Line.under, Draft.add, hhold h]
    cases alterAt false (fun _ => addEntry path key value .header) current .header inner <;> rfl
  | header path key =>
    simp only [Line.under, Draft.add, addTable, hhold h]
    cases alterAt false _ path .header inner <;> rfl
  | element path key =>
    simp only [Line.under, Draft.add, addElement, hhold h]
    cases alterAt false _ path .header inner <;> rfl

/-- The lines below a header make of the table of the header what they make of a document of its own. -/
theorem foldlM_under (hhold : Holds hold) (h : lookup? name entries = some (hold inner)) (current : List String)
    (lines : List Line) :
    (lines.map (Line.under name)).foldlM Draft.add ⟨entries, name :: current⟩ =
      (lines.foldlM Draft.add ⟨inner, current⟩).map (Draft.within hold name entries) := by
  -- On the lines: each leaves its document under the name, where the next one finds it.
  induction lines generalizing entries inner current with
  | nil =>
    rw [List.map_nil, List.foldlM_nil, List.foldlM_nil]
    show some _ = some _
    rw [Draft.within, put_of_lookup? h]
  | cons line rest ih =>
    rw [List.map_cons, List.foldlM_cons, List.foldlM_cons, add_under hhold h]
    cases (Draft.mk inner current).add line with
    | none => rfl
    | some d =>
      have hnested := ih (lookup?_put name (hold d.entries) entries) d.current
      have hwithin : Draft.within hold name (put name (hold d.entries) entries) = Draft.within hold name entries := by
        funext d'
        rw [Draft.within, Draft.within, put_put]
      rw [hwithin] at hnested
      exact hnested

end Nesting

/-! ## The lines of a document -/

/-- The line of an entry. -/
def Line.ofEntry (entry : String × Toml) : Line := .entry [] entry.1 entry.2

/-- Lines that make up a document with given entries. -/
def Makes (lines : List Line) (entries : Entries) : Prop :=
  ∃ current, lines.foldlM Draft.add ⟨[], []⟩ = some ⟨entries, current⟩

theorem Makes.ofLines? {lines : List Line} {entries : Entries} (h : Makes lines entries) :
    ofLines? lines = some (.table .header entries) := by
  obtain ⟨current, hlines⟩ := h
  rw [Toml.ofLines?, hlines]
  rfl

section Documents

variable {key : String} {entries inner : Entries} {lines below : List Line}

/-- New entries come behind the others. -/
theorem foldlM_entries {others : Entries} (hkeys : (others.map Prod.fst).Nodup)
    (hnew : ∀ key ∈ others.map Prod.fst, lookup? key entries = none) :
    (others.map Line.ofEntry).foldlM Draft.add ⟨entries, []⟩ =
      some ⟨entries ++ others, []⟩ := by
  induction others generalizing entries with
  | nil =>
    rw [List.append_nil]
    rfl
  | cons entry rest ih =>
    obtain ⟨key, value⟩ := entry
    rw [List.map_cons, List.nodup_cons] at hkeys
    obtain ⟨hkey, hrest⟩ := List.forall_mem_cons.1 hnew
    have hadd : (Draft.mk entries []).add (.ofEntry (key, value)) = some ⟨entries ++ [(key, value)], []⟩ := by
      simp only [Line.ofEntry, Draft.add, alterAt, addEntry, hkey]
      rfl
    rw [List.map_cons, List.foldlM_cons, hadd]
    show List.foldlM _ (Draft.mk (entries ++ [(key, value)]) []) _ = _
    rw [ih hkeys.2, List.append_assoc, List.singleton_append]
    intro k hk
    have hne : key ≠ k := fun heq => hkeys.1 (heq ▸ hk)
    rw [lookup?_append, hrest k hk, Option.none_or, lookup?, if_neg hne]
    rfl

/-- A document of entries. -/
theorem makes_entries (hkeys : (entries.map Prod.fst).Nodup) :
    Makes (entries.map Line.ofEntry) entries :=
  ⟨[], foldlM_entries hkeys fun _ _ => rfl⟩

/-- **A header with the lines of a document below it** adds that document as a table. -/
theorem Makes.table (h : Makes lines entries) (hnew : lookup? key entries = none) (hbelow : Makes below inner) :
    Makes (lines ++ .header [] key :: below.map (Line.under key)) (entries ++ [(key, .table .header inner)]) := by
  obtain ⟨current, hlines⟩ := h
  obtain ⟨current', hbelow⟩ := hbelow
  have hheader : (Draft.mk entries current).add (.header [] key) =
      some ⟨entries ++ [(key, .table .header [])], [key]⟩ := by
    simp only [Draft.add, addTable, alterAt, hnew, put_of_absent hnew]
    rfl
  refine ⟨key :: current', ?_⟩
  rw [List.foldlM_append, hlines]
  show List.foldlM _ (Draft.mk entries current) _ = _
  rw [List.foldlM_cons, hheader]
  show List.foldlM _ (Draft.mk _ [key]) _ = _
  rw [foldlM_under holds_table (lookup?_concat hnew _), hbelow, Option.map_some, Draft.within, put_concat hnew]

/-- A document with repeated tables of a name behind its entries. -/
def withTables (key : String) (entries : Entries) (elements : List Entries) : Entries :=
  if elements.isEmpty then entries else entries ++ [(key, .tables elements)]

theorem withTables_concat (key : String) (entries : Entries) (elements : List Entries) (last : Entries) :
    withTables key entries (elements ++ [last]) = entries ++ [(key, .tables (elements ++ [last]))] := by
  rw [withTables, if_neg (by simp)]

/-- A repeated header with the lines of a document below it adds that document to those with the same header. -/
theorem Makes.element {elements : List Entries} (h : Makes lines (withTables key entries elements))
    (hnew : lookup? key entries = none) (hbelow : Makes below inner) :
    Makes (lines ++ .element [] key :: below.map (Line.under key)) (withTables key entries (elements ++ [inner])) := by
  obtain ⟨current, hlines⟩ := h
  obtain ⟨current', hbelow⟩ := hbelow
  have hheader : (Draft.mk (withTables key entries elements) current).add (.element [] key) =
      some ⟨entries ++ [(key, .tables (elements ++ [[]]))], [key]⟩ := by
    cases elements with
    | nil =>
      simp only [withTables, Draft.add, addElement, alterAt, List.isEmpty_nil, if_true, hnew, put_of_absent hnew]
      rfl
    | cons first rest =>
      simp only [withTables, Draft.add, addElement, alterAt, List.isEmpty_cons, Bool.false_eq_true, if_false,
        lookup?_concat hnew, put_concat hnew]
      rfl
  refine ⟨key :: current', ?_⟩
  rw [List.foldlM_append, hlines]
  show List.foldlM _ (Draft.mk _ current) _ = _
  rw [List.foldlM_cons, hheader]
  show List.foldlM _ (Draft.mk _ [key]) _ = _
  rw [foldlM_under (holds_tables elements) (lookup?_concat hnew _), hbelow, Option.map_some, Draft.within,
    put_concat hnew, withTables_concat]

end Documents

end SolidScript.Toml
