import SolidScript.Proofs.Config.Held
import SolidScript.Proofs.Double.Count
import SolidScript.Proofs.Toml.Plain

/-!
# Configurations in files

* `writeOnly`: the text of a configuration for some of the keys; for all of them it is that of `write`.
* `plain_tablesOf`, `toList_writeOnly`: the text is that of a document that is written plainly, if no number is NaN.
* `holdsOnly_tablesOf`: the document says the configuration for these keys and nothing for the others.
* `read?_persists`: so every configuration without NaN is read back from its file, and a file with some of its keys is
  read as these and the standard settings.
-/

namespace SolidScript.Config

open Double (beq_self_of_isNaN)
open Overlay (Style Tick)
open Toml (lookup? Entries Field Subtable Item Plain IsBareKey)

/-! ## Writing for some of the keys -/

/-- A part of a text that may be left out. -/
def given (b : Bool) (s : String) : String := if b then s else ""

/-- A part of a list that may be left out. -/
def pick {α : Type} (b : Bool) (a : α) : List α := if b then [a] else []

/-- The document of a configuration for the chosen keys. -/
def writeOnly (chosen : Key → Bool) (c : Config) : String :=
  "[nodes]\n" ++ given (chosen .resolution) (entry "resolution" (Decimal.Digits.write c.nodes.resolution.toNat))
    ++ given (chosen .toolHeight) (entry "tool_height" (writeDouble c.nodes.toolHeight))
    ++ "\n[axis]\n" ++ given (chosen .unitSystem) (entry "unit_system" ("\"" ++ c.overlay.unitSystem.name ++ "\""))
    ++ given (chosen .theme) (entry "theme" ("\"" ++ c.overlay.theme.name ++ "\""))
    ++ given (chosen .defaultSpan) (entry "default_span" (writeDouble c.overlay.defaultSpan))
    ++ given (chosen .metricStyle) ("\n" ++ writeStyle "metric_style" c.overlay.metricStyle)
    ++ given (chosen .imperialStyle) ("\n" ++ writeStyle "imperial_style" c.overlay.imperialStyle)

theorem writeOnly_all (c : Config) : c.writeOnly (fun _ => true) = c.write := by
  show _ ++ ("\n" ++ _) ++ ("\n" ++ _) = _
  rw [← String.append_assoc, ← String.append_assoc]
  rfl

/-- The doubles of a style. -/
def styleNumbers (s : Style) : List Float :=
  s.labelSize :: s.labelOffset :: s.ticks.toList.flatMap fun t => [t.length, t.thickness]

/-- The doubles of a configuration. -/
def numbers (c : Config) : List Float :=
  c.nodes.toolHeight :: c.overlay.defaultSpan ::
    (styleNumbers c.overlay.metricStyle ++ styleNumbers c.overlay.imperialStyle)

/-! ### The parts of the document -/

/-- A key with a double. -/
def doubleField (key : String) (x : Float) : Field := ⟨key, (writeDouble x).toList, .float x⟩

/-- A key with a count. -/
def countField (key : String) (n : UInt32) : Field := ⟨key, Nat.toDigits 10 n.toNat, .integer n.toNat⟩

/-- A key with a name. -/
def nameField (key name : String) : Field := ⟨key, '\"' :: name.toList ++ ['\"'], .string name⟩

/-- The fields of a tick mark. -/
def tickFields (t : Tick) : List Field := [doubleField "length" t.length, doubleField "thickness" t.thickness]

/-- The fields of a style, without its tick marks. -/
def styleFields (s : Style) : List Field :=
  [doubleField "label_size" s.labelSize, doubleField "label_offset" s.labelOffset]

/-- A style below its header. -/
def styleTable (key : String) (s : Style) : Subtable where
  key := key
  below := (styleFields s).map Field.item ++ (s.ticks.toList.map tickFields).flatMap (Toml.elementItems "ticks")
  inner := Toml.withTables "ticks" ((styleFields s).map Field.entry)
    ((s.ticks.toList.map tickFields).map fun fields => fields.map Field.entry)
  spaced := true

/-- The chosen fields of a table. -/
def fields (chosen : Key → Bool) (c : Config) : Table → List Field
  | .nodes =>
    pick (chosen .resolution) (countField "resolution" c.nodes.resolution)
      ++ pick (chosen .toolHeight) (doubleField "tool_height" c.nodes.toolHeight)
  | .overlay =>
    pick (chosen .unitSystem) (nameField "unit_system" c.overlay.unitSystem.name)
      ++ pick (chosen .theme) (nameField "theme" c.overlay.theme.name)
      ++ pick (chosen .defaultSpan) (doubleField "default_span" c.overlay.defaultSpan)

/-- The chosen styles of a table. -/
def styles (chosen : Key → Bool) (c : Config) : Table → List Subtable
  | .nodes => []
  | .overlay =>
    pick (chosen .metricStyle) (styleTable "metric_style" c.overlay.metricStyle)
      ++ pick (chosen .imperialStyle) (styleTable "imperial_style" c.overlay.imperialStyle)

/-- A table with the chosen keys below its header. -/
def tableOf (chosen : Key → Bool) (c : Config) (table : Table) : Subtable where
  key := table.name
  below := (fields chosen c table).map Field.item ++ (styles chosen c table).flatMap Subtable.items
  inner := (fields chosen c table).map Field.entry ++ (styles chosen c table).map Subtable.entry
  spaced := table = .overlay

/-- The tables of the document. -/
def tablesOf (chosen : Key → Bool) (c : Config) : List Subtable := [tableOf chosen c .nodes, tableOf chosen c .overlay]

section Writing

variable {chosen : Key → Bool} {c : Config} {s : Style} {t : Tick} {key : String} {x : Float}

theorem pick_sublist {α : Type} (b : Bool) (a : α) : (pick b a).Sublist [a] := by
  cases b with
  | true => exact List.Sublist.refl [a]
  | false => exact List.nil_sublist [a]

theorem fields_sublist (table : Table) : (fields chosen c table).Sublist (fields (fun _ => true) c table) := by
  cases table with
  | nodes => exact (pick_sublist _ _).append (pick_sublist _ _)
  | overlay => exact ((pick_sublist _ _).append (pick_sublist _ _)).append (pick_sublist _ _)

theorem styles_sublist (table : Table) : (styles chosen c table).Sublist (styles (fun _ => true) c table) := by
  cases table with
  | nodes => exact List.Sublist.refl []
  | overlay => exact (pick_sublist _ _).append (pick_sublist _ _)

/-- The keys of a table differ. -/
theorem nodup_keys (table : Table) :
    ((fields chosen c table).map Field.key ++ (styles chosen c table).map Subtable.key).Nodup := by
  -- The chosen keys are a part of all of them, whose names differ.
  refine List.Nodup.sublist (((fields_sublist table).map _).append ((styles_sublist table).map _)) ?_
  cases table <;> simp [fields, styles, pick, countField, doubleField, nameField, styleTable]

theorem isPlain_doubleField (hkey : IsBareKey key) (hx : x.isNaN = false) : (doubleField key x).IsPlain := by
  obtain ⟨hbare, hread⟩ := Toml.Scalar.value?_write (l := numberLayout) rfl rfl hx
  have htext : writeDouble x = numberLayout.write x := by rw [writeDouble, hx, if_neg Bool.false_ne_true]
  rw [← htext] at hbare hread
  refine ⟨hkey, Toml.readsValue_bare hbare (fun hempty => ?_) hread⟩
  have hnone : Toml.Scalar.value? [] = some (.float x) := by
    rwa [show (writeDouble x).toList = [] from hempty] at hread
  cases hnone

theorem isBareKey_of_all (h : (key.toList.all Toml.isKeyChar && !key.toList.isEmpty) = true) : IsBareKey key := by
  rw [Bool.and_eq_true, List.all_eq_true, Bool.not_eq_true', List.isEmpty_eq_false_iff] at h
  exact ⟨h.1, h.2⟩

theorem Key.isBareKey (k : Key) : IsBareKey k.name := by cases k <;> exact isBareKey_of_all (by decide)

theorem Table.isBareKey (table : Table) : IsBareKey table.name := by
  cases table <;> exact isBareKey_of_all (by decide)

theorem isPlain_name {name : String} (hkey : IsBareKey key) (hplain : ∀ c ∈ name.toList, Toml.IsPlain c)
    (hfilled : name.toList ≠ []) : (nameField key name).IsPlain := by
  have hread := Toml.readsValue_quoted hplain hfilled
  rw [String.ofList_toList] at hread
  exact ⟨hkey, hread⟩

theorem isPlain_tickFields (hlength : t.length.isNaN = false) (hthickness : t.thickness.isNaN = false) :
    ∀ field ∈ tickFields t, field.IsPlain :=
  List.forall_mem_cons.2 ⟨isPlain_doubleField (isBareKey_of_all (by decide)) hlength,
    List.forall_mem_singleton.2 (isPlain_doubleField (isBareKey_of_all (by decide)) hthickness)⟩

/-- A style without NaN is written plainly. -/
theorem isPlain_styleTable (hkey : IsBareKey key) (hs : ∀ x ∈ styleNumbers s, x.isNaN = false) :
    (styleTable key s).IsPlain 1 := by
  obtain ⟨hsize, hs⟩ := List.forall_mem_cons.1 hs
  obtain ⟨hoffset, hs⟩ := List.forall_mem_cons.1 hs
  rw [List.forall_mem_flatMap] at hs
  have hfields : ∀ field ∈ styleFields s, field.IsPlain :=
    List.forall_mem_cons.2 ⟨isPlain_doubleField (isBareKey_of_all (by decide)) hsize,
      List.forall_mem_singleton.2 (isPlain_doubleField (isBareKey_of_all (by decide)) hoffset)⟩
  have hbelow : Plain 1 ((styleFields s).map Field.item)
      (Toml.withTables "ticks" ((styleFields s).map Field.entry) []) :=
    Toml.plain_fields hfields (by simp [styleFields, doubleField]) 1
  refine ⟨hkey, hbelow.elements (isBareKey_of_all (by decide)) rfl ?_ ?_⟩
  · rw [List.forall_mem_map]
    intro t ht
    exact isPlain_tickFields (hs t ht _ List.mem_cons_self) (hs t ht _ (List.mem_cons_of_mem _ List.mem_cons_self))
  · rw [List.forall_mem_map]
    intro t _
    simp [tickFields, doubleField]

/-- The digits of a count are written plainly. -/
theorem isPlain_count (hkey : IsBareKey key) (n : UInt32) :
    (countField key n).IsPlain := by
  have hbound : n.toNat < Decimal.Digits.signedReach := Nat.lt_trans n.toNat_lt (by decide)
  have hgrammatical := Json.grammatical_toDigits n.toNat
  exact ⟨hkey, Toml.readsValue_bare
    (fun d hd => Toml.Scalar.isBareChar_of_isDigit (hgrammatical.digits d hd)) hgrammatical.filled
    (Toml.Scalar.value?_toDigits hbound)⟩

/-- The names of unit systems and of themes are written plainly. -/
theorem isPlain_unitSystem (hkey : IsBareKey key) (u : Overlay.UnitSystem) : (nameField key u.name).IsPlain := by
  cases u <;> exact isPlain_name hkey (by simp [Overlay.UnitSystem.name, Toml.IsPlain, Toml.isPrinting])
    (by simp [Overlay.UnitSystem.name])

theorem isPlain_theme (hkey : IsBareKey key) (theme : Overlay.Theme) : (nameField key theme.name).IsPlain := by
  cases theme <;> exact isPlain_name hkey (by simp [Overlay.Theme.name, Toml.IsPlain, Toml.isPrinting])
    (by simp [Overlay.Theme.name])

theorem isPlain_fields (hc : ∀ x ∈ c.numbers, x.isNaN = false) (table : Table) :
    ∀ field ∈ fields chosen c table, field.IsPlain := by
  suffices hall : ∀ field ∈ fields (fun _ => true) c table, field.IsPlain from
    fun field hfield => hall field ((fields_sublist table).subset hfield)
  obtain ⟨hheight, hc⟩ := List.forall_mem_cons.1 hc
  obtain ⟨hspan, -⟩ := List.forall_mem_cons.1 hc
  cases table with
  | nodes =>
    exact List.forall_mem_cons.2 ⟨isPlain_count (Key.isBareKey .resolution) _,
      List.forall_mem_singleton.2 (isPlain_doubleField (Key.isBareKey .toolHeight) hheight)⟩
  | overlay =>
    exact List.forall_mem_cons.2 ⟨isPlain_unitSystem (Key.isBareKey .unitSystem) _,
      List.forall_mem_cons.2 ⟨isPlain_theme (Key.isBareKey .theme) _,
      List.forall_mem_singleton.2 (isPlain_doubleField (Key.isBareKey .defaultSpan) hspan)⟩⟩

theorem isPlain_styles (hc : ∀ x ∈ c.numbers, x.isNaN = false) (table : Table) :
    ∀ t ∈ styles chosen c table, t.IsPlain 1 := by
  suffices hall : ∀ t ∈ styles (fun _ => true) c table, t.IsPlain 1 from
    fun t ht => hall t ((styles_sublist table).subset ht)
  cases table with
  | nodes => nofun
  | overlay =>
    have hstyles := (List.forall_mem_cons.1 (List.forall_mem_cons.1 hc).2).2
    obtain ⟨hmetric, himperial⟩ := List.forall_mem_append.1 hstyles
    exact List.forall_mem_cons.2 ⟨isPlain_styleTable (Key.isBareKey .metricStyle) hmetric,
      List.forall_mem_singleton.2 (isPlain_styleTable (Key.isBareKey .imperialStyle) himperial)⟩

theorem isPlain_tableOf (hc : ∀ x ∈ c.numbers, x.isNaN = false) (table : Table) :
    (tableOf chosen c table).IsPlain 2 := by
  exact ⟨table.isBareKey, Toml.plain_document (isPlain_fields hc table) (isPlain_styles hc table) (nodup_keys table)⟩

/-- The document of a configuration without NaN is written plainly. -/
theorem plain_tablesOf (hc : ∀ x ∈ c.numbers, x.isNaN = false) :
    Plain 3 ((tablesOf chosen c).flatMap Subtable.items) ((tablesOf chosen c).map Subtable.entry) := by
  have htables : ∀ t ∈ tablesOf chosen c, t.IsPlain 2 :=
    List.forall_mem_cons.2 ⟨isPlain_tableOf hc .nodes, List.forall_mem_singleton.2 (isPlain_tableOf hc .overlay)⟩
  have hkeys : (([] : List Field).map Field.key ++ (tablesOf chosen c).map Subtable.key).Nodup := by
    simp [tablesOf, tableOf, Table.name]
  exact Toml.plain_document (List.forall_mem_nil _) htables hkeys

/-! ### The text of the document -/

theorem toList_given (b : Bool) (s : String) : (given b s).toList = if b then s.toList else [] := by
  cases b <;> rfl

theorem flatMap_pick {α β : Type} (b : Bool) (a : α) (f : α → List β) :
    (pick b a).flatMap f = if b then f a else [] := by
  cases b with
  | true => exact List.append_nil (f a)
  | false => rfl

/-- A header does not change a field below it. -/
theorem under_field (name : String) (field : Field) : field.item.under name = field.item := rfl

theorem chars_field {field : Field} {value : String} (h : value.toList = field.text) :
    field.item.chars = (entry field.key value).toList := by
  rw [entry, String.toList_append, String.toList_append, String.toList_append, h]
  rfl

theorem chars_count (key : String) (n : UInt32) :
    (countField key n).item.chars = (entry key (Decimal.Digits.write n.toNat)).toList :=
  chars_field String.toList_ofList

theorem chars_double (key : String) (x : Float) :
    (doubleField key x).item.chars = (entry key (writeDouble x)).toList := chars_field rfl

theorem chars_name (key value : String) :
    (nameField key value).item.chars = (entry key ("\"" ++ value ++ "\"")).toList := by
  refine chars_field ?_
  rw [String.toList_append, String.toList_append]
  rfl

/-- The text of a tick mark below the header of its style. -/
theorem chars_tick (key : String) (t : Tick) :
    (Toml.elementItems "ticks" (tickFields t)).flatMap (fun item => ((item.under key).under "axis").chars) =
      ("\n[[axis." ++ key ++ ".ticks]]\n" ++ entry "length" (writeDouble t.length)
        ++ entry "thickness" (writeDouble t.thickness)).toList := by
  have hheader : (⟨true, .element ["axis", key] "ticks", []⟩ : Item).chars =
      ("\n[[axis." ++ key ++ ".ticks]]\n").toList := by
    simp [Item.chars, Item.text, Toml.dotted]
  rw [String.toList_append, String.toList_append, ← hheader, ← chars_double, ← chars_double, List.append_assoc]
  simp only [Toml.elementItems, tickFields, List.map_cons, List.map_nil, List.flatMap_cons, List.flatMap_nil,
    under_field, List.append_nil]
  rfl

/-- The text of a style below the header of its table. -/
theorem chars_style (key : String) (s : Style) :
    (styleTable key s).items.flatMap (fun item => (item.under "axis").chars) = ("\n" ++ writeStyle key s).toList := by
  have hheader : (⟨true, .header ["axis"] key, []⟩ : Item).chars =
      "\n".toList ++ ("[axis." ++ key ++ "]\n").toList := by
    simp [Item.chars, Item.text, Toml.dotted]
  rw [String.toList_append, writeStyle, String.toList_append, String.toList_append, String.toList_append,
    String.toList_join, List.append_assoc, List.append_assoc, ← List.append_assoc, ← hheader, ← chars_double,
    ← chars_double]
  simp only [styleTable, Subtable.items, styleFields, List.map_cons, List.map_nil, List.map_append, List.flatMap_cons,
    List.flatMap_nil, List.flatMap_append, List.flatMap_map, List.map_flatMap, List.flatMap_assoc, under_field,
    List.append_nil, List.append_assoc, ← chars_tick]
  rfl

/-- The text of a table is that of its header, its fields and its styles. -/
theorem chars_tableOf (chosen : Key → Bool) (c : Config) (table : Table) :
    (tableOf chosen c table).items.flatMap Item.chars =
      (⟨table = .overlay, .header [] table.name, []⟩ : Item).chars ++
        ((fields chosen c table).flatMap (fun field => field.item.chars) ++
          (styles chosen c table).flatMap fun t => t.items.flatMap fun item => (item.under table.name).chars) := by
  rw [Subtable.items, List.flatMap_cons, List.flatMap_map]
  simp only [tableOf, List.flatMap_append, List.flatMap_map, List.flatMap_assoc, under_field]

theorem toList_writeOnly (chosen : Key → Bool) (c : Config) :
    (c.writeOnly chosen).toList = ((tablesOf chosen c).flatMap Subtable.items).flatMap Item.chars := by
  have hnodes : (⟨false, .header [] "nodes", []⟩ : Item).chars = "[nodes]\n".toList := by decide
  have hoverlay : (⟨true, .header [] "axis", []⟩ : Item).chars = "\n[axis]\n".toList := by decide
  rw [tablesOf, List.flatMap_assoc, List.flatMap_cons, List.flatMap_singleton, chars_tableOf, chars_tableOf]
  simp only [fields, styles, Table.name, List.flatMap_append, List.flatMap_nil, List.append_nil, flatMap_pick,
    chars_count, chars_double, chars_name, chars_style]
  unfold writeOnly
  simp only [String.toList_append, List.append_assoc, toList_given, ← hnodes, ← hoverlay]
  rfl

/-! ### What the document says -/

/-- The value that the document has for a key. -/
def Key.written : (k : Key) → k.Value → Toml
  | .resolution, n => .integer (UInt32.toNat n)
  | .toolHeight, x => .float x
  | .unitSystem, u => .string (Overlay.UnitSystem.name u)
  | .theme, t => .string (Overlay.Theme.name t)
  | .defaultSpan, x => .float x
  | .metricStyle, s => .table .header (styleTable "metric_style" s).inner
  | .imperialStyle, s => .table .header (styleTable "imperial_style" s).inner

theorem says_tick (t : Tick) : SaysTick (.table .header ((tickFields t).map Field.entry)) t :=
  ⟨_, _, _, _, rfl, rfl, .float t.length, rfl, .float t.thickness⟩

theorem says_style (key : String) (s : Style) : SaysStyle (.table .header (styleTable key s).inner) s := by
  have hticks : List.Forall₂ SaysTick
      (s.ticks.toList.map fun t => .table .header ((tickFields t).map Field.entry)) s.ticks.toList := by
    rw [List.forall₂_map_left_iff]
    exact List.forall₂_same.2 fun t _ => says_tick t
  exact ⟨_, _, _, _, _, _, rfl, rfl, rfl, hticks, rfl, .float s.labelSize, rfl, .float s.labelOffset⟩

theorem Key.says_written (k : Key) (v : k.Value) : k.Says (k.written v) v := by
  cases k with
  | resolution => rfl
  | toolHeight => exact .float v
  | unitSystem => rfl
  | theme => rfl
  | defaultSpan => exact .float v
  | metricStyle => exact says_style _ v
  | imperialStyle => exact says_style _ v

theorem lookup?_pick {α : Type} (b : Bool) (a : α) (f : α → String × Toml) :
    lookup? key ((pick b a).map f) = if b = true ∧ (f a).1 = key then some (f a).2 else none := by
  cases b <;> simp [pick, lookup?]

/-- The document has the values of the chosen keys. -/
theorem lookup?_tableOf (k : Key) :
    lookup? k.name (tableOf chosen c k.table).inner = if chosen k then some (k.written (k.get c)) else none := by
  cases k <;> simp [tableOf, Key.table, Key.name, Key.get, Key.written, fields, styles, Toml.lookup?_append,
    lookup?_pick, Field.entry, Subtable.entry, countField, doubleField, nameField, styleTable]

theorem holdsOnly_tablesOf (chosen : Key → Bool) (c : Config) :
    HoldsOnly chosen c (.table .header ((tablesOf chosen c).map Subtable.entry)) := by
  refine ⟨.header, _, rfl, fun table => ⟨(tableOf chosen c table).inner, .inr ⟨.header, ?_⟩, ?_⟩⟩
  · cases table <;> rfl
  · rintro k rfl
    rw [lookup?_tableOf]
    cases chosen k with
    | true => exact ⟨_, rfl, k.says_written _⟩
    | false => rfl

/-- The text for the chosen keys is read as a document that says just these. -/
theorem read?_writeOnly (hc : ∀ x ∈ c.numbers, x.isNaN = false) :
    Toml.read? (c.writeOnly chosen) = some (.table .header ((tablesOf chosen c).map Subtable.entry)) := by
  have htext : String.ofList (((tablesOf chosen c).flatMap Subtable.items).flatMap Item.chars) =
      c.writeOnly chosen := by
    rw [← toList_writeOnly, String.ofList_toList]
  rw [← htext, (plain_tablesOf hc).read?]

end Writing

/-! ## Equality -/

section Equality

variable {c : Config} {s : Style}

theorem beq_self_of_forall {α : Type} [BEq α] {l : List α} (h : ∀ a ∈ l, (a == a) = true) : (l == l) = true := by
  induction l with
  | nil => rfl
  | cons a rest ih =>
    obtain ⟨ha, hrest⟩ := List.forall_mem_cons.1 h
    rw [List.cons_beq_cons, ha, ih hrest]
    rfl

theorem sameStyle_self (hs : ∀ x ∈ styleNumbers s, x.isNaN = false) : sameStyle s s = true := by
  obtain ⟨hsize, hs⟩ := List.forall_mem_cons.1 hs
  obtain ⟨hoffset, hs⟩ := List.forall_mem_cons.1 hs
  rw [List.forall_mem_flatMap] at hs
  have hticks : ∀ t ∈ s.ticks.toList, (t == t) = true := by
    intro t ht
    show (t.length == t.length && t.thickness == t.thickness) = true
    rw [beq_self_of_isNaN (hs t ht _ List.mem_cons_self),
      beq_self_of_isNaN (hs t ht _ (List.mem_cons_of_mem _ List.mem_cons_self))]
    rfl
  rw [sameStyle, beq_self_of_forall hticks, beq_self_of_isNaN hsize, beq_self_of_isNaN hoffset]
  rfl

/-- A configuration without NaN equals itself. -/
theorem same_self (hc : ∀ x ∈ c.numbers, x.isNaN = false) : c.same c = true := by
  obtain ⟨hheight, hc⟩ := List.forall_mem_cons.1 hc
  obtain ⟨hspan, hc⟩ := List.forall_mem_cons.1 hc
  obtain ⟨hmetric, himperial⟩ := List.forall_mem_append.1 hc
  rw [same, beq_self_of_isNaN hheight, beq_self_of_isNaN hspan, sameStyle_self hmetric, sameStyle_self himperial]
  simp only [beq_self_eq_true, Bool.and_self]

end Equality

/-! ## Round trip -/

/-- **A configuration without NaN is read back from its file**, and it equals itself. A file that says it for some of
the keys, whatever unknown keys it has besides, is read as the configuration for these and the standard settings for
the others; what is written for some of the keys is such a file. -/
theorem read?_persists {c : Config} (hc : ∀ x ∈ c.numbers, x.isNaN = false) :
    read? c.write = some c ∧ c.same c = true ∧ ∀ chosen : Key → Bool,
      (∀ text document, Toml.read? text = some document → HoldsOnly chosen c document →
        read? text = some (c.only chosen)) ∧
      ∃ document, Toml.read? (c.writeOnly chosen) = some document ∧ HoldsOnly chosen c document := by
  have hfile : ∀ (chosen : Key → Bool) text document, Toml.read? text = some document →
      HoldsOnly chosen c document → read? text = some (c.only chosen) := by
    intro chosen text document hread hholds
    rw [read?, hread, Option.bind_some, ofToml?_of_holdsOnly hholds]
  refine ⟨?_, same_self hc, fun chosen => ⟨hfile chosen, _, read?_writeOnly hc, holdsOnly_tablesOf chosen c⟩⟩
  rw [← writeOnly_all, hfile _ _ _ (read?_writeOnly hc) (holdsOnly_tablesOf _ c), only_all]

/-- A configuration with values at the ends of their types. -/
def extreme : Config where
  nodes := ⟨4294967295, -0.0⟩
  overlay := { OverlayDefaults.standard with defaultSpan := 1.0 / 0.0, unitSystem := .imperial }

theorem read?_persists_extreme :
    (∀ x ∈ extreme.numbers, x.isNaN = false) ∧ read? extreme.write = some extreme ∧
      read? (extreme.writeOnly fun k => k = .defaultSpan) = some (extreme.only fun k => k = .defaultSpan) := by
  have hnumbers : ∀ x ∈ extreme.numbers, x.isNaN = false := by decide +kernel
  obtain ⟨hread, -, hparts⟩ := read?_persists hnumbers
  obtain ⟨hfile, document, hdocument, hholds⟩ := hparts fun k => k = .defaultSpan
  exact ⟨hnumbers, hread, hfile _ document hdocument hholds⟩

end SolidScript.Config
