import SolidScript.Proofs.Toml.Scalar
import SolidScript.Toml.Read

/-!
# Reading lines

How the lines of a document are read when it is written plainly: keys without quotes, one blank on either side of an
equals sign, a value that ends with its line, and perhaps an empty line in front. Every such line is read on its own
(`reads_entry`, `reads_header`, `reads_element`), and a document is what its lines make up (`read?_items`).
-/

namespace SolidScript.Toml

open Decimal.Digits (span_append ne_of_class)

/-! ## Keys -/

/-- A name that needs no quotes. -/
structure IsBareKey (name : String) : Prop where
  chars : ∀ c ∈ name.toList, isKeyChar c = true
  filled : name.toList ≠ []

/-- A text that does not go on with a key. -/
def KeyEnded (rest : List Char) : Prop := ∀ c ∈ rest.head?, isKeyChar c = false ∧ c ≠ '.'

/-- The text of a dotted key. -/
def dotted (path : List String) (key : String) : List Char :=
  path.flatMap (fun name => name.toList ++ ['.']) ++ key.toList

section Keys

variable {name key : String} {path : List String} {rest : List Char}

theorem skipSpace_of_head (h : ∀ c ∈ rest.head?, c ≠ ' ' ∧ c ≠ '\t') : skipSpace rest = rest := by
  cases rest with
  | nil => rfl
  | cons c tail =>
    obtain ⟨hspace, htab⟩ := h c rfl
    exact List.dropWhile_cons_of_neg (by simp [hspace, htab])

/-- A key begins with one of its characters. -/
theorem IsBareKey.exists_cons (h : IsBareKey name) : ∃ c tail, name.toList = c :: tail ∧ isKeyChar c = true := by
  obtain ⟨c, tail, hname⟩ := List.exists_cons_of_ne_nil h.filled
  exact ⟨c, tail, hname, h.chars c (hname ▸ List.mem_cons_self)⟩

theorem IsBareKey.skipSpace (h : IsBareKey name) (rest : List Char) :
    skipSpace (name.toList ++ rest) = name.toList ++ rest := by
  obtain ⟨c, tail, hname, hc⟩ := h.exists_cons
  refine skipSpace_of_head fun d hd => ?_
  obtain rfl : c = d := by simpa [hname] using hd
  exact ⟨ne_of_class hc (by decide), ne_of_class hc (by decide)⟩

theorem IsBareKey.part? (h : IsBareKey name) (hrest : ∀ c ∈ rest.head?, isKeyChar c = false) :
    part? (name.toList ++ rest) = some (name, rest) := by
  obtain ⟨c, tail, hname, hc⟩ := h.exists_cons
  have hspan : (name.toList ++ rest).span isKeyChar = (name.toList, rest) := span_append h.chars hrest
  have hempty : name.toList.isEmpty = false := List.isEmpty_eq_false_iff.2 h.filled
  unfold Toml.part?
  split
  · next heq =>
    rw [hname] at heq
    exact absurd (List.cons.inj heq).1 (ne_of_class hc (by decide))
  · next heq =>
    rw [hname] at heq
    exact absurd (List.cons.inj heq).1 (ne_of_class hc (by decide))
  · simp only [hspan, hempty, Bool.false_eq_true, if_false, String.ofList_toList]

/-- A dotted key of bare parts is read as its parts. -/
theorem parts?_dotted (hkey : IsBareKey key) (hpath : ∀ name ∈ path, IsBareKey name)
    (hrest : KeyEnded rest) (hskip : KeyEnded (skipSpace rest)) {steps : Nat} (hsteps : path.length < steps) :
    parts? steps (dotted path key ++ rest) = some (path, key, skipSpace rest) := by
  induction path generalizing steps with
  | nil =>
    obtain ⟨n, rfl⟩ : ∃ n, steps = n + 1 := ⟨steps - 1, by simp at hsteps; omega⟩
    show parts? (n + 1) (key.toList ++ rest) = _
    simp only [parts?, hkey.skipSpace, hkey.part? fun c hc => (hrest c hc).1, Option.bind_eq_bind, Option.bind_some]
    split
    · next heq => exact absurd rfl (hskip '.' (by rw [heq]; rfl)).2
    · rfl
  | cons name names ih =>
    obtain ⟨n, rfl⟩ : ∃ n, steps = n + 1 := ⟨steps - 1, by omega⟩
    obtain ⟨hname, hnames⟩ := List.forall_mem_cons.1 hpath
    have hsplit : dotted (name :: names) key ++ rest = name.toList ++ '.' :: (dotted names key ++ rest) := by
      simp [dotted]
    have hpoint : ∀ c ∈ ('.' :: (dotted names key ++ rest)).head?, isKeyChar c = false := by
      intro c hc
      obtain rfl : '.' = c := by simpa using hc
      decide
    have hskipped : skipSpace ('.' :: (dotted names key ++ rest)) = '.' :: (dotted names key ++ rest) :=
      skipSpace_of_head fun c hc => by
        obtain rfl : '.' = c := by simpa using hc
        decide
    rw [List.length_cons] at hsteps
    simp only [hsplit, parts?, hname.skipSpace, hname.part? hpoint, hskipped, Option.bind_eq_bind, Option.bind_some,
      ih hnames (by omega : names.length < n)]

theorem key?_dotted (hkey : IsBareKey key) (hpath : ∀ name ∈ path, IsBareKey name) (hrest : KeyEnded rest)
    (hskip : KeyEnded (skipSpace rest)) {steps : Nat} (hsteps : path.length < steps) (hdeep : path.length < deepest) :
    key? steps (dotted path key ++ rest) = some (path, key, skipSpace rest) := by
  rw [key?, parts?_dotted hkey hpath hrest hskip hsteps]
  simp [hdeep]

end Keys

/-! ## Values -/

/-- A value that is read up to the end of its line. -/
structure ReadsValue (text : List Char) (value : Toml) : Prop where
  reads : ∀ steps depth rest, value? (steps + 1) depth (text ++ '\n' :: rest) = some (value, '\n' :: rest)
  head : ∀ c ∈ text.head?, c ≠ ' ' ∧ c ≠ '\t'

section Values

variable {text : List Char} {value : Toml}

theorem ended_newline (rest : List Char) : Scalar.Ended ('\n' :: rest) := by
  intro c hc
  obtain rfl : '\n' = c := by simpa using hc
  decide

/-- A number is read. -/
theorem readsValue_bare (hbare : ∀ c ∈ text, Scalar.isBareChar c = true) (hfilled : text ≠ [])
    (h : Scalar.value? text = some value) : ReadsValue text value := by
  obtain ⟨c, tail, rfl⟩ := List.exists_cons_of_ne_nil hfilled
  have hc := hbare c List.mem_cons_self
  refine ⟨fun steps depth rest => ?_, fun d hd => ?_⟩
  · have hread := Scalar.read?_bare hbare (ended_newline rest)
    rw [h, Option.map_some] at hread
    unfold value?
    split
    · next heq => exact absurd (List.cons.inj heq).1 (ne_of_class hc (by decide))
    · next heq => exact absurd (List.cons.inj heq).1 (ne_of_class hc (by decide))
    · next heq => exact absurd (List.cons.inj heq).1 (ne_of_class hc (by decide))
    · next heq => exact absurd (List.cons.inj heq).1 (ne_of_class hc (by decide))
    · exact hread
  · obtain rfl : c = d := by simpa using hd
    exact ⟨ne_of_class hc (by decide), ne_of_class hc (by decide)⟩

/-- A character that stands for itself between quotes. -/
def IsPlain (c : Char) : Prop := isPrinting c = true ∧ c ≠ '\"' ∧ c ≠ '\\'

theorem basic?_plain (hplain : ∀ c ∈ text, IsPlain c) (rest : List Char) {steps : Nat} (hsteps : text.length < steps) :
    basic? steps (text ++ '\"' :: rest) = some (text, rest) := by
  induction text generalizing steps with
  | nil =>
    obtain ⟨n, rfl⟩ : ∃ n, steps = n + 1 := ⟨steps - 1, by simp at hsteps; omega⟩
    rfl
  | cons c tail ih =>
    obtain ⟨n, rfl⟩ : ∃ n, steps = n + 1 := ⟨steps - 1, by omega⟩
    obtain ⟨⟨hprinting, hquote, hescape⟩, htail⟩ := List.forall_mem_cons.1 hplain
    rw [List.length_cons] at hsteps
    rw [List.cons_append, basic?, if_pos hprinting, ih htail (by omega), Option.map_some]
    · exact hquote
    · exact hescape

/-- A plain text between quotes is read. -/
theorem readsValue_quoted (hplain : ∀ c ∈ text, IsPlain c) (hfilled : text ≠ []) :
    ReadsValue ('\"' :: text ++ ['\"']) (.string (String.ofList text)) := by
  refine ⟨fun steps depth rest => ?_, fun d hd => ?_⟩
  · have hsplit : '\"' :: text ++ ['\"'] ++ '\n' :: rest = '\"' :: (text ++ '\"' :: '\n' :: rest) := by simp
    have hbasic := basic?_plain hplain ('\n' :: rest)
      (by simp : text.length < (text ++ '\"' :: '\n' :: rest).length + 1)
    have hstring : string? ('\"' :: (text ++ '\"' :: '\n' :: rest)) = some (text, '\n' :: rest) := by
      obtain ⟨c, tail, rfl⟩ := List.exists_cons_of_ne_nil hfilled
      rw [string?, hbasic]
      intro others heq
      exact (hplain c List.mem_cons_self).2.1 (List.cons.inj heq).1
    rw [hsplit, value?, hstring, Option.map_some]
  · obtain rfl : '\"' = d := by simpa using hd
    decide

end Values

/-! ## Lines -/

/-- A text that is read as a line. -/
structure Reads (text : List Char) (line : Line) : Prop where
  reads : ∀ steps rest, line? (steps + 3) (text ++ '\n' :: rest) = some (line, '\n' :: rest)
  head : ∃ c tail, text = c :: tail ∧ (c = '[' ∨ isKeyChar c = true)

section Lines

variable {key : String} {path : List String} {text : List Char} {value : Toml}

/-- A key and its value. -/
theorem reads_entry (hkey : IsBareKey key) (h : ReadsValue text value) :
    Reads (key.toList ++ " = ".toList ++ text) (.entry [] key value) := by
  obtain ⟨c, tail, hname, hc⟩ := hkey.exists_cons
  refine ⟨fun steps rest => ?_, c, tail ++ " = ".toList ++ text, by rw [hname]; rfl, .inr hc⟩
  have hspace : KeyEnded (" = ".toList ++ (text ++ '\n' :: rest)) := by
    intro d hd
    obtain rfl : ' ' = d := Option.some.inj hd
    decide
  have hequals : skipSpace (" = ".toList ++ (text ++ '\n' :: rest)) = '=' :: ' ' :: (text ++ '\n' :: rest) := rfl
  have hskip : KeyEnded (skipSpace (" = ".toList ++ (text ++ '\n' :: rest))) := by
    intro d hd
    rw [hequals] at hd
    obtain rfl : '=' = d := Option.some.inj hd
    decide
  have hread : key? (steps + 2) (key.toList ++ (" = ".toList ++ (text ++ '\n' :: rest))) =
      some ([], key, '=' :: ' ' :: (text ++ '\n' :: rest)) := by
    have hnone : ∀ name ∈ ([] : List String), IsBareKey name := nofun
    rw [← hequals]
    exact key?_dotted hkey hnone hspace hskip (Nat.succ_pos _) (by decide)
  have hvalue : skipSpace (' ' :: (text ++ '\n' :: rest)) = text ++ '\n' :: rest := by
    show skipSpace (text ++ '\n' :: rest) = _
    refine skipSpace_of_head fun d hd => ?_
    cases text with
    | nil =>
      obtain rfl : '\n' = d := Option.some.inj hd
      decide
    | cons first others => exact h.head d hd
  have hpair : pair? (steps + 3) deepest (key.toList ++ (" = ".toList ++ (text ++ '\n' :: rest))) =
      some (([], key, value), '\n' :: rest) := by
    rw [pair?, hread]
    simp only [Option.bind_eq_bind, Option.bind_some, hvalue, h.reads]
  rw [List.append_assoc, List.append_assoc]
  rw [hname] at hpair ⊢
  unfold line?
  split
  · next heq => exact absurd (List.cons.inj heq).1 (ne_of_class hc (by decide))
  · next heq => exact absurd (List.cons.inj heq).1 (ne_of_class hc (by decide))
  · rw [hpair]
    rfl

/-- The key of a header, up to its closing bracket. -/
theorem key?_header (hkey : IsBareKey key) (hpath : ∀ name ∈ path, IsBareKey name) (hlength : path.length ≤ 2)
    (steps : Nat) (rest : List Char) :
    key? (steps + 3) (dotted path key ++ ']' :: rest) = some (path, key, ']' :: rest) := by
  have hskip : skipSpace (']' :: rest) = ']' :: rest := rfl
  have hended : KeyEnded (']' :: rest) := by
    intro d hd
    obtain rfl : ']' = d := Option.some.inj hd
    decide
  have hread := key?_dotted hkey hpath hended (hskip.symm ▸ hended) (by omega : path.length < steps + 3)
    (Nat.lt_of_le_of_lt hlength (by decide))
  rwa [hskip] at hread

/-- A dotted key begins with the first character of a key. -/
theorem exists_dotted (hkey : IsBareKey key) (hpath : ∀ name ∈ path, IsBareKey name) :
    ∃ c tail, dotted path key = c :: tail ∧ isKeyChar c = true := by
  cases path with
  | nil => exact hkey.exists_cons
  | cons name names =>
    obtain ⟨c, tail, hname, hc⟩ := (List.forall_mem_cons.1 hpath).1.exists_cons
    exact ⟨c, _, by rw [dotted, List.flatMap_cons, hname]; rfl, hc⟩

/-- The header of a table. -/
theorem reads_header (hkey : IsBareKey key) (hpath : ∀ name ∈ path, IsBareKey name) (hlength : path.length ≤ 2) :
    Reads ('[' :: dotted path key ++ [']']) (.header path key) := by
  obtain ⟨c, tail, hdotted, hc⟩ := exists_dotted hkey hpath
  refine ⟨fun steps rest => ?_, '[', _, rfl, .inl rfl⟩
  have hread := key?_header hkey hpath hlength steps ('\n' :: rest)
  have hsplit : '[' :: dotted path key ++ [']'] ++ '\n' :: rest = '[' :: (dotted path key ++ ']' :: '\n' :: rest) := by
    simp
  rw [hsplit]
  rw [hdotted] at hread ⊢
  unfold line?
  split
  · next heq => exact absurd (List.cons.inj (List.cons.inj heq).2).1 (ne_of_class hc (by decide))
  · next heq =>
    cases heq
    simp only [hread, Option.bind_eq_bind, Option.bind_some]
  · next hnot => exact absurd rfl (hnot _)

/-- The header of one of several tables. -/
theorem reads_element (hkey : IsBareKey key) (hpath : ∀ name ∈ path, IsBareKey name) (hlength : path.length ≤ 2) :
    Reads ('[' :: '[' :: dotted path key ++ [']', ']']) (.element path key) := by
  refine ⟨fun steps rest => ?_, '[', _, rfl, .inl rfl⟩
  have hread := key?_header hkey hpath hlength steps (']' :: '\n' :: rest)
  have hsplit : '[' :: '[' :: dotted path key ++ [']', ']'] ++ '\n' :: rest =
      '[' :: '[' :: (dotted path key ++ ']' :: ']' :: '\n' :: rest) := by
    simp
  rw [hsplit, line?, hread]
  rfl

end Lines

/-! ## Documents -/

/-- A line of a document, with the text of its value if it is an entry, and whether an empty line stands in front. -/
structure Item where
  spaced : Bool
  line : Line
  value : List Char

namespace Item

/-- The text of an item without the end of its line. -/
def text (item : Item) : List Char :=
  match item.line with
  | .entry _ key _ => key.toList ++ " = ".toList ++ item.value
  | .header path key => '[' :: dotted path key ++ [']']
  | .element path key => '[' :: '[' :: dotted path key ++ [']', ']']

/-- The text of an item up to the end of its line. -/
def chars (item : Item) : List Char := (if item.spaced then ['\n'] else []) ++ (item.text ++ ['\n'])

/-- An item is written plainly, with at most so many names in a header. -/
def Readable (depth : Nat) (item : Item) : Prop :=
  match item.line with
  | .entry path key value => path = [] ∧ IsBareKey key ∧ ReadsValue item.value value
  | .header path key => path.length < depth ∧ (∀ name ∈ path, IsBareKey name) ∧ IsBareKey key
  | .element path key => path.length < depth ∧ (∀ name ∈ path, IsBareKey name) ∧ IsBareKey key

/-- An item that is written plainly is read as its line. -/
theorem Readable.reads {item : Item} (h : item.Readable 3) : Reads item.text item.line := by
  obtain ⟨spaced, line, value⟩ := item
  cases line with
  | entry path key v =>
    obtain ⟨rfl, hkey, hvalue⟩ := h
    exact reads_entry hkey hvalue
  | header path key =>
    obtain ⟨hlength, hpath, hkey⟩ := h
    exact reads_header hkey hpath (Nat.le_of_lt_succ hlength)
  | element path key =>
    obtain ⟨hlength, hpath, hkey⟩ := h
    exact reads_element hkey hpath (Nat.le_of_lt_succ hlength)

end Item

section Documents

variable {items : List Item} {text : List Char} {line : Line}

/-- A line begins neither with a blank nor with a comment, nor does it end at once. -/
theorem Reads.head_ne (h : Reads text line) (rest : List Char) :
    ∀ c ∈ (text ++ rest).head?, ∀ d ∈ [' ', '\t', '#', '\n', '\r', '\uFEFF'], c ≠ d := by
  obtain ⟨first, tail, rfl, hfirst⟩ := h.head
  intro c hc d hd
  obtain rfl : first = c := Option.some.inj hc
  rcases hfirst with rfl | hkey
  · have hother : ∀ d ∈ [' ', '\t', '#', '\n', '\r', '\uFEFF'], '[' ≠ d := by simp
    exact hother d hd
  · have hother : ∀ d ∈ [' ', '\t', '#', '\n', '\r', '\uFEFF'], isKeyChar d = false := by simp [isKeyChar]
    exact ne_of_class hkey (hother d hd)

theorem Reads.skipSpace (h : Reads text line) (rest : List Char) : skipSpace (text ++ rest) = text ++ rest :=
  skipSpace_of_head fun c hc => ⟨h.head_ne rest c hc _ (by simp), h.head_ne rest c hc _ (by simp)⟩

theorem Reads.skipComment (h : Reads text line) (rest : List Char) : skipComment (text ++ rest) = text ++ rest := by
  have hhead := h.head_ne rest
  have hskip := h.skipSpace rest
  generalize text ++ rest = chars at *
  rw [Toml.skipComment, hskip]
  split
  · exact absurd rfl (hhead '#' rfl '#' (by simp))
  · rfl

theorem Reads.lineEnd? (h : Reads text line) (rest : List Char) : lineEnd? (text ++ rest) = none := by
  have hhead := h.head_ne rest
  generalize text ++ rest = chars at *
  unfold Toml.lineEnd?
  split
  · exact absurd rfl (hhead '\n' rfl '\n' (by simp))
  · exact absurd rfl (hhead '\r' rfl '\r' (by simp))
  · rfl

theorem Reads.skipLines (h : Reads text line) (rest : List Char) (steps : Nat) :
    skipLines steps (text ++ rest) = text ++ rest := by
  cases steps with
  | zero => rfl
  | succ n => rw [Toml.skipLines, h.skipComment, h.lineEnd?]

/-- What is in front of a line does not count. -/
theorem skipLines_item {item : Item} (h : Reads item.text item.line) (rest : List Char) (steps : Nat) :
    skipLines (steps + 1) (item.chars ++ rest) = item.text ++ '\n' :: rest := by
  have hchars : item.chars ++ rest = (if item.spaced then ['\n'] else []) ++ (item.text ++ '\n' :: rest) := by
    simp [Item.chars]
  rw [hchars]
  cases item.spaced with
  | true => exact h.skipLines ('\n' :: rest) steps
  | false => exact h.skipLines ('\n' :: rest) (steps + 1)

/-- **The items of a document are read as their lines.** -/
theorem lines?_items (h : ∀ item ∈ items, Reads item.text item.line) (extra : Nat) :
    lines? (items.length + extra + 3) (items.flatMap Item.chars) = some (items.map Item.line) := by
  -- Each item takes one step, and its line needs at most three more to be read.
  induction items with
  | nil => rfl
  | cons item rest ih =>
    obtain ⟨hitem, hrest⟩ := List.forall_mem_cons.1 h
    have hsteps : (item :: rest).length + extra + 3 = rest.length + extra + 3 + 1 := by
      rw [List.length_cons]
      omega
    have hend : Toml.skipComment ('\n' :: rest.flatMap Item.chars) = '\n' :: rest.flatMap Item.chars := rfl
    rw [hsteps, List.flatMap_cons, lines?, skipLines_item hitem]
    split
    · next heq =>
      obtain ⟨c, tail, htext, -⟩ := hitem.head
      rw [htext] at heq
      cases heq
    · simp only [hitem.skipSpace, hitem.reads (rest.length + extra + 1), hend, Option.bind_eq_bind, Option.bind_some]
      show Option.bind (lines? _ (rest.flatMap Item.chars)) _ = _
      rw [ih hrest]
      rfl

theorem length_le_chars (items : List Item) : items.length ≤ (items.flatMap Item.chars).length := by
  induction items with
  | nil => exact Nat.le_refl 0
  | cons item rest ih =>
    rw [List.flatMap_cons, List.length_append, List.length_cons]
    have hitem : 1 ≤ item.chars.length := by
      rw [Item.chars, List.length_append, List.length_append, List.length_singleton]
      omega
    omega

/-- A document is what its lines make up. -/
theorem read?_items (h : ∀ item ∈ items, Reads item.text item.line) :
    read? (String.ofList (items.flatMap Item.chars)) = ofLines? (items.map Item.line) := by
  have hlength := length_le_chars items
  have hmark : ∀ rest, items.flatMap Item.chars ≠ '\uFEFF' :: rest := by
    intro rest heq
    cases items with
    | nil => cases heq
    | cons item others =>
      have hitem := (List.forall_mem_cons.1 h).1
      rw [List.flatMap_cons, Item.chars] at heq
      cases hspaced : item.spaced with
      | true =>
        rw [hspaced] at heq
        exact absurd (List.cons.inj heq).1 (by simp)
      | false =>
        rw [hspaced, if_neg Bool.false_ne_true, List.nil_append, List.append_assoc] at heq
        refine hitem.head_ne (['\n'] ++ others.flatMap Item.chars) '\uFEFF' ?_ '\uFEFF' (by simp) rfl
        rw [heq]
        rfl
  rw [read?, String.toList_ofList]
  split
  · next heq => exact absurd heq (hmark _)
  · obtain ⟨extra, hextra⟩ : ∃ extra, 4 * (items.flatMap Item.chars).length + 4 = items.length + extra + 3 :=
      ⟨4 * (items.flatMap Item.chars).length + 1 - items.length, by omega⟩
    simp only [hextra, lines?_items h, Option.bind_some]

end Documents

end SolidScript.Toml
