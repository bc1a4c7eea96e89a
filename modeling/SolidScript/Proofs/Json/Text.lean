import SolidScript.Json.Write
import SolidScript.Proofs.Json.Number

/-!
# Values and their texts

* `string?_escape`: a string is read back from its escaped characters.
* `value?_compact`, `parse?_compact`: the text of a value is read as the value, down to the depth that the reader
  allows. What a text can hold is `Exact`: its numbers are, and nothing in it is unreadable.
* `cut_of_depth_le`: a value that does not nest deeper is read back whole.
-/

namespace SolidScript.Json

/-! ## Strings -/

theorem hexValue?_hexDigit : ∀ n < 16, hexValue? (hexDigit n) = some n := by
  decide

/-- A control character is read from its code point. -/
theorem hexQuad?_hexDigit {n : Nat} (h : n < 0x20) :
    hexQuad? '0' '0' (hexDigit (n / 16)) (hexDigit (n % 16)) = some n := by
  have hzero : hexValue? '0' = some 0 := rfl
  have hsum : n / 16 * 16 + n % 16 = n := Nat.div_add_mod' n 16
  simp [hexQuad?, hzero, hexValue?_hexDigit (n / 16) (by omega), hexValue?_hexDigit (n % 16) (by omega), hsum]

/-- A character that is escaped by a letter is read as itself. -/
theorem stringUnits?_named {c char : Char} (h : escaped? c = some char) (rest : List Char) :
    stringUnits? ('\\' :: c :: rest) =
      (stringUnits? rest).map fun (units, rest) => (char.toNat :: units, rest) := by
  have hc : c ≠ 'u' := by
    rintro rfl
    cases h
  rw [stringUnits?.eq_def]
  split
  · next heq => cases heq
  · next heq => simp at heq
  · next heq => exact absurd (List.cons.inj (List.cons.inj heq).2).1 hc
  · next heq =>
    obtain ⟨rfl, rfl⟩ := List.cons.inj (List.cons.inj heq).2
    rw [h]
    cases stringUnits? rest <;> rfl
  · next hnamed heq => 
    obtain ⟨rfl, rfl⟩ := List.cons.inj heq
    exact absurd rfl (hnamed _ _ rfl)

/-- A control character without a name. -/
theorem stringUnits?_control {n : Nat} (h : n < 0x20) (rest : List Char) :
    stringUnits? ('\\' :: 'u' :: '0' :: '0' :: hexDigit (n / 16) :: hexDigit (n % 16) :: rest) =
      (stringUnits? rest).map fun (units, rest) => (n :: units, rest) := by
  rw [stringUnits?, hexQuad?_hexDigit h]
  cases stringUnits? rest <;> rfl

/-- A character that stands for itself. -/
theorem stringUnits?_plain {c : Char} (hquote : c ≠ '\"') (hslash : c ≠ '\\') (hlow : ¬ c.toNat < 0x20)
    (rest : List Char) :
    stringUnits? (c :: rest) = (stringUnits? rest).map fun (units, rest) => (c.toNat :: units, rest) := by
  rw [stringUnits?.eq_def]
  split <;> simp_all

/-- A character is read back from its escaped form. -/
theorem stringUnits?_escapeChar (c : Char) (rest : List Char) :
    stringUnits? (escapeChar c ++ rest) = (stringUnits? rest).map fun (units, rest) => (c.toNat :: units, rest) := by
  unfold escapeChar
  split_ifs with hquote hslash hline hreturn htab hback hfeed hlow
  any_goals
    subst c
    exact stringUnits?_named rfl rest
  · exact stringUnits?_control hlow rest
  · exact stringUnits?_plain hquote hslash hlow rest

/-- No character is half of a surrogate pair. -/
theorem charsOfUnits?_toNat : ∀ cs : List Char, charsOfUnits? (cs.map Char.toNat) = some cs
  | [] => rfl
  | c :: rest => by
    have hvalid : c.toNat < 0xD800 ∨ 0xE000 ≤ c.toNat := by
      rcases c.valid with h | ⟨h, -⟩
      · exact .inl h
      · exact .inr h
    rw [List.map_cons, charsOfUnits?.eq_def]
    simp only
    rw [if_neg (by omega), if_neg (by omega), charsOfUnits?_toNat rest, Option.map_some, Char.ofNat_toNat]

/-- The characters of a string are read back from their escaped forms. -/
theorem stringUnits?_escape (cs rest : List Char) :
    stringUnits? (cs.flatMap escapeChar ++ '\"' :: rest) = some (cs.map Char.toNat, rest) := by
  induction cs with
  | nil => rfl
  | cons c cs ih =>
    rw [List.flatMap_cons, List.append_assoc, stringUnits?_escapeChar, ih]
    rfl

/-- **A string is read back from its text.** -/
theorem string?_escape (s : String) (rest : List Char) :
    string? (s.toList.flatMap escapeChar ++ '\"' :: rest) = some (some s, rest) := by
  rw [string?, stringUnits?_escape, Option.map_some]
  simp only [charsOfUnits?_toNat, Option.map_some, String.ofList_toList]

/-! ## Depth -/

mutual

/-- The number of containers that are nested in a value. -/
def depth : Json → Nat
  | .array items => depthItems items + 1
  | .object fields => depthFields fields + 1
  | _ => 0

/-- The greatest depth of items. -/
def depthItems : List Json → Nat
  | [] => 0
  | item :: rest => max (depth item) (depthItems rest)

/-- The greatest depth of the values of fields. -/
def depthFields : List (String × Json) → Nat
  | [] => 0
  | (_, value) :: rest => max (depth value) (depthFields rest)

end

theorem depthItems_le_iff {items : List Json} {n : Nat} : depthItems items ≤ n ↔ ∀ item ∈ items, item.depth ≤ n := by
  induction items with
  | nil => simp [depthItems]
  | cons item rest ih => simp [depthItems, ih]

theorem depthFields_le_iff {fields : List (String × Json)} {n : Nat} :
    depthFields fields ≤ n ↔ ∀ field ∈ fields, field.2.depth ≤ n := by
  induction fields with
  | nil => simp [depthFields]
  | cons field rest ih => simp [depthFields, ih]

mutual

/-- A value whose containers are readable only where they nest at most `room` deep. -/
def cut (room : Nat) : Json → Json
  | .array items => within room (.array (cutItems (room - 1) items))
  | .object fields => within room (.object (cutFields (room - 1) fields))
  | value => value

/-- Every item, cut. -/
def cutItems (room : Nat) : List Json → List Json
  | [] => []
  | item :: rest => cut room item :: cutItems room rest

/-- The value of every field, cut. -/
def cutFields (room : Nat) : List (String × Json) → List (String × Json)
  | [] => []
  | (key, value) :: rest => (key, cut room value) :: cutFields room rest

end

mutual

/-- What does not nest deeper is left whole. -/
theorem cut_of_depth_le : ∀ {v : Json} {room : Nat}, v.depth ≤ room → cut room v = v
  | .array items, room, h => by
    rw [depth] at h
    rw [cut, within, if_neg (by omega), cutItems_of_depth_le (by omega)]
  | .object fields, room, h => by
    rw [depth] at h
    rw [cut, within, if_neg (by omega), cutFields_of_depth_le (by omega)]
  | .null, _, _ | .bool _, _, _ | .number _, _, _ | .string _, _, _ | .unreadable, _, _ => rfl

theorem cutItems_of_depth_le : ∀ {items : List Json} {room : Nat}, depthItems items ≤ room → cutItems room items = items
  | [], _, _ => rfl
  | item :: rest, room, h => by
    obtain ⟨hitem, hrest⟩ := max_le_iff.1 h
    rw [cutItems, cut_of_depth_le hitem, cutItems_of_depth_le hrest]

theorem cutFields_of_depth_le : ∀ {fields : List (String × Json)} {room : Nat}, depthFields fields ≤ room →
    cutFields room fields = fields
  | [], _, _ => rfl
  | (key, value) :: rest, room, h => by
    obtain ⟨hvalue, hrest⟩ := max_le_iff.1 h
    rw [cutFields, cut_of_depth_le hvalue, cutFields_of_depth_le hrest]

end

/-! ## Values -/

/-- What a text can hold. -/
inductive Exact : Json → Prop where
  | null : Exact .null
  | bool (b : Bool) : Exact (.bool b)
  | number {n : Number} : n.Exact → Exact (.number n)
  | string (s : String) : Exact (.string s)
  | array {items : List Json} : (∀ item ∈ items, Exact item) → Exact (.array items)
  | object {fields : List (String × Json)} : (∀ field ∈ fields, Exact field.2) → Exact (.object fields)

theorem exact_number {n : Number} : Exact (.number n) ↔ n.Exact :=
  ⟨fun h => by cases h; assumption, .number⟩

theorem exact_array {items : List Json} : Exact (.array items) ↔ ∀ item ∈ items, Exact item :=
  ⟨fun h => by cases h; assumption, .array⟩

theorem exact_object {fields : List (String × Json)} : Exact (.object fields) ↔ ∀ field ∈ fields, Exact field.2 :=
  ⟨fun h => by cases h; assumption, .object⟩

theorem toList_writeString (s : String) : (writeString s).toList = '\"' :: (s.toList.flatMap escapeChar ++ ['\"']) := by
  rw [writeString, String.toList_ofList, List.cons_append]

@[simp] theorem toList_compactItems (item : Json) (rest : List Json) :
    (compactItems (item :: rest)).toList = ',' :: (item.compact.toList ++ (compactItems rest).toList) := by
  rw [compactItems]
  simp

/-- The text of a field. -/
def fieldText (key : String) (value : Json) : List Char := (writeString key).toList ++ ':' :: value.compact.toList

@[simp] theorem toList_compactFields (key : String) (value : Json) (rest : List (String × Json)) :
    (compactFields ((key, value) :: rest)).toList = ',' :: (fieldText key value ++ (compactFields rest).toList) := by
  rw [compactFields]
  simp [fieldText]

theorem toList_array (item : Json) (rest : List Json) :
    (compact (.array (item :: rest))).toList = '[' :: (item.compact.toList ++ (compactItems rest).toList ++ [']']) := by
  rw [compact]
  simp

theorem toList_object (key : String) (value : Json) (rest : List (String × Json)) :
    (compact (.object ((key, value) :: rest))).toList =
      '\x7b' :: (fieldText key value ++ (compactFields rest).toList ++ ['\x7d']) := by
  rw [compact]
  simp [fieldText]

theorem skipBlank_cons {c : Char} (h : c ≠ ' ' ∧ c ≠ '\n' ∧ c ≠ '\t' ∧ c ≠ '\r') (rest : List Char) :
    skipBlank (c :: rest) = c :: rest := by
  simp [skipBlank, h]

/-- The first character of a number is no other one. -/
theorem ne_of_number {c other : Char} (hc : c = '-' ∨ c.isDigit = true) (h : other ≠ '-' ∧ other.isDigit = false) :
    c ≠ other := by
  rintro rfl
  rcases hc with hc | hc
  · exact h.1 hc
  · rw [h.2] at hc
    exact Bool.false_ne_true hc

theorem skipBlank_number {c : Char} (hc : c = '-' ∨ c.isDigit = true) (rest : List Char) :
    skipBlank (c :: rest) = c :: rest :=
  skipBlank_cons ⟨ne_of_number hc (by decide), ne_of_number hc (by decide), ne_of_number hc (by decide),
    ne_of_number hc (by decide)⟩ rest

/-- What begins like a number is read as one. -/
theorem value?_number {c : Char} (hc : c = '-' ∨ c.isDigit = true) (steps room : Nat) (rest : List Char) :
    value? (steps + 1) room (c :: rest) = number? (c :: rest) := by
  rw [value?, skipBlank_number hc]
  split
  all_goals
    first
      | rfl
      | next heq => exact absurd (List.cons.inj heq).1 (ne_of_number hc (by decide))

/-- A value begins with a character that is neither blank nor the end of a list. -/
theorem head_compact {v : Json} (hv : Exact v) : ∃ c rest, v.compact.toList = c :: rest ∧ c ≠ ']' ∧
    ∀ rest, skipBlank (c :: rest) = c :: rest := by
  cases hv with
  | null => exact ⟨_, _, rfl, by decide, fun _ => rfl⟩
  | bool b => cases b <;> exact ⟨_, _, rfl, by decide, fun _ => rfl⟩
  | number hn =>
    obtain ⟨c, rest, htext, hc⟩ := Number.head_write hn
    exact ⟨c, rest, htext, ne_of_number hc (by decide), skipBlank_number hc⟩
  | string s => exact ⟨_, _, toList_writeString s, by decide, fun _ => rfl⟩
  | @array items _ =>
    cases items with
    | nil => exact ⟨_, _, rfl, by decide, fun _ => rfl⟩
    | cons item items => exact ⟨_, _, toList_array item items, by decide, fun _ => rfl⟩
  | @object fields _ =>
    cases fields with
    | nil => exact ⟨_, _, rfl, by decide, fun _ => rfl⟩
    | cons field fields => exact ⟨_, _, toList_object field.1 field.2 fields, by decide, fun _ => rfl⟩

/-- A value whose text is read as the value, cut to the room there is, if the steps suffice. -/
def Reads (v : Json) : Prop := ∀ (steps room : Nat) (rest : List Char), 2 * v.compact.toList.length + 1 ≤ steps →
  Ended rest → value? steps room (v.compact.toList ++ rest) = some (v.cut room, rest)

theorem Ended.cons {c : Char} (h : c.isDigit = false ∧ c ≠ '.' ∧ c ≠ 'e' ∧ c ≠ 'E') (rest : List Char) :
    Ended (c :: rest) := by
  rintro _ ⟨⟩
  exact h

/-- The items of a list are read one after another. -/
theorem items?_compact {item : Json} {items : List Json} (h : ∀ v ∈ item :: items, Reads v) {steps : Nat} (room : Nat)
    (hsteps : 2 * (item.compact.toList ++ (compactItems items).toList).length + 2 ≤ steps) (rest : List Char) :
    items? steps room (item.compact.toList ++ (compactItems items).toList ++ ']' :: rest) =
      some (cutItems room (item :: items), rest) := by
  induction items generalizing item steps with
  | nil =>
    obtain ⟨steps, rfl⟩ : ∃ n, steps = n + 1 := ⟨steps - 1, by omega⟩
    rw [List.length_append] at hsteps
    have hitem := h item List.mem_cons_self steps room (']' :: rest) (by omega) (.cons (by decide) _)
    rw [compactItems, String.toList_empty, List.append_nil, items?, hitem]
    rfl
  | cons next items ih =>
    obtain ⟨steps, rfl⟩ : ∃ n, steps = n + 1 := ⟨steps - 1, by omega⟩
    rw [toList_compactItems, List.length_append, List.length_cons] at hsteps
    have hitem := h item List.mem_cons_self steps room
      (',' :: (next.compact.toList ++ (compactItems items).toList ++ ']' :: rest)) (by omega) (.cons (by decide) _)
    have hfew : 2 * (next.compact.toList ++ (compactItems items).toList).length + 2 ≤ steps := by omega
    have hrest := ih (fun v hv => h v (List.mem_cons_of_mem _ hv)) hfew
    rw [toList_compactItems, List.append_assoc, List.cons_append, items?, hitem]
    show (items? steps room _).map _ = _
    rw [hrest]
    rfl

theorem fieldText_append (key : String) (value : Json) (rest : List Char) :
    fieldText key value ++ rest =
      '\"' :: (key.toList.flatMap escapeChar ++ '\"' :: ':' :: (value.compact.toList ++ rest)) := by
  simp [fieldText, toList_writeString]

/-- The fields of an object are read one after another. -/
theorem fields?_compact {key : String} {value : Json} {fields : List (String × Json)}
    (h : ∀ field ∈ (key, value) :: fields, Reads field.2) {steps : Nat} (room : Nat)
    (hsteps : 2 * (fieldText key value ++ (compactFields fields).toList).length + 2 ≤ steps) (rest : List Char) :
    fields? steps room (fieldText key value ++ (compactFields fields).toList ++ '\x7d' :: rest) =
      some (some (cutFields room ((key, value) :: fields)), rest) := by
  have hlength (key : String) (value : Json) : value.compact.toList.length < (fieldText key value).length := by
    simp [fieldText]
    omega
  induction fields generalizing key value steps with
  | nil =>
    obtain ⟨steps, rfl⟩ : ∃ n, steps = n + 1 := ⟨steps - 1, by omega⟩
    have hlt := hlength key value
    rw [List.length_append] at hsteps
    have hreads : Reads value := h (key, value) List.mem_cons_self
    have hvalue := hreads steps room ('\x7d' :: rest) (by omega) (.cons (by decide) _)
    have hblank (c : List Char) : skipBlank ('\"' :: c) = '\"' :: c := rfl
    rw [compactFields, String.toList_empty, List.append_nil, fieldText_append, fields?, hblank]
    simp only [string?_escape, Option.bind_eq_bind, Option.bind_some]
    show ((value? steps room _).bind _) = _
    rw [hvalue]
    rfl
  | cons next fields ih =>
    obtain ⟨steps, rfl⟩ : ∃ n, steps = n + 1 := ⟨steps - 1, by omega⟩
    have hlt := hlength key value
    rw [toList_compactFields, List.length_append, List.length_cons] at hsteps
    have hreads : Reads value := h (key, value) List.mem_cons_self
    have hvalue := hreads steps room
      (',' :: (fieldText next.1 next.2 ++ (compactFields fields).toList ++ '\x7d' :: rest)) (by omega)
      (.cons (by decide) _)
    have hfew : 2 * (fieldText next.1 next.2 ++ (compactFields fields).toList).length + 2 ≤ steps := by omega
    have hrest := ih (fun field hfield => h field (List.mem_cons_of_mem _ hfield)) hfew
    have hblank (c : List Char) : skipBlank ('\"' :: c) = '\"' :: c := rfl
    rw [toList_compactFields, List.append_assoc, List.cons_append, fieldText_append, fields?, hblank]
    simp only [string?_escape, Option.bind_eq_bind, Option.bind_some]
    show ((value? steps room _).bind _) = _
    rw [hvalue]
    show (fields? steps room _).map _ = _
    rw [hrest]
    rfl

/-- A list that is not empty. -/
theorem value?_array {c : Char} {rest : List Char} (hc : c ≠ ']') (hblank : skipBlank (c :: rest) = c :: rest)
    (steps room : Nat) : value? (steps + 1) room ('[' :: c :: rest) =
      (items? steps (room - 1) (c :: rest)).map fun (items, rest) => (within room (.array items), rest) := by
  have hopen : skipBlank ('[' :: c :: rest) = '[' :: c :: rest := rfl
  rw [value?, hopen]
  simp only [hblank]
  split
  · next heq => exact absurd (List.cons.inj heq).1 hc
  · rfl

/-- An object that is not empty. -/
theorem value?_object (steps room : Nat) (rest : List Char) : value? (steps + 1) room ('\x7b' :: '\"' :: rest) =
    (fields? steps (room - 1) ('\"' :: rest)).map fun (fields, rest) =>
      (within room ((fields.map Json.object).getD .unreadable), rest) := by
  have hopen : skipBlank ('\x7b' :: '\"' :: rest) = '\x7b' :: '\"' :: rest := rfl
  have hquote : skipBlank ('\"' :: rest) = '\"' :: rest := rfl
  rw [value?, hopen]
  simp only [hquote]
  rfl

/-- **The text of a value is read as the value**, cut to the depth that there is room for. -/
theorem value?_compact {v : Json} (hv : Exact v) : Reads v := by
  induction hv with
  | null =>
    rintro (_ | steps) room rest hsteps -
    · omega
    · rfl
  | bool b =>
    rintro (_ | steps) room rest hsteps -
    · omega
    · cases b <;> rfl
  | @number n hn =>
    rintro (_ | steps) room rest hsteps hrest
    · omega
    · obtain ⟨c, tail, htext, hc⟩ := Number.head_write hn
      have hnumber := number?_write hn hrest
      rw [htext, List.cons_append] at hnumber
      show value? (steps + 1) room (n.write.toList ++ rest) = some (.number n, rest)
      rw [htext, List.cons_append, value?_number hc, hnumber]
  | string s =>
    rintro (_ | steps) room rest hsteps -
    · omega
    · rw [compact, toList_writeString, List.cons_append, List.append_assoc]
      show (string? _).map _ = _
      rw [List.singleton_append, string?_escape]
      rfl
  | @array items hitems ih =>
    rintro (_ | steps) room rest hsteps -
    · omega
    cases items with
    | nil => rfl
    | cons item items =>
      rw [toList_array, List.length_cons, List.length_append, List.length_singleton] at hsteps
      have hfew : 2 * (item.compact.toList ++ (compactItems items).toList).length + 2 ≤ steps := by omega
      have hread := items?_compact ih (room - 1) hfew rest
      obtain ⟨c, tail, htext, hend, hblank⟩ := head_compact (hitems item List.mem_cons_self)
      rw [toList_array, List.cons_append, List.append_assoc, List.singleton_append]
      rw [htext, List.append_assoc, List.cons_append] at hread ⊢
      rw [value?_array hend (hblank _), hread, cut]
      rfl
  | @object fields _ ih =>
    rintro (_ | steps) room rest hsteps -
    · omega
    cases fields with
    | nil => rfl
    | cons field fields =>
      rw [toList_object, List.length_cons, List.length_append, List.length_singleton] at hsteps
      have hfew : 2 * (fieldText field.1 field.2 ++ (compactFields fields).toList).length + 2 ≤ steps := by omega
      have hread := fields?_compact ih (room - 1) hfew rest
      rw [toList_object, List.cons_append, List.append_assoc, List.singleton_append]
      rw [List.append_assoc, fieldText_append] at hread ⊢
      rw [value?_object, hread, cut]
      rfl

/-- **A text is read as the value that it writes**, down to the depth that there is room for. -/
theorem parse?_compact {v : Json} (hv : Exact v) : parse? v.compact = some (v.cut depthLimit) := by
  have hread := value?_compact hv (2 * v.compact.length + 2) depthLimit []
    (by rw [String.length_toList]; omega) nofun
  rw [List.append_nil] at hread
  rw [parse?, parseWithin?, hread]
  rfl

end SolidScript.Json
