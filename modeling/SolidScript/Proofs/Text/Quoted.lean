import SolidScript.Text.Basic

/-!
# Literals are read back

A reader of string literals expects a quote, decodes the names behind backslashes and copies all else up to the first
quote that is not behind a backslash (`read?`). Each character is read from its code (`inside?_encodeChar`), hence a
text from its literal, whatever follows (`inside?_encode`, `read?_quote`). Line ends and tabs are in no literal
(`notMem_encode`).
-/

namespace SolidScript.Text.Quoted

/-- The character that is meant by one behind a backslash. -/
def named? : Char → Option Char
  | '\\' => some '\\'
  | '"' => some '"'
  | 'n' => some '\n'
  | 't' => some '\t'
  | _ => none

/-- Reads the inside of a literal and the quote that ends it. A backslash in front of no name stands for itself. -/
def inside? : List Char → Option (List Char × List Char)
  | [] => none
  | '"' :: rest => some ([], rest)
  | '\\' :: c :: rest =>
    match named? c with
    | some meant => (inside? rest).map (Prod.map (meant :: ·) id)
    | none => (inside? (c :: rest)).map (Prod.map ('\\' :: ·) id)
  | c :: rest => (inside? rest).map (Prod.map (c :: ·) id)

/-- Reads a literal at the front of a text: what it means, and what follows it. -/
def read? (text : String) : Option (String × String) :=
  match text.toList with
  | '"' :: rest => (inside? rest).map (Prod.map String.ofList String.ofList)
  | _ => none

theorem inside?_named {c meant : Char} (h : named? c = some meant) (rest : List Char) :
    inside? ('\\' :: c :: rest) = (inside? rest).map (Prod.map (meant :: ·) id) := by
  rw [inside?, h]

/-- A character that stands for itself. -/
theorem inside?_plain {c : Char} (hquote : c ≠ '"') (hslash : c ≠ '\\') (rest : List Char) :
    inside? (c :: rest) = (inside? rest).map (Prod.map (c :: ·) id) := by
  rw [inside?.eq_def]
  split
  · next heq => cases heq
  · next heq => exact absurd (List.cons.inj heq).1 hquote
  · next heq => exact absurd (List.cons.inj heq).1 hslash
  · next heq =>
    obtain ⟨rfl, rfl⟩ := List.cons.inj heq
    rfl

/-- A character is read back from its code. -/
theorem inside?_encodeChar (c : Char) (rest : List Char) :
    inside? (encodeChar c ++ rest) = (inside? rest).map (Prod.map (c :: ·) id) := by
  unfold encodeChar
  split
  · exact inside?_named rfl rest
  · exact inside?_named rfl rest
  · exact inside?_named rfl rest
  · exact inside?_named rfl rest
  · next hslash hquote _ _ => exact inside?_plain hquote hslash rest

/-- The inside of a literal ends at the quote behind it, whatever quotes and backslashes it holds. -/
theorem inside?_encode (text rest : List Char) : inside? (encode text ++ '"' :: rest) = some (text, rest) := by
  induction text with
  | nil => rfl
  | cons c text ih =>
    have hcons : encode (c :: text) = encodeChar c ++ encode text := List.flatMap_cons
    rw [hcons, List.append_assoc, inside?_encodeChar, ih]
    rfl

/-- Line ends and tabs are written by their names. -/
theorem notMem_encodeChar {c : Char} (h : c = '\n' ∨ c = '\t') (d : Char) : c ∉ encodeChar d := by
  unfold encodeChar
  split
  · rcases h with rfl | rfl <;> decide
  · rcases h with rfl | rfl <;> decide
  · rcases h with rfl | rfl <;> decide
  · rcases h with rfl | rfl <;> decide
  · next hline htab =>
    intro hmem
    obtain rfl := List.mem_singleton.1 hmem
    exact h.elim hline htab

theorem notMem_encode {c : Char} (h : c = '\n' ∨ c = '\t') (text : List Char) : c ∉ encode text := by
  intro hmem
  obtain ⟨d, -, hd⟩ := List.mem_flatMap.1 hmem
  exact notMem_encodeChar h d hd

theorem notMem_quote {c : Char} (h : c = '\n' ∨ c = '\t') (s : String) : c ∉ (quote s).toList := by
  have hquote : c ≠ '"' := by rcases h with rfl | rfl <;> decide
  rw [quote, String.toList_ofList]
  simp [hquote, notMem_encode h]

/-- **A literal is read back and ends where it should.** In front of any text, reading a literal gives the text that
was quoted and leaves what follows. No literal has a line end or a tab in it. -/
theorem read?_quote (s rest : String) :
    read? (quote s ++ rest) = some (s, rest) ∧ '\n' ∉ (quote s).toList ∧ '\t' ∉ (quote s).toList := by
  refine ⟨?_, notMem_quote (.inl rfl) s, notMem_quote (.inr rfl) s⟩
  have hchars : (quote s ++ rest).toList = '"' :: (encode s.toList ++ '"' :: rest.toList) := by
    rw [String.toList_append, quote, String.toList_ofList]
    simp
  rw [read?, hchars]
  simp only [inside?_encode, Option.map_some, Prod.map_apply, String.ofList_toList]

end SolidScript.Text.Quoted
