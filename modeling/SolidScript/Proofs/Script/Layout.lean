import SolidScript.Proofs.Script.Quiet
import SolidScript.Proofs.Shape.Parts

/-!
# The two layouts

Both layouts write the same lines. `Statement.outline` lists them, each with the number of blocks around it.

* `toList_indentedAt`: the indented text is the lines of the outline, each behind its indentation and in front of a
  line end.
* `flatMap_outline`: the compact text is the same lines, with a space between any two.
* `walk?_outline`: whoever reads the lines of an indented text and counts the blocks that are open finds every line at
  the indentation of the count.
* `layouts_agree`: so the compact text can be read off the indented one, whatever texts and numbers the node holds.
-/

namespace SolidScript.Script

/-! ## Reading lines -/

/-- The lines of a text that ends in a line end. -/
def lines (text : List Char) : List (List Char) := (text.splitOn '\n').dropLast

/-- The line without the spaces in front. -/
def unindented (line : List Char) : List Char := line.dropWhile (· == ' ')

/-- The number of spaces in front of a line. -/
def indentation (line : List Char) : Nat := (line.takeWhile (· == ' ')).length

/-- The number of blocks that are open behind a line if `depth` are open in front of it. A line that ends in an opening
brace opens a block; the line that closes one stands outside of it. There is none unless the line is indented by
exactly four spaces for each open block. -/
def behind? (depth : Nat) (line : List Char) : Option Nat :=
  if unindented line = ['\x7d', ';'] then
    match depth with
    | 0 => none
    | outer + 1 => if indentation line = 4 * outer then some outer else none
  else if indentation line = 4 * depth then some (if line.getLast? = some '\x7b' then depth + 1 else depth)
  else none

/-- The number of blocks that are open behind lines, each indented by four spaces for each open block. -/
def walk? : Nat → List (List Char) → Option Nat
  | depth, [] => some depth
  | depth, line :: rest => (behind? depth line).bind fun depth => walk? depth rest

/-- A line behind the indentation of a depth. -/
def lineAt (depth : Nat) (text : List Char) : List Char := List.replicate (4 * depth) ' ' ++ text

/-- A line that has something else than a space in front. -/
def Flush (text : List Char) : Prop := ∃ c rest, text = c :: rest ∧ c ≠ ' '

theorem isSpace_of_mem_replicate {n : Nat} : ∀ a ∈ List.replicate n ' ', (a == ' ') = true := by
  intro a ha
  rw [List.eq_of_mem_replicate ha]
  rfl

section Line

variable {text : List Char} (flush : Flush text) (depth : Nat)
include flush

theorem unindented_lineAt : unindented (lineAt depth text) = text := by
  obtain ⟨c, rest, rfl, hc⟩ := flush
  rw [unindented, lineAt, List.dropWhile_append_of_pos isSpace_of_mem_replicate,
    List.dropWhile_cons_of_neg (by simpa using hc)]

theorem indentation_lineAt : indentation (lineAt depth text) = 4 * depth := by
  obtain ⟨c, rest, rfl, hc⟩ := flush
  rw [indentation, lineAt, List.takeWhile_append_of_pos isSpace_of_mem_replicate,
    List.takeWhile_cons_of_neg (by simpa using hc), List.append_nil, List.length_replicate]

theorem behind?_lineAt (hclose : text ≠ ['\x7d', ';']) :
    behind? depth (lineAt depth text) = some (if text.getLast? = some '\x7b' then depth + 1 else depth) := by
  have hlast : (lineAt depth text).getLast? = text.getLast? := by
    obtain ⟨c, rest, rfl, -⟩ := flush
    rw [lineAt, List.getLast?_append, List.getLast?_cons, Option.some_or]
  unfold behind?
  rw [unindented_lineAt flush, if_neg hclose, indentation_lineAt flush, if_pos rfl, hlast]

end Line

theorem behind?_close (depth : Nat) : behind? (depth + 1) (lineAt depth ['\x7d', ';']) = some depth := by
  have flush : Flush ['\x7d', ';'] := ⟨_, _, rfl, by decide⟩
  simp only [behind?, unindented_lineAt flush, indentation_lineAt flush, if_true]

/-! ## Tidy texts -/

/-- Whether a text begins with a letter. -/
def Lettered (text : String) : Prop := text.toList.head?.any Char.isAlpha = true

instance (text : String) : Decidable (Lettered text) := inferInstanceAs (Decidable (_ = true))

theorem Lettered.append {first : String} (h : Lettered first) (second : String) : Lettered (first ++ second) := by
  unfold Lettered at h ⊢
  rw [String.toList_append]
  cases hfirst : first.toList with
  | nil => rw [hfirst] at h; cases h
  | cons c rest => rwa [hfirst] at h

/-- A text on a single line that begins with a letter. -/
structure Tidy (text : String) : Prop where
  newline_notMem : '\n' ∉ text.toList
  lettered : Lettered text

namespace Tidy

variable {text : String} (tidy : Tidy text) (tail : List Char)
include tidy

theorem eq_cons : ∃ c rest, text.toList ++ tail = c :: rest ∧ c.isAlpha = true := by
  cases htext : text.toList with
  | nil => exact absurd tidy.lettered (by rw [Lettered, htext]; decide)
  | cons c rest => exact ⟨c, rest ++ tail, rfl, by simpa [Lettered, htext] using tidy.lettered⟩

theorem flush : Flush (text.toList ++ tail) := by
  obtain ⟨c, rest, h, hc⟩ := tidy.eq_cons tail
  exact ⟨c, rest, h, fun hspace => absurd hc (by rw [hspace]; decide)⟩

/-- A line that begins with a letter closes no block. -/
theorem ne_close : text.toList ++ tail ≠ ['\x7d', ';'] := by
  obtain ⟨c, rest, h, hc⟩ := tidy.eq_cons tail
  intro hclose
  rw [h] at hclose
  rw [(List.cons.inj hclose).1] at hc
  exact absurd hc (by decide)

end Tidy

/-! ## The lines of a statement -/

namespace Statement

mutual

/-- The lines of a statement inside `depth` blocks, each with the number of blocks around it. -/
def outline (depth : Nat) : Statement → List (Nat × List Char)
  | .call text => [(depth, text.toList ++ [';'])]
  | .block header [] => [(depth, header.toList ++ [' ', '\x7b', ' ', '\x7d', ';'])]
  | .block header (first :: rest) =>
    (depth, header.toList ++ [' ', '\x7b']) :: (outline (depth + 1) first ++ outlineBody (depth + 1) rest)
      ++ [(depth, ['\x7d', ';'])]

/-- The lines of the statements of a block. -/
def outlineBody (depth : Nat) : List Statement → List (Nat × List Char)
  | [] => []
  | statement :: rest => outline depth statement ++ outlineBody depth rest

end

/-- A line of an outline as it stands in the indented text. -/
def written : Nat × List Char → List Char
  | (depth, text) => lineAt depth text

mutual

/-- **The indented text is the lines of the outline.** -/
theorem toList_indentedAt (depth : Nat) : ∀ s : Statement,
    (indentedAt depth s).toList = (outline depth s).flatMap fun line => written line ++ ['\n']
  | .call text => by
    simp [indentedAt, outline, written, lineAt, indent]
  | .block header [] => by
    simp [indentedAt, outline, written, lineAt, indent]
  | .block header (first :: rest) => by
    simp [indentedAt, outline, written, lineAt, indent, toList_indentedAt (depth + 1) first,
      toList_indentedBody (depth + 1) rest]

theorem toList_indentedBody (depth : Nat) : ∀ body : List Statement,
    (indentedBody depth body).toList = (outlineBody depth body).flatMap fun line => written line ++ ['\n']
  | [] => by simp [indentedBody, outlineBody]
  | s :: rest => by
    simp [indentedBody, outlineBody, toList_indentedAt depth s, toList_indentedBody depth rest]

end

mutual

/-- **The compact text is the lines of the outline**, each in front of a space. -/
theorem flatMap_outline (depth : Nat) : ∀ s : Statement,
    ((outline depth s).flatMap fun line => line.2 ++ [' ']) = (compact s).toList ++ [' ']
  | .call text => by simp [outline, compact]
  | .block header [] => by simp [outline, compact, compactBody]
  | .block header (first :: rest) => by
    simp [outline, compact, compactBody, flatMap_outline (depth + 1) first, flatMap_outlineBody (depth + 1) rest]

theorem flatMap_outlineBody (depth : Nat) : ∀ body : List Statement,
    ((outlineBody depth body).flatMap fun line => line.2 ++ [' ']) = (compactBody body).toList
  | [] => by simp [outlineBody, compactBody]
  | s :: rest => by
    simp [outlineBody, compactBody, flatMap_outline depth s, flatMap_outlineBody depth rest]

end

mutual

/-- Whether all texts of a statement are tidy. -/
def IsTidy : Statement → Prop
  | .call text => Tidy text
  | .block header body => Tidy header ∧ AreTidy body

/-- Whether all texts of statements are tidy. -/
def AreTidy : List Statement → Prop
  | [] => True
  | s :: rest => IsTidy s ∧ AreTidy rest

end

mutual

/-- No line of a tidy statement has a line end or a space in front. -/
theorem outline_single (depth : Nat) :
    ∀ {s : Statement}, s.IsTidy → ∀ line ∈ outline depth s, '\n' ∉ line.2 ∧ Flush line.2
  | .call text, h, line, hline => by
    cases List.mem_singleton.1 hline
    exact ⟨by simpa using h.newline_notMem, Tidy.flush h _⟩
  | .block header [], ⟨h, _⟩, line, hline => by
    cases List.mem_singleton.1 hline
    exact ⟨by simpa using h.newline_notMem, h.flush _⟩
  | .block header (first :: rest), ⟨h, hfirst, hrest⟩, line, hline => by
    simp only [outline, List.mem_append, List.mem_cons, List.not_mem_nil, or_false] at hline
    rcases hline with (rfl | hline | hline) | rfl
    · exact ⟨by simpa using h.newline_notMem, h.flush _⟩
    · exact outline_single (depth + 1) hfirst line hline
    · exact outlineBody_single (depth + 1) hrest line hline
    · exact ⟨by simp, _, _, rfl, by decide⟩

theorem outlineBody_single (depth : Nat) :
    ∀ {body : List Statement}, AreTidy body → ∀ line ∈ outlineBody depth body, '\n' ∉ line.2 ∧ Flush line.2
  | s :: rest, ⟨hs, hrest⟩, line, hline => by
    rcases List.mem_append.1 hline with hline | hline
    · exact outline_single depth hs line hline
    · exact outlineBody_single depth hrest line hline

end

mutual

/-- **Every line of a tidy statement stands at its indentation**, and the statement closes the blocks that it opens. -/
theorem walk?_outline (depth : Nat) (more : List (List Char)) :
    ∀ {s : Statement}, s.IsTidy → walk? depth ((outline depth s).map written ++ more) = walk? depth more
  | .call text, h => by
    have tidy : Tidy text := h
    have hline := behind?_lineAt (tidy.flush [';']) depth (tidy.ne_close _)
    simp [outline, written, walk?, hline]
  | .block header [], ⟨h, _⟩ => by
    have hline := behind?_lineAt (h.flush [' ', '\x7b', ' ', '\x7d', ';']) depth (h.ne_close _)
    simp [outline, written, walk?, hline]
  | .block header (first :: rest), ⟨h, hfirst, hrest⟩ => by
    -- the header opens a block, the statements inside leave the count as it is, and the last line closes the block
    have hopen := behind?_lineAt (h.flush [' ', '\x7b']) depth (h.ne_close _)
    simp [outline, written, walk?, hopen, walk?_outline (depth + 1) _ hfirst, walk?_outlineBody (depth + 1) _ hrest,
      behind?_close]

theorem walk?_outlineBody (depth : Nat) (more : List (List Char)) :
    ∀ {body : List Statement}, AreTidy body →
      walk? depth ((outlineBody depth body).map written ++ more) = walk? depth more
  | [], _ => by simp [outlineBody]
  | s :: rest, ⟨hs, hrest⟩ => by
    simp [outlineBody, walk?_outline depth _ hs, walk?_outlineBody depth _ hrest]

end

end Statement

/-! ## Splitting and joining -/

/-- Lines behind which a line end stands are found again. -/
theorem splitOn_flatMap {ls : List (List Char)} (h : ∀ l ∈ ls, '\n' ∉ l) :
    (ls.flatMap fun l => l ++ ['\n']).splitOn '\n' = ls ++ [[]] := by
  induction ls with
  | nil => rfl
  | cons l rest ih =>
    have hrest := ih fun m hm => h m (List.mem_cons_of_mem _ hm)
    rw [List.flatMap_cons, List.append_assoc, List.singleton_append,
      List.splitOn_append_cons_self_of_not_mem (h l List.mem_cons_self), hrest, List.cons_append]

/-- Texts with a space between any two, and one behind the last. -/
theorem intercalate_append_space : ∀ {texts : List (List Char)}, texts ≠ [] →
    [' '].intercalate texts ++ [' '] = texts.flatMap fun text => text ++ [' ']
  | [text], _ => by simp
  | text :: next :: rest, _ => by
    rw [List.intercalate_cons_cons, List.append_assoc, intercalate_append_space (List.cons_ne_nil next rest),
      List.flatMap_cons (x := text)]

namespace Statement

theorem outline_ne_nil (depth : Nat) : ∀ s : Statement, outline depth s ≠ []
  | .call _ => by simp [outline]
  | .block _ [] => by simp [outline]
  | .block _ (_ :: _) => by simp [outline]

theorem getLast?_indented (s : Statement) : (layout .indented s).toList.getLast? = some '\n' := by
  rw [layout, toList_indentedAt, ← List.dropLast_concat_getLast (outline_ne_nil 0 s)]
  simp

section Tidy

variable {s : Statement} (tidy : s.IsTidy)
include tidy

theorem splitOn_indented : (layout .indented s).toList.splitOn '\n' = (outline 0 s).map written ++ [[]] := by
  have hlines : ∀ l ∈ (outline 0 s).map written, '\n' ∉ l := by
    intro l hl
    obtain ⟨line, hline, rfl⟩ := List.mem_map.1 hl
    have hsingle := (outline_single 0 tidy line hline).1
    simp [written, lineAt, hsingle]
  rw [layout, toList_indentedAt, ← splitOn_flatMap hlines, List.flatMap_map]

theorem lines_indented : lines (layout .indented s).toList = (outline 0 s).map written := by
  rw [lines, splitOn_indented tidy, List.dropLast_concat]

theorem map_unindented_written (depth : Nat) :
    ((outline depth s).map written).map unindented = (outline depth s).map Prod.snd := by
  rw [List.map_map]
  refine List.map_congr_left fun line hline => ?_
  exact unindented_lineAt (outline_single depth tidy line hline).2 line.1

/-- The lines without their indentation, joined by spaces, are the compact text. -/
theorem intercalate_unindented :
    [' '].intercalate ((lines (layout .indented s).toList).map unindented) = (layout .compact s).toList := by
  have hne : (outline 0 s).map Prod.snd ≠ [] := fun h => outline_ne_nil 0 s (List.map_eq_nil_iff.1 h)
  rw [lines_indented tidy, map_unindented_written tidy, layout]
  -- the outline writes a space behind every line, so both sides are compared with one more at the end
  rw [← List.append_left_inj [' '], intercalate_append_space hne, List.flatMap_map, flatMap_outline]

theorem walk?_indented : walk? 0 (lines (layout .indented s).toList) = some 0 := by
  rw [lines_indented tidy]
  simpa [walk?] using walk?_outline 0 [] tidy

end Tidy
end Statement
end SolidScript.Script

namespace SolidScript

open Script

/-! ## Scripts of nodes -/

theorem Primitive.tidy_call (p : Primitive Float) : Tidy p.call := by
  refine ⟨p.quiet_call.newline_notMem, ?_⟩
  cases p
  case text label =>
    show Lettered label.call
    unfold Label.call
    repeat' with_reducible apply Lettered.append
    decide
  all_goals
    unfold Primitive.call
    repeat' with_reducible apply Lettered.append
    decide

theorem Operation.lettered_header : ∀ op : Operation Float, Lettered op.header
  | .translate _ => .append (.append (by decide) _) _
  | .resize _ _ => .append (.append (.append (.append (by decide) _) _) _) _
  | .transform _ => .append (.append (by decide) _) _
  | .rotate (.euler _) => .append (.append (by decide) _) _
  | .rotate (.about _ _) => .append (.append (.append (.append (by decide) _) _) _) _
  | .scale _ => .append (.append (by decide) _) _
  | .mirror _ => .append (.append (by decide) _) _
  | .union => by decide
  | .difference => by decide
  | .intersection => by decide
  | .minkowski => by decide
  | .hull => by decide
  | .loop _ => .append (.append (by decide) _) _

/-- A header is tidy, unless it is the one of a loop over an expression with a line end. -/
theorem Operation.tidy_header {op : Operation Float}
    (h : ∀ expression, op = .loop expression → '\n' ∉ (Text.trim expression).toList) : Tidy op.header := by
  refine ⟨?_, op.lettered_header⟩
  -- only the header of a loop holds text that is not quoted
  by_cases hloop : ∃ expression, op = .loop expression
  · obtain ⟨expression, rfl⟩ := hloop
    have hsingle := h expression rfl
    simp [Operation.header, hsingle]
  · exact (Operation.quiet_header fun expression he => hloop ⟨expression, he⟩).newline_notMem

namespace Node

mutual

/-- **The texts of a script are tidy** if the expressions of its loops have no line end. -/
theorem isTidy_statement : ∀ {node : Node Float},
    (∀ expression, .loop expression ∈ node.operations → '\n' ∉ (Text.trim expression).toList) →
      (statement node).IsTidy
  | .leaf (.primitive p), _ => by
    rw [statement_drawn]
    exact p.tidy_call
  | .leaf (.derived d), _ => by
    rw [statement_derived]
    exact isTidy_statement fun expression hloop => absurd hloop (d.loop_notMem_expand expression)
  | .apply op children, h => by
    rw [statement_apply]
    refine ⟨Operation.tidy_header ?_, areTidy_statements fun expression hloop => ?_⟩
    · rintro expression rfl
      exact h expression List.mem_cons_self
    · exact h expression (List.mem_cons_of_mem _ hloop)
termination_by node => (derivedCount node, sizeOf node)
decreasing_by
  · exact Prod.Lex.left _ _ (by rw [d.derivedCount_expand]; exact Nat.zero_lt_one)
  · exact Prod.Lex.right _ (by simp only [Tree.apply.sizeOf_spec]; omega)

theorem areTidy_statements : ∀ {nodes : List (Node Float)},
    (∀ expression, .loop expression ∈ Tree.operationsList nodes → '\n' ∉ (Text.trim expression).toList) →
      Statement.AreTidy (statements nodes)
  | [], _ => by
    rw [statements]
    trivial
  | node :: rest, h => by
    rw [statements]
    exact ⟨isTidy_statement fun expression hloop => h expression (List.mem_append_left _ hloop),
      areTidy_statements fun expression hloop => h expression (List.mem_append_right _ hloop)⟩
termination_by nodes => (derivedCountList nodes, sizeOf nodes)
decreasing_by
  · exact Prod.Lex.right' _ (Nat.le_add_right _ _) (by simp only [List.cons.sizeOf_spec]; omega)
  · exact Prod.Lex.right' _ (Nat.le_add_left _ _) (by simp only [List.cons.sizeOf_spec]; omega)

end

/-- **The two layouts are the same script.** If the expressions of its loops have no line end, the indented text of a
node ends in a line end, its lines without the spaces in front are the compact text when they are joined by spaces, and
every line is indented by exactly four spaces for each block that is open at it. -/
theorem layouts_agree (node : Node Float)
    (h : ∀ expression, .loop expression ∈ node.operations → '\n' ∉ (Text.trim expression).toList) :
    (render .indented node).toList.getLast? = some '\n' ∧
      [' '].intercalate ((lines (render .indented node).toList).map unindented) = (render .compact node).toList ∧
      walk? 0 (lines (render .indented node).toList) = some 0 := by
  have tidy := isTidy_statement h
  exact ⟨Statement.getLast?_indented _, Statement.intercalate_unindented tidy, Statement.walk?_indented tidy⟩

/-- Both layouts of a loop over two nested blocks, one of them empty. -/
theorem layouts_agree_loop :
    let node : Node Float := .apply (.loop " i = [0 : 3] ") [.apply .union [drawn (.sphere 1 8)], .apply .hull []]
    (∀ expression, .loop expression ∈ node.operations → '\n' ∉ (Text.trim expression).toList) ∧
      (render .indented node).toList.getLast? = some '\n' ∧
      [' '].intercalate ((lines (render .indented node).toList).map unindented) = (render .compact node).toList ∧
      walk? 0 (lines (render .indented node).toList) = some 0 := by
  intro node
  have h : ∀ expression, .loop expression ∈ node.operations → '\n' ∉ (Text.trim expression).toList := by
    intro expression hloop
    simp [node, Tree.operations, Tree.operationsList] at hloop
    subst hloop
    decide
  exact ⟨h, layouts_agree node h⟩

end Node
end SolidScript
