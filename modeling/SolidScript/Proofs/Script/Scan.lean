import SolidScript.Proofs.Script.Layout
import SolidScript.Proofs.Script.Lower

/-!
# The structure of a script

A script is scanned without any knowledge of calls and headers: of a literal only its end is looked for, and outside of
literals only semicolons and braces are told from other text. What is inside what is the `Skeleton` of the script.

* `step`: one character. It fails where a brace closes more than is open, or where a statement has no end.
* `run_compact`, `run_indentedAt`: scanning a statement adds its skeleton behind those that stand in front of it and
  changes nothing else, if its texts are `Legible`.
* `legible_of_mem_texts`: so they are, whatever texts and numbers a node holds outside of its loops.
* `scan?_render`: the script of a node is scanned as the skeleton of the lowered tree, and nothing is left over.
-/

namespace SolidScript

/-! ## Skeletons -/

/-- What is inside what, and in which order. -/
inductive Skeleton where
  | call
  | block (body : List Skeleton)

namespace Tree

variable {α ι : Type}

mutual

/-- The skeleton of a tree: a call for each leaf, a block for each operation. -/
def skeleton : Tree α ι → Skeleton
  | .leaf _ => .call
  | .apply _ children => .block (skeletons children)

/-- The skeletons of trees. -/
def skeletons : List (Tree α ι) → List Skeleton
  | [] => []
  | tree :: rest => skeleton tree :: skeletons rest

end

end Tree

namespace Script

namespace Statement

mutual

/-- The skeleton of a statement. -/
def skeleton : Statement → Skeleton
  | .call _ => .call
  | .block _ body => .block (skeletons body)

/-- The skeletons of statements. -/
def skeletons : List Statement → List Skeleton
  | [] => []
  | s :: rest => skeleton s :: skeletons rest

end

mutual

/-- The texts of a statement: its calls and headers. -/
def texts : Statement → List String
  | .call text => [text]
  | .block header body => header :: textsBody body

/-- The texts of statements. -/
def textsBody : List Statement → List String
  | [] => []
  | s :: rest => texts s ++ textsBody rest

end

end Statement

/-! ## Scanning -/

/-- Where in a script a scan stands. -/
inductive Place where
  /-- Between two statements. -/
  | between
  /-- In the text of a call or of a header. -/
  | text
  /-- In a literal of such a text. -/
  | literal
  /-- In a literal, behind a backslash. -/
  | escaped
  /-- Behind the brace that closes a block, in front of the semicolon that ends it. -/
  | closed (body : List Skeleton)

/-- A scan: the place, the statements in front of it in the innermost open block, and those in front of every block
that is open, from the innermost to the outermost. -/
structure Scan where
  place : Place
  row : List Skeleton
  outer : List (List Skeleton)

namespace Scan

/-- The scan of no character. -/
def start : Scan := ⟨.between, [], []⟩

/-- One more character. Outside of literals a text ends in a semicolon or in an opening brace; a closing brace stands
between statements, inside of a block, and in front of a semicolon. -/
def step : Scan → Char → Option Scan
  | ⟨.between, row, outer⟩, c =>
    if c = ' ' ∨ c = '\n' then some ⟨.between, row, outer⟩
    else if c = '\x7d' then
      match outer with
      | [] => none
      | above :: rest => some ⟨.closed row, above, rest⟩
    else if c = ';' ∨ c = '\x7b' then none
    else some ⟨if c = '"' then .literal else .text, row, outer⟩
  | ⟨.text, row, outer⟩, c =>
    if c = ';' then some ⟨.between, row ++ [.call], outer⟩
    else if c = '\x7b' then some ⟨.between, [], row :: outer⟩
    else if c = '\x7d' then none
    else some ⟨if c = '"' then .literal else .text, row, outer⟩
  | ⟨.literal, row, outer⟩, c =>
    some ⟨if c = '\\' then .escaped else if c = '"' then .text else .literal, row, outer⟩
  | ⟨.escaped, row, outer⟩, _ => some ⟨.literal, row, outer⟩
  | ⟨.closed body, row, outer⟩, c => if c = ';' then some ⟨.between, row ++ [.block body], outer⟩ else none

/-- Characters one after another. -/
def run (s : Scan) (chars : List Char) : Option Scan := chars.foldlM step s

/-- The statements of a scan that is complete: it stands between statements, and no block is open. -/
def result? : Scan → Option (List Skeleton)
  | ⟨.between, row, []⟩ => some row
  | _ => none

end Scan

/-- The skeletons of the statements of a script. There are none if the script is not a sequence of statements, whose
braces are balanced and never close what is not open. -/
def scan? (script : String) : Option (List Skeleton) := (Scan.start.run script.toList).bind Scan.result?

namespace Scan

variable {s t : Scan} {row : List Skeleton} {outer : List (List Skeleton)}

@[simp] theorem run_nil (s : Scan) : run s [] = some s := rfl

theorem run_cons (s : Scan) (c : Char) (rest : List Char) : run s (c :: rest) = (step s c).bind fun t => run t rest :=
  List.foldlM_cons

theorem run_append (s : Scan) (first second : List Char) :
    run s (first ++ second) = (run s first).bind fun t => run t second :=
  List.foldlM_append

theorem run_cons_of {c : Char} (h : step s c = some t) (rest : List Char) : run s (c :: rest) = run t rest := by
  rw [run_cons, h, Option.bind_some]

theorem run_append_of {first : List Char} (h : run s first = some t) (second : List Char) :
    run s (first ++ second) = run t second := by
  rw [run_append, h, Option.bind_some]

end Scan

/-! ## Legible texts -/

open Scan Text.Quoted

/-- Whether a scan in the text of a statement goes through characters without leaving that text. -/
def Inert (chars : List Char) : Prop :=
  ∀ row outer, run ⟨.text, row, outer⟩ chars = some ⟨.text, row, outer⟩

/-- A text that begins with a letter and has no mark of structure outside of its literals. -/
structure Legible (text : String) : Prop where
  lettered : Lettered text
  inert : Inert text.toList

theorem Inert.append {first second : List Char} (hfirst : Inert first) (hsecond : Inert second) :
    Inert (first ++ second) := by
  intro row outer
  rw [run_append_of (hfirst row outer)]
  exact hsecond row outer

/-- A character that is no mark of structure. -/
theorem step_text {c : Char} (hquote : c ≠ '"') (hend : c ≠ ';') (hopen : c ≠ '\x7b') (hclose : c ≠ '\x7d')
    (row : List Skeleton) (outer : List (List Skeleton)) :
    step ⟨.text, row, outer⟩ c = some ⟨.text, row, outer⟩ := by
  simp only [step, if_neg hend, if_neg hopen, if_neg hclose, if_neg hquote]

/-- Marks are looked for by computation. -/
theorem unmarked_of_all {chars : List Char}
    (h : (chars.all fun c => !List.contains ['"', '\x7b', '\x7d', ';'] c) = true) :
    ∀ c ∈ chars, c ∉ ['"', '\x7b', '\x7d', ';'] := by
  intro c hc hmark
  have hnot := List.all_eq_true.1 h c hc
  rw [List.contains_iff_mem.2 hmark] at hnot
  cases hnot

theorem inert_of_unmarked {chars : List Char} (h : ∀ c ∈ chars, c ∉ ['"', '\x7b', '\x7d', ';']) : Inert chars := by
  intro row outer
  induction chars with
  | nil => rfl
  | cons c rest ih =>
    have hc := h c List.mem_cons_self
    simp only [List.mem_cons, List.not_mem_nil, or_false, not_or] at hc
    obtain ⟨hquote, hopen, hclose, hend⟩ := hc
    rw [run_cons_of (step_text hquote hend hopen hclose row outer)]
    exact ih fun d hd => h d (List.mem_cons_of_mem _ hd)

/-- A literal goes on behind the code of a character. -/
theorem run_encodeChar (c : Char) (row : List Skeleton) (outer : List (List Skeleton)) :
    run ⟨.literal, row, outer⟩ (encodeChar c) = some ⟨.literal, row, outer⟩ := by
  unfold encodeChar
  split
  · rfl
  · rfl
  · rfl
  · rfl
  · rename_i hbackslash hquote _ _
    have hstep : step ⟨.literal, row, outer⟩ c = some ⟨.literal, row, outer⟩ := by
      simp only [step, if_neg hbackslash, if_neg hquote]
    rw [run_cons_of hstep]
    rfl

theorem run_encode (text : List Char) (row : List Skeleton) (outer : List (List Skeleton)) :
    run ⟨.literal, row, outer⟩ (encode text) = some ⟨.literal, row, outer⟩ := by
  induction text with
  | nil => rfl
  | cons c rest ih =>
    rw [encode, List.flatMap_cons, run_append_of (run_encodeChar c row outer)]
    exact ih

/-- **A quiet text does not move a scan**, whatever its literals hold. -/
theorem QuietChars.inert {chars : List Char} (h : QuietChars chars) : Inert chars := by
  intro row outer
  induction h with
  | nil => rfl
  | @plain c rest hc _ ih =>
    simp only [isPlain, decide_eq_true_eq, List.mem_cons, List.not_mem_nil, or_false, not_or] at hc
    obtain ⟨hquote, hend, hopen, hclose, -⟩ := hc
    rw [run_cons_of (step_text hquote hend hopen hclose row outer)]
    exact ih
  | @literal text rest _ ih =>
    have hbegin : step ⟨.text, row, outer⟩ '"' = some ⟨.literal, row, outer⟩ := rfl
    have hend : step ⟨.literal, row, outer⟩ '"' = some ⟨.text, row, outer⟩ := rfl
    rw [run_cons_of hbegin, run_append_of (run_encode text row outer), run_cons_of hend]
    exact ih

/-- A letter begins a text. -/
theorem step_letter {c : Char} (h : c.isAlpha = true) (row : List Skeleton) (outer : List (List Skeleton)) :
    step ⟨.between, row, outer⟩ c = some ⟨.text, row, outer⟩ ∧
      step ⟨.text, row, outer⟩ c = some ⟨.text, row, outer⟩ := by
  have hne : ∀ d : Char, d.isAlpha = false → c ≠ d := by
    rintro d hd rfl
    rw [h] at hd
    cases hd
  have hquote := hne '"' (by decide)
  have hend := hne ';' (by decide)
  have hopen := hne '\x7b' (by decide)
  have hclose := hne '\x7d' (by decide)
  have hspace := hne ' ' (by decide)
  have hnewline := hne '\n' (by decide)
  refine ⟨?_, step_text hquote hend hopen hclose row outer⟩
  simp only [step, hspace, hnewline, hclose, hend, hopen, hquote, or_self, if_false]

theorem Legible.run_between {text : String} (h : Legible text) (row : List Skeleton) (outer : List (List Skeleton)) :
    run ⟨.between, row, outer⟩ text.toList = some ⟨.text, row, outer⟩ := by
  have hinert := h.inert row outer
  have hletter := h.lettered
  unfold Lettered at hletter
  cases htext : text.toList with
  | nil => rw [htext] at hletter; cases hletter
  | cons c rest =>
    rw [htext] at hinert hletter
    obtain ⟨hbetween, hwithin⟩ := step_letter (c := c) (by simpa using hletter) row outer
    rw [run_cons_of hbetween, ← run_cons_of hwithin, hinert]

/-! ## Scanning statements -/

namespace Statement

mutual

/-- **Scanning a statement on a single line adds its skeleton.** -/
theorem run_compact : ∀ (s : Statement) (row : List Skeleton) (outer : List (List Skeleton)),
    (∀ text ∈ s.texts, Legible text) →
      run ⟨.between, row, outer⟩ (compact s).toList = some ⟨.between, row ++ [s.skeleton], outer⟩
  | .call text, row, outer, h => by
    have htext := (h text List.mem_cons_self).run_between row outer
    rw [compact, String.toList_append, run_append_of htext]
    rfl
  | .block header body, row, outer, h => by
    have hheader := (h header List.mem_cons_self).run_between row outer
    have hbody := run_compactBody body [] (row :: outer) fun text htext =>
      h text (List.mem_cons_of_mem _ htext)
    have hopen : run ⟨.text, row, outer⟩ " \x7b ".toList = some ⟨.between, [], row :: outer⟩ := rfl
    rw [compact, String.toList_append, String.toList_append, String.toList_append, List.append_assoc,
      List.append_assoc, run_append_of hheader, run_append_of hopen, run_append_of hbody]
    rfl

theorem run_compactBody : ∀ (body : List Statement) (row : List Skeleton) (outer : List (List Skeleton)),
    (∀ text ∈ textsBody body, Legible text) →
      run ⟨.between, row, outer⟩ (compactBody body).toList = some ⟨.between, row ++ skeletons body, outer⟩
  | [], row, outer, _ => by rw [compactBody, skeletons, List.append_nil]; rfl
  | s :: rest, row, outer, h => by
    have hs := run_compact s row outer fun text htext => h text (List.mem_append_left _ htext)
    have hrest := run_compactBody rest (row ++ [s.skeleton]) outer fun text htext =>
      h text (List.mem_append_right _ htext)
    have hspace : run ⟨.between, row ++ [s.skeleton], outer⟩ " ".toList =
        some ⟨.between, row ++ [s.skeleton], outer⟩ := rfl
    rw [compactBody, String.toList_append, String.toList_append, List.append_assoc, run_append_of hs,
      run_append_of hspace, hrest, skeletons, List.append_assoc, List.singleton_append]

end

theorem run_indent (depth : Nat) (row : List Skeleton) (outer : List (List Skeleton)) :
    run ⟨.between, row, outer⟩ (indent depth).toList = some ⟨.between, row, outer⟩ := by
  rw [indent, String.toList_ofList]
  induction 4 * depth with
  | zero => rfl
  | succ n ih =>
    have hspace : step ⟨.between, row, outer⟩ ' ' = some ⟨.between, row, outer⟩ := rfl
    rw [List.replicate_succ, run_cons_of hspace]
    exact ih

mutual

/-- **Scanning a statement over several lines adds its skeleton**, however deep it stands. -/
theorem run_indentedAt (depth : Nat) : ∀ (s : Statement) (row : List Skeleton) (outer : List (List Skeleton)),
    (∀ text ∈ s.texts, Legible text) →
      run ⟨.between, row, outer⟩ (indentedAt depth s).toList = some ⟨.between, row ++ [s.skeleton], outer⟩
  | .call text, row, outer, h => by
    have htext := (h text List.mem_cons_self).run_between row outer
    rw [indentedAt, String.toList_append, String.toList_append, List.append_assoc,
      run_append_of (run_indent depth row outer), run_append_of htext]
    rfl
  | .block header [], row, outer, h => by
    have hheader := (h header List.mem_cons_self).run_between row outer
    rw [indentedAt, String.toList_append, String.toList_append, List.append_assoc,
      run_append_of (run_indent depth row outer), run_append_of hheader]
    rfl
  | .block header (first :: rest), row, outer, h => by
    have hheader := (h header List.mem_cons_self).run_between row outer
    have hopen : run ⟨.text, row, outer⟩ " \x7b\n".toList = some ⟨.between, [], row :: outer⟩ := rfl
    have hfirst := run_indentedAt (depth + 1) first [] (row :: outer) fun text htext =>
      h text (List.mem_cons_of_mem _ (List.mem_append_left _ htext))
    have hrest := run_indentedBody (depth + 1) rest [first.skeleton] (row :: outer) fun text htext =>
      h text (List.mem_cons_of_mem _ (List.mem_append_right _ htext))
    have hindent := run_indent depth (first.skeleton :: skeletons rest) (row :: outer)
    simp only [indentedAt, String.toList_append, List.append_assoc]
    rw [run_append_of (run_indent depth row outer), run_append_of hheader, run_append_of hopen, run_append_of hfirst,
      List.nil_append, run_append_of hrest, List.singleton_append, run_append_of hindent]
    rfl

theorem run_indentedBody (depth : Nat) : ∀ (body : List Statement) (row : List Skeleton)
    (outer : List (List Skeleton)), (∀ text ∈ textsBody body, Legible text) →
      run ⟨.between, row, outer⟩ (indentedBody depth body).toList = some ⟨.between, row ++ skeletons body, outer⟩
  | [], row, outer, _ => by rw [indentedBody, skeletons, List.append_nil]; rfl
  | s :: rest, row, outer, h => by
    have hs := run_indentedAt depth s row outer fun text htext => h text (List.mem_append_left _ htext)
    have hrest := run_indentedBody depth rest (row ++ [s.skeleton]) outer fun text htext =>
      h text (List.mem_append_right _ htext)
    rw [indentedBody, String.toList_append, run_append_of hs, hrest, skeletons, List.append_assoc,
      List.singleton_append]

end

/-- The layout of a statement is scanned as its skeleton alone. -/
theorem scan?_layout {s : Statement} (h : ∀ text ∈ s.texts, Legible text) :
    ∀ style, scan? (s.layout style) = some [s.skeleton]
  | .compact => by rw [layout, scan?, Scan.start, run_compact s [] [] h]; rfl
  | .indented => by rw [layout, scan?, Scan.start, run_indentedAt 0 s [] [] h]; rfl

end Statement
end Script

/-! ## Scripts of nodes -/

open Script

theorem Primitive.legible_call (p : Primitive Float) : Legible p.call := ⟨p.tidy_call.lettered, p.quiet_call.inert⟩

theorem Operation.legible_header {op : Operation Float}
    (h : ∀ expression, op = .loop expression → ∀ c ∈ expression.toList, c ∉ ['"', '\x7b', '\x7d', ';']) :
    Legible op.header := by
  refine ⟨op.lettered_header, ?_⟩
  -- only the header of a loop holds text that is not quoted
  by_cases hloop : ∃ expression, op = .loop expression
  · obtain ⟨expression, rfl⟩ := hloop
    have hexpression := h expression rfl
    rw [Operation.header, String.toList_append, String.toList_append]
    refine .append (.append (inert_of_unmarked (unmarked_of_all (by decide))) ?_)
      (inert_of_unmarked (unmarked_of_all (by decide)))
    exact inert_of_unmarked fun c hc => hexpression c (Text.mem_of_mem_trim hc)
  · exact (Operation.quiet_header fun expression he => hloop ⟨expression, he⟩).inert

namespace Node

/-! ## Lowered nodes -/

mutual

/-- The statement of a node without derived shapes has the skeleton of the node. -/
theorem skeleton_statement : ∀ {node : Node Float}, derivedCount node = 0 → (statement node).skeleton = node.skeleton
  | .leaf (.primitive _), _ => by rw [statement_drawn]; rfl
  | .apply op children, h => by
    rw [statement_apply, Statement.skeleton, Tree.skeleton, skeletons_statements h]

theorem skeletons_statements : ∀ {nodes : List (Node Float)}, derivedCountList nodes = 0 →
    Statement.skeletons (statements nodes) = Tree.skeletons nodes
  | [], _ => by rw [statements]; rfl
  | node :: rest, h => by
    obtain ⟨hnode, hrest⟩ := Nat.add_eq_zero_iff.1 h
    rw [statements, Statement.skeletons, Tree.skeletons, skeleton_statement hnode, skeletons_statements hrest]

end

mutual

/-- The texts of a script are calls of primitives and headers of operations. -/
theorem mem_texts_statement {text : String} : ∀ {node : Node Float}, derivedCount node = 0 →
    text ∈ (statement node).texts → (∃ p : Primitive Float, text = p.call) ∨ ∃ op ∈ node.operations, text = op.header
  | .leaf (.primitive p), _, htext => by
    rw [statement_drawn] at htext
    exact .inl ⟨p, List.mem_singleton.1 htext⟩
  | .apply op children, h, htext => by
    rw [statement_apply] at htext
    rcases List.mem_cons.1 htext with rfl | htext
    · exact .inr ⟨op, List.mem_cons_self, rfl⟩
    · rcases mem_textsBody_statements h htext with hcall | ⟨op, hop, rfl⟩
      · exact .inl hcall
      · exact .inr ⟨op, List.mem_cons_of_mem _ hop, rfl⟩

theorem mem_textsBody_statements {text : String} : ∀ {nodes : List (Node Float)}, derivedCountList nodes = 0 →
    text ∈ Statement.textsBody (statements nodes) →
      (∃ p : Primitive Float, text = p.call) ∨ ∃ op ∈ Tree.operationsList nodes, text = op.header
  | [], _, htext => by
    rw [statements] at htext
    cases htext
  | node :: rest, h, htext => by
    obtain ⟨hnode, hrest⟩ := Nat.add_eq_zero_iff.1 h
    rw [statements] at htext
    rcases List.mem_append.1 htext with htext | htext
    · rcases mem_texts_statement hnode htext with hcall | ⟨op, hop, rfl⟩
      · exact .inl hcall
      · exact .inr ⟨op, List.mem_append_left _ hop, rfl⟩
    · rcases mem_textsBody_statements hrest htext with hcall | ⟨op, hop, rfl⟩
      · exact .inl hcall
      · exact .inr ⟨op, List.mem_append_right _ hop, rfl⟩

end

mutual

/-- The loops of the lowered tree are loops of the tree. -/
theorem loop_mem_of_lower {α : Type} [Angular α] {expression : String} : ∀ {node : Node α},
    .loop expression ∈ (lower node).operations → .loop expression ∈ node.operations
  | .leaf (.primitive _), h => h
  | .leaf (.derived d), h => absurd h (d.loop_notMem_expand expression)
  | .apply op children, h => by
    rcases List.mem_cons.1 h with rfl | h
    · exact List.mem_cons_self
    · exact List.mem_cons_of_mem _ (loop_mem_of_lowerList h)

theorem loop_mem_of_lowerList {α : Type} [Angular α] {expression : String} : ∀ {nodes : List (Node α)},
    .loop expression ∈ Tree.operationsList (lowerList nodes) → .loop expression ∈ Tree.operationsList nodes
  | node :: rest, h => by
    rcases List.mem_append.1 h with h | h
    · exact List.mem_append_left _ (loop_mem_of_lower h)
    · exact List.mem_append_right _ (loop_mem_of_lowerList h)

end

section Loops

variable {node : Node Float}
  (h : ∀ expression, .loop expression ∈ node.operations → ∀ c ∈ expression.toList, c ∉ ['"', '\x7b', '\x7d', ';'])
include h

/-- **All texts of a script are legible** if the expressions of its loops have no mark of structure. -/
theorem legible_of_mem_texts {text : String} (htext : text ∈ (statement node).texts) : Legible text := by
  rw [← statement_lower] at htext
  rcases mem_texts_statement (derivedCount_lower node) htext with ⟨p, rfl⟩ | ⟨op, hop, rfl⟩
  · exact p.legible_call
  · refine Operation.legible_header ?_
    rintro expression rfl
    exact h expression (loop_mem_of_lower hop)

/-- **No parameter breaks the structure of a script.** If the expressions of its loops have no quote, brace or
semicolon, the script of a node in either layout is scanned as the skeleton of the lowered tree, and as nothing else. -/
theorem scan?_render (style : Style) : scan? (render style node) = some [(lower node).skeleton] := by
  have hskeleton : (statement node).skeleton = (lower node).skeleton := by
    rw [← statement_lower, skeleton_statement (derivedCount_lower node)]
  have hlegible : ∀ text ∈ (statement node).texts, Legible text := fun _ htext => legible_of_mem_texts h htext
  rw [render, Statement.scan?_layout hlegible, hskeleton]

end Loops

/-- A file name that tries to end its literal, its call and the block around it, in front of an empty block. -/
theorem scan?_render_hostile_name :
    let node : Node Float :=
      .apply (.loop "i = [0 : 3]") [drawn (.imported "a\"); \x7d; \\" 10 false), .apply .hull []]
    (∀ expression, .loop expression ∈ node.operations →
      ∀ c ∈ expression.toList, c ∉ ['"', '\x7b', '\x7d', ';']) ∧
      scan? (render .compact node) = some [.block [.call, .block []]] := by
  intro node
  have h : ∀ expression, .loop expression ∈ node.operations →
      ∀ c ∈ expression.toList, c ∉ ['"', '\x7b', '\x7d', ';'] := by
    intro expression hloop
    simp [node, Tree.operations, Tree.operationsList] at hloop
    subst hloop
    exact unmarked_of_all (by decide)
  exact ⟨h, scan?_render h .compact⟩

end Node
end SolidScript
