import SolidScript.Proofs.Document.Shorthand
import SolidScript.Proofs.Shape.Stored
import SolidScript.Script.Render

/-!
# The orientation of matrices

A document gives a matrix row by row, a stored tree holds it column by column, and a script shows it row by row again.
The cell of a row and a column stays in its place through all of that:

* `Coerce.exists_matrix?`: a list of rows is coerced to the matrix that has the cells where the rows have them.
* `Matrix4.columnMajor_eq`, `Matrix4.ofColumnMajor?_ofFn`: it is written to, and read from, its `position` in a flat
  list.
* `Script.matrix_eq`: its text stands in the same row and column of the text of the matrix.
-/

namespace SolidScript

/-! ## Cells in a flat list -/

namespace Matrix4

variable {α : Type}

/-- Where the cell in a row and a column stands if the columns follow one another. -/
def position (r c : Fin 4) : Fin 16 := ⟨4 * c + r, by omega⟩

/-- The cells of a matrix by position. -/
def flat (m : Matrix4 α) (i : Fin 16) : α := m.cell ⟨i % 4, by omega⟩ ⟨i / 4, by omega⟩

theorem flat_position (m : Matrix4 α) (r c : Fin 4) : m.flat (position r c) = m.cell r c := by
  have hr : (4 * c.val + r.val) % 4 = r.val := by omega
  have hc : (4 * c.val + r.val) / 4 = c.val := by omega
  simp only [flat, position, hr, hc]

/-- Every position is that of a cell. -/
theorem exists_position (i : Fin 16) : ∃ r c, i = position r c :=
  ⟨⟨i % 4, by omega⟩, ⟨i / 4, by omega⟩, Fin.ext (by simp only [position]; omega)⟩

theorem columnMajor_eq (m : Matrix4 α) : m.columnMajor = List.ofFn m.flat :=
  calc
    m.columnMajor = (List.ofFn fun c => List.ofFn fun r => m.flat (position r c)).flatten := by
      simp only [flat_position, columnMajor]
    _ = List.ofFn m.flat := (List.ofFn_mul' (m := 4) (n := 4) m.flat).symm

theorem ofColumnMajor?_ofFn (cells : Fin 16 → α) :
    ofColumnMajor? (List.ofFn cells) = some ⟨fun r c => cells (position r c)⟩ := by
  show some (Matrix4.mk _) = _
  congr 2
  funext r c
  fin_cases r <;> fin_cases c <;> rfl

end Matrix4

/-! ## Rows of a document -/

/-- Three or four rows of four values that are coerced to numbers. -/
structure Json.IsMatrix (rows : List Json) : Prop where
  length : rows.length = 3 ∨ rows.length = 4
  row : ∀ row ∈ rows, ∃ cells, row = .array cells ∧ cells.length = 4 ∧
    ∀ cell ∈ cells, (Coerce.number? cell).isSome

namespace Coerce

/-- The cell in a column of a row. -/
def rowCell? (row : Json) (c : Fin 4) : Option Float := do
  let cells ← items? row
  number? (← cells[c.val]?)

/-- The cell in a row and a column. A row that is left out is the affine one. -/
def cell? (rows : List Json) (r c : Fin 4) : Option Float := rowCell? (rows.getD r Json.affineRow) c

theorem exists_row? {cells : List Json} (hlength : cells.length = 4)
    (hcells : ∀ cell ∈ cells, (number? cell).isSome) :
    ∃ row, row? (.array cells) = some row ∧ ∀ c, rowCell? (.array cells) c = some (row c) := by
  obtain ⟨a, b, c, d, rfl⟩ := List.length_eq_four.1 hlength
  simp only [List.forall_mem_cons, Option.isSome_iff_exists] at hcells
  obtain ⟨⟨x, hx⟩, ⟨y, hy⟩, ⟨z, hz⟩, ⟨w, hw⟩, -⟩ := hcells
  have hnumbers : numbers? (.array [a, b, c, d]) = some [x, y, z, w] := by
    simp [numbers?, items?, hx, hy, hz, hw]
  refine ⟨_, by rw [row?, hnumbers]; rfl, fun i => ?_⟩
  fin_cases i
  · exact hx
  · exact hy
  · exact hz
  · exact hw

theorem exists_matrix?_four {a b c d : Json} (h : Json.IsMatrix [a, b, c, d]) :
    ∃ m, matrix? (.array [a, b, c, d]) = some m ∧ ∀ r i, cell? [a, b, c, d] r i = some (m.cell r i) := by
  have hread : ∀ row ∈ [a, b, c, d], ∃ cells, row? row = some cells ∧ ∀ i, rowCell? row i = some (cells i) := by
    intro row hmem
    obtain ⟨cells, rfl, hlength, hcells⟩ := h.row row hmem
    exact exists_row? hlength hcells
  simp only [List.forall_mem_cons] at hread
  obtain ⟨⟨x, hx, hxs⟩, ⟨y, hy, hys⟩, ⟨z, hz, hzs⟩, ⟨w, hw, hws⟩, -⟩ := hread
  have hrows : [a, b, c, d].mapM row? = some [x, y, z, w] := by
    simp [hx, hy, hz, hw]
  have hmatrix : matrix? (.array [a, b, c, d]) = Matrix4.ofRows? [x, y, z, w] := by
    rw [matrix?, items?, Option.bind_eq_bind, Option.bind_some, hrows]
    rfl
  refine ⟨_, hmatrix.trans rfl, fun r i => ?_⟩
  fin_cases r
  · exact hxs i
  · exact hys i
  · exact hzs i
  · exact hws i

/-- **A list of rows is coerced to the matrix with their cells**, each in its row and its column. -/
theorem exists_matrix? {rows : List Json} (h : Json.IsMatrix rows) :
    ∃ m, matrix? (.array rows) = some m ∧ ∀ r c, cell? rows r c = some (m.cell r c) := by
  obtain ⟨hlength, hrow⟩ := h
  rcases hlength with hthree | hfour
  · obtain ⟨a, b, c, rfl⟩ := List.length_eq_three.1 hthree
    have haffine : ∃ cells, Json.affineRow = .array cells ∧ cells.length = 4 ∧
        ∀ cell ∈ cells, (number? cell).isSome :=
      ⟨_, rfl, rfl, by simp [Json.ofNat, number?]⟩
    have hcompleted : Json.IsMatrix [a, b, c, Json.affineRow] := by
      refine ⟨.inr rfl, fun row hmem => ?_⟩
      rcases List.mem_append.1 (show row ∈ [a, b, c] ++ [Json.affineRow] from hmem) with hmem | hmem
      · exact hrow row hmem
      · rwa [List.mem_singleton.1 hmem]
    obtain ⟨m, hm, hcells⟩ := exists_matrix?_four hcompleted
    refine ⟨m, (matrix?_affine a b c).trans hm, fun r i => ?_⟩
    rw [← hcells]
    fin_cases r <;> rfl
  · obtain ⟨a, b, c, d, rfl⟩ := List.length_eq_four.1 hfour
    exact exists_matrix?_four ⟨.inr rfl, hrow⟩

end Coerce

/-! ## Scripts -/

namespace Script

/-- Four rows of four texts, each between brackets. -/
def grid (text : Fin 4 → Fin 4 → String) : String :=
  bracketed (List.ofFn fun r => bracketed (List.ofFn fun c => text r c))

theorem matrix_eq (m : Matrix4 Float) : matrix m = grid fun r c => number (m.cell r c) := by
  simp only [matrix, Matrix4.rows, Matrix4.row, List.map_ofFn]
  rfl

/-- Whether the script of a node begins with a matrix of texts, in whatever style. -/
def ShowsMatrix (node : Node Float) (text : Fin 4 → Fin 4 → String) : Prop :=
  ∀ style, ∃ body, node.render style = "multmatrix(" ++ grid text ++ ") \x7b" ++ body

/-- A block begins with its header. -/
theorem exists_layout_block (style : Style) (header : String) (body : List Statement) :
    ∃ rest, (Statement.block header body).layout style = header ++ " \x7b" ++ rest := by
  have hindent : Statement.indent 0 = "" := rfl
  have hopen : " \x7b " = " \x7b" ++ " " := rfl
  cases style with
  | compact =>
    refine ⟨" " ++ Statement.compactBody body ++ "\x7d;", ?_⟩
    simp only [Statement.layout, Statement.compact, hopen, String.append_assoc]
  | indented =>
    cases body with
    | nil =>
      refine ⟨" \x7d;\n", ?_⟩
      have hclose : " \x7b \x7d;\n" = " \x7b" ++ " \x7d;\n" := rfl
      simp only [Statement.layout, Statement.indentedAt, hindent, String.empty_append, hclose, String.append_assoc]
    | cons first rest =>
      refine ⟨"\n" ++ Statement.indentedAt 1 first ++ Statement.indentedBody 1 rest ++ "\x7d;\n", ?_⟩
      have hbreak : " \x7b\n" = " \x7b" ++ "\n" := rfl
      simp only [Statement.layout, Statement.indentedAt, hindent, String.empty_append, hbreak, String.append_assoc]

theorem showsMatrix_transform (m : Matrix4 Float) (children : List (Node Float)) :
    ShowsMatrix (.apply (.transform m) children) fun r c => number (m.cell r c) := by
  intro style
  obtain ⟨body, hbody⟩ := exists_layout_block style (Operation.header (.transform m)) (Node.statements children)
  have hopen : ") \x7b" = ")" ++ " \x7b" := rfl
  refine ⟨body, ?_⟩
  rw [Node.render, Node.statement_apply, hbody, Operation.header, matrix_eq, hopen]
  simp only [String.append_assoc]

end Script

/-! ## Stored trees -/

namespace Stored

open Matrix4 (position)

/-- A stored node with a matrix, its cells given by position. -/
def ofMatrix (cells : Fin 16 → Json) (children : List Json) : Json :=
  .object [("ComposeMatrix", .object [("matrix", .array (List.ofFn cells)), ("children", .array children)])]

theorem store_transform (m : Matrix4 Float) (children : List (Node Float)) :
    store (.apply (.transform m) children) = ofMatrix (fun i => .ofDouble (m.flat i)) (storeList children) := by
  rw [store, operationContent, Matrix4.columnMajor_eq, List.map_ofFn]
  rfl

theorem doubles_ofFn {n : Nat} (numbers : Fin n → Json.Number) :
    Json.asList? Json.asDouble? (.array (List.ofFn fun i => .number (numbers i))) =
      some (List.ofFn fun i => (numbers i).toDouble) := by
  have hread : ∀ ns : List Json.Number,
      (ns.map Json.number).mapM Json.asDouble? = some (ns.map Json.Number.toDouble) := by
    intro ns
    rw [List.mapM_map]
    exact List.mapM_pure
  have hnumbers := hread (List.ofFn numbers)
  rwa [List.map_ofFn, List.map_ofFn] at hnumbers

theorem restore?_transform {flat items : List Json} {cells : List Float} {m : Matrix4 Float}
    {children : List (Node Float)} (hflat : Json.asList? Json.asDouble? (.array flat) = some cells)
    (hm : Matrix4.ofColumnMajor? cells = some m) (hitems : restoreItems? items = some children) :
    restore? (.object [("ComposeMatrix", .object [("matrix", .array flat), ("children", .array items)])]) =
      some (.apply (.transform m) children) := by
  have hkind : Kind.ofStoredName? "ComposeMatrix" = some .composeMatrix := ofStoredName?_storedName .composeMatrix
  have hchildren : restoreChildren? .composeMatrix (.object [("matrix", .array flat), ("children", .array items)]) =
      some children := by
    simp [restoreChildren?, fieldNames, restoreField?, restoreList?, hitems]
  rw [restore?, restoreOnly?, hkind, Option.bind_eq_bind, Option.bind_some, hchildren]
  simp [assemble?, fieldNames, Json.asRecord?, Json.occurrences, asShape?, asOperation?, Json.Record.need?, Json.field?,
    hflat, hm]

theorem restore?_ofMatrix (numbers : Fin 16 → Json.Number) {items : List Json} {children : List (Node Float)}
    (h : restoreItems? items = some children) : restore? (ofMatrix (fun i => .number (numbers i)) items) =
      some (.apply (.transform ⟨fun r c => (numbers (position r c)).toDouble⟩) children) :=
  restore?_transform (doubles_ofFn numbers) (Matrix4.ofColumnMajor?_ofFn _) h

end Stored

/-! ## Through all three forms -/

namespace Document

open Matrix4 (position)
open Script (ShowsMatrix number grid)
open Stored (store storeList restore? restoreItems? ofMatrix)

variable {options : Options} {params : List (String × Json)}

theorem result_build_composeMatrix {raw : Json} {m : Matrix4 Float} (h : Json.field? "matrix" params = some raw)
    (hm : Coerce.matrix? raw = some m) : (build options .composeMatrix params).result =
      (childrenOf options .composeMatrix params).map (Tree.apply (.transform m)) := by
  have hmatrix : valueOf options .composeMatrix params (.need "matrix" .matrix) = .ok (some ⟨.matrix, m⟩) :=
    valueOf_coerced (show ParamType.matrix ≠ .nodes from nofun) hm h
  have habsent : firstAbsent? .composeMatrix params = none := by
    simp [firstAbsent?, schema, Parameter.need, Parameter.given, Parameter.children, Parameter.isRequired, h]
  rw [result_build habsent]
  simp only [schema, valuesOf, hmatrix, valueOf_children]
  cases childrenOf options .composeMatrix params <;> rfl

/-- **A matrix keeps its orientation**: rows of a document make a node whose script shows each cell in the row and the
column where the document has it, and whose stored form holds that cell column by column. Whatever flat list is
restored, the script shows its cells column by column too. -/
theorem matrix_keeps_orientation :
    (∀ options params rows, Json.field? "matrix" params = some (.array rows) → Json.IsMatrix rows →
      ∃ m : Matrix4 Float, (∀ r c, Coerce.cell? rows r c = some (m.cell r c)) ∧
        (build options .composeMatrix params).result =
          (childrenOf options .composeMatrix params).map (Tree.apply (.transform m)) ∧
        ∀ children, ShowsMatrix (.apply (.transform m) children) (fun r c => number (m.cell r c)) ∧
          ∃ flat, store (.apply (.transform m) children) = ofMatrix flat (storeList children) ∧
            ∀ r c, flat (position r c) = .ofDouble (m.cell r c)) ∧
    ∀ (numbers : Fin 16 → Json.Number) items children, restoreItems? items = some children →
      ∃ node, restore? (ofMatrix (fun i => .number (numbers i)) items) = some node ∧
        ShowsMatrix node fun r c => number (numbers (position r c)).toDouble := by
  refine ⟨fun options params rows hparams hrows => ?_, fun numbers items children hitems => ?_⟩
  · obtain ⟨m, hm, hcells⟩ := Coerce.exists_matrix? hrows
    refine ⟨m, hcells, result_build_composeMatrix hparams hm, fun children => ?_⟩
    refine ⟨Script.showsMatrix_transform m children, _, Stored.store_transform m children, fun r c => ?_⟩
    rw [Matrix4.flat_position]
  · exact ⟨_, Stored.restore?_ofMatrix numbers hitems, Script.showsMatrix_transform _ children⟩

/-- A shift whose last row is left out, with the shift itself behind the columns when it is stored; and a matrix
restored from the numbers from 0 to 15. -/
theorem matrix_keeps_orientation_shift :
    let rows : List Json := [.array [.ofNat 1, .ofNat 0, .ofNat 0, .string "5"],
      .array [.ofNat 0, .ofNat 1, .ofNat 0, .string " 6 "], .array [.ofNat 0, .ofNat 0, .ofNat 1, .ofDouble 7.5]]
    let cells : List Float := [1, 0, 0, 0, 0, 1, 0, 0, 0, 0, 1, 0, 5, 6, 7.5, 1]
    (∃ node, (build .standard .composeMatrix [("matrix", .array rows)]).result = .ok node ∧
      (∃ body, node.render .indented = "multmatrix([[1,0,0,5],[0,1,0,6],[0,0,1,7.5],[0,0,0,1]]) \x7b" ++ body) ∧
      store node = .object [("ComposeMatrix", .object [
        ("matrix", .array (cells.map Json.ofDouble)), ("children", .array [])])]) ∧
    ∃ node, restore? (ofMatrix (fun i => .number (.integer i)) []) = some node ∧
      ∃ body, node.render .indented =
        "multmatrix([[0,4,8,12],[1,5,9,13],[2,6,10,14],[3,7,11,15]]) \x7b" ++ body := by
  intro rows cells
  obtain ⟨hbuild, hrestore⟩ := matrix_keeps_orientation
  constructor
  · have hnumbers : ∀ row ∈ rows, ∃ cells, row = .array cells ∧ cells.length = 4 ∧
        ∀ cell ∈ cells, (Coerce.number? cell).isSome := by
      simp only [rows, List.forall_mem_cons]
      refine ⟨⟨_, rfl, rfl, ?_⟩, ⟨_, rfl, rfl, ?_⟩, ⟨_, rfl, rfl, ?_⟩, List.forall_mem_nil _⟩ <;>
        simp only [List.forall_mem_cons] <;> decide +kernel
    obtain ⟨m, hcells, hresult, hnode⟩ := hbuild .standard [("matrix", .array rows)] rows rfl ⟨.inl rfl, hnumbers⟩
    have hgiven : ∀ r c, Coerce.cell? rows r c = some (cells.getD (position r c) 0) := by decide +kernel
    obtain rfl : m = ⟨fun r c => cells.getD (position r c) 0⟩ :=
      congrArg Matrix4.mk (funext fun r => funext fun c => Option.some.inj ((hcells r c).symm.trans (hgiven r c)))
    obtain ⟨hshows, flat, hstore, hflat⟩ := hnode []
    obtain ⟨body, hbody⟩ := hshows .indented
    refine ⟨_, hresult, ⟨body, hbody.trans (congrArg (· ++ body) (by decide +kernel))⟩, hstore.trans ?_⟩
    obtain rfl : flat = fun i => .ofDouble (cells.getD i 0) := by
      funext i
      obtain ⟨r, c, rfl⟩ := Matrix4.exists_position i
      exact hflat r c
    rfl
  · obtain ⟨node, hnode, hshows⟩ := hrestore (fun i => .integer i) [] [] rfl
    obtain ⟨body, hbody⟩ := hshows .indented
    exact ⟨node, hnode, body, hbody.trans (congrArg (· ++ body) (by decide +kernel))⟩

end Document
end SolidScript
