import Mathlib.Algebra.GroupWithZero.Nat
import Mathlib.Data.List.Forall2
import SolidScript.Proofs.Document.Verdict

/-!
# Nodes and their documents

A node that is read from a document has the kind that the document names, and its children are what the documents in
the list that this kind declares are read as, one by one and in the same order. So it is with every node below it: the
node `Mirrors` the document.

* `construct_places`: `construct` gives a node of the kind it is asked for, with the nodes of its list as children.
* `children_build`: so the children of a node are what the documents in its declared list are read as.
* `read_children`: so the children of a node stand to the documents that its document declares as its children.
* `read_mirrors`: a node mirrors the document that it is read from down to the last child, and has as many nodes as
  there are documents.
-/

namespace SolidScript

/-! ## The children of a node -/

/-- The parameter of a kind that is a list of nodes. -/
def nodeList? (kind : Kind) : Option Parameter := (schema kind).find? fun p => p.type == .nodes

theorem nodeList?_mem {kind : Kind} {p : Parameter} (h : nodeList? kind = some p) : p ∈ schema kind :=
  List.mem_of_find?_eq_some h

theorem nodeList?_type {kind : Kind} {p : Parameter} (h : nodeList? kind = some p) : p.type = .nodes := by
  unfold nodeList? at h
  have hfound := List.find?_some h
  exact eq_of_beq hfound

/-- A list of nodes may be left out, and is empty then. -/
theorem nodeList?_standIn {options : Options} {kind : Kind} {p : Parameter} (h : nodeList? kind = some p) :
    p.standIn? options = some ⟨.nodes, []⟩ := by
  cases kind <;> cases h <;> rfl

/-- What holds of the value of some work, if it gives any. -/
def Yields {ε α : Type} (P : α → Prop) (result : Except ε α) : Prop := ∀ a, result = .ok a → P a

theorem Yields.pure {ε α : Type} {P : α → Prop} {a : α} (h : P a) : Yields P (pure a : Except ε α) := by
  rintro _ ⟨⟩
  exact h

theorem Yields.bind {ε α β : Type} {P : β → Prop} {first : Except ε α} {next : α → Except ε β}
    (h : ∀ a, first = .ok a → Yields P (next a)) : Yields P (first >>= next) := by
  intro b hb
  cases hfirst : first with
  | error e => rw [hfirst] at hb; cases hb
  | ok a => rw [hfirst] at hb; exact h a hfirst b hb

namespace Values

variable {kind : Kind} {entries : List (String × Value)}

/-- A value that is picked is held under its name. -/
theorem find?_of_get {name : String} {type : ParamType} {content : type.Carrier}
    (h : get ⟨kind, entries⟩ name type = .ok content) : find? name entries = some ⟨type, content⟩ := by
  cases hfound : find? name entries with
  | none =>
    rw [get, get?_of_absent hfound] at h
    cases h
  | some value =>
    obtain ⟨held, found⟩ := value
    by_cases htype : held = type
    · subst htype
      rw [get_of_held hfound] at h
      cases h
      rfl
    · rw [get, get?, hfound] at h
      simp only [dif_neg htype] at h
      cases h

/-- A node of the kind of some values, with the nodes of its list as children; it has no children if its kind has no
list. -/
def Places (values : Values) (node : Node Float) : Prop :=
  node.kind = values.kind ∧
    match nodeList? values.kind with
    | some p => find? p.name values.entries = some ⟨.nodes, node.children⟩
    | none => node.children = []

/-- **`construct` keeps the kind and the children**, whatever the other values are. -/
theorem construct_places (values : Values) : Yields values.Places (construct values) := by
  obtain ⟨kind, entries⟩ := values
  -- the list of nodes is the value picked last, so its equation is the one at hand where the node is put together
  cases kind
  all_goals
    simp only [construct]
    repeat' first
      | exact .pure ⟨rfl, rfl⟩
      | exact .pure ⟨rfl, find?_of_get ‹_›⟩
      | refine .bind fun _ _ => ?_

end Values

namespace Document

open Values

variable {options : Options}

/-! ## The documents below a document -/

/-- The documents in the list that a kind declares; there are none if the kind declares no list or none is given. -/
def listed (kind : Kind) (params : List (String × Json)) : List Json :=
  match nodeList? kind with
  | some p =>
    match Json.field? p.name params with
    | some (.array items) => items
    | _ => []
  | none => []

/-- The documents that a document declares as its children. -/
def children (document : Json) : List Json :=
  match named? document with
  | some (kind, params) => listed kind params
  | none => []

/-- The kind that a document names. -/
def kind? (document : Json) : Option Kind := (named? document).map Prod.fst

theorem sizeOf_of_mem_listed {kind : Kind} {params : List (String × Json)} {item : Json}
    (h : item ∈ listed kind params) : sizeOf item < sizeOf params := by
  unfold listed at h
  split at h
  · split at h
    · rename_i items hfield
      have hitem := List.sizeOf_lt_of_mem h
      have hlist := sizeOf_field? hfield
      simp only [Json.array.sizeOf_spec] at hlist
      omega
    · cases h
  · cases h

theorem sizeOf_of_mem_children {document item : Json} (h : item ∈ children document) :
    sizeOf item < sizeOf document := by
  unfold children at h
  split at h
  · rename_i hnamed
    have hitem := sizeOf_of_mem_listed h
    have hparams := sizeOf_named? hnamed
    omega
  · cases h

/-- The number of documents in the tree of a document and its declared children. -/
def count (document : Json) : Nat :=
  1 + ((children document).attach.map fun item => count item.1).sum
termination_by sizeOf document
decreasing_by exact sizeOf_of_mem_children item.2

theorem count_eq (document : Json) : count document = 1 + ((children document).map count).sum := by
  rw [count, List.attach_map_val]

/-- A node and a document that is read as this very node, of the kind that the document names. The children of the node
mirror the documents that the document declares as its children, one by one and in order. -/
inductive Mirrors (options : Options) : Node Float → Json → Prop where
  | intro {node : Node Float} {document : Json} : (read options document).result = .ok node →
    kind? document = some node.kind → List.Forall₂ (Mirrors options) node.children (children document) →
    Mirrors options node document

/-! ## What is read -/

/-- The nodes of documents are what each of the documents is read as. -/
theorem readItems_eq_ok : ∀ {items : List Json} {nodes : List (Node Float)},
    (readItems options items).result = .ok nodes →
      List.Forall₂ (fun node item => (read options item).result = .ok node) nodes items
  | [], nodes, h => by
    rw [readItems] at h
    cases h
    exact .nil
  | item :: rest, nodes, h => by
    rw [readItems] at h
    obtain ⟨node, hnode, h⟩ := Report.result_bind_eq_ok h
    obtain ⟨others, hothers, h⟩ := Report.result_bind_eq_ok h
    cases h
    exact .cons hnode (readItems_eq_ok hothers)

theorem mapError_eq_ok {ε δ α : Type} {f : ε → δ} {result : Except ε α} {a : α} (h : result.mapError f = .ok a) :
    result = .ok a := by
  cases result with
  | error e => cases h
  | ok b => cases h; rfl

/-- A list of nodes is coerced to what its documents are read as. -/
theorem coerce_nodes_eq_ok {kind : Kind} {p : Parameter} {raw : Json} {value : Value} (htype : p.type = .nodes)
    (h : (coerce kind p ⟨raw, readList options raw⟩).result = .ok value) :
    ∃ items nodes, raw = .array items ∧ (readItems options items).result = .ok nodes ∧ value = ⟨.nodes, nodes⟩ := by
  rw [coerce_nodes htype] at h
  obtain ⟨nodes, hnodes, h⟩ := Report.result_bind_eq_ok h
  cases h
  have hread : (readList options raw).result = .ok nodes := mapError_eq_ok hnodes
  cases raw with
  | array items =>
    rw [readList] at hread
    exact ⟨items, nodes, rfl, hread, rfl⟩
  | _ => simp only [readList] at hread; cases hread

/-- The value of the list that a kind declares: what the documents in it are read as. -/
theorem resolveOne_listed {kind : Kind} {params : List (String × Json)} {p : Parameter} {value? : Option Value}
    (hp : nodeList? kind = some p) (h : (resolveOne options kind (supply options params) p).result = .ok value?) :
    ∃ nodes, value? = some ⟨.nodes, nodes⟩ ∧ (readItems options (listed kind params)).result = .ok nodes := by
  rw [resolveOne, supplied?_supply] at h
  unfold listed
  simp only [hp]
  cases hfield : Json.field? p.name params with
  | none =>
    rw [hfield] at h
    have hnone : p.standIn? options = value? := Except.ok.inj h
    rw [nodeList?_standIn hp] at hnone
    refine ⟨[], hnone.symm, ?_⟩
    simp only [readItems]
    rfl
  | some raw =>
    rw [hfield] at h
    obtain ⟨value, hvalue, h⟩ := Report.result_bind_eq_ok h
    cases h
    obtain ⟨items, nodes, rfl, hitems, rfl⟩ := coerce_nodes_eq_ok (nodeList?_type hp) hvalue
    exact ⟨nodes, rfl, hitems⟩

/-- **The kind and the children of a node that is built**: the kind is the one that is asked for, and the children are
what the documents in the declared list are read as. -/
theorem children_build {kind : Kind} {params : List (String × Json)} {node : Node Float}
    (h : (build options kind params).result = .ok node) :
    node.kind = kind ∧ (readItems options (listed kind params)).result = .ok node.children := by
  obtain ⟨values, hvalues, hconstruct⟩ := Report.result_bind_eq_ok h
  obtain ⟨-, entries, hentries, rfl⟩ := resolve_eq_ok hvalues
  obtain ⟨hkind, hplaced⟩ := construct_places ⟨kind, entries⟩ node hconstruct
  refine ⟨hkind, ?_⟩
  simp only at hplaced
  cases hp : nodeList? kind with
  | none =>
    rw [hp] at hplaced
    rw [listed, hp, hplaced]
    simp only [readItems]
    rfl
  | some p =>
    rw [hp] at hplaced
    have hfound := find?_of_resolveAll hentries (schema_names_nodup kind) p (nodeList?_mem hp)
    obtain ⟨nodes, hvalue, hnodes⟩ := resolveOne_listed hp hfound
    rw [hplaced] at hvalue
    cases hvalue
    exact hnodes

/-- A document that is read as a node names a kind, and the node is built from its parameters. -/
theorem read_eq_ok {document : Json} {node : Node Float} (h : (read options document).result = .ok node) :
    ∃ kind params, named? document = some (kind, params) ∧ (build options kind params).result = .ok node := by
  rw [read_eq] at h
  cases hparts : parts? document with
  | none => rw [hparts] at h; cases h
  | some parts =>
    obtain ⟨tag, params⟩ := parts
    cases hkind : Kind.ofTag? tag with
    | none => simp only [hparts, hkind] at h; cases h
    | some kind =>
      simp only [hparts, hkind] at h
      refine ⟨kind, params, ?_, mapError_eq_ok h⟩
      simp only [named?, hparts, hkind, Option.bind_some, Option.map_some]

/-- A node has the kind that its document names, and its children are what the declared children are read as. -/
theorem read_children {document : Json} {node : Node Float} (h : (read options document).result = .ok node) :
    kind? document = some node.kind ∧
      List.Forall₂ (fun child item => (read options item).result = .ok child) node.children (children document) := by
  obtain ⟨kind, params, hnamed, hbuild⟩ := read_eq_ok h
  obtain ⟨hkind, hchildren⟩ := children_build hbuild
  refine ⟨?_, ?_⟩
  · rw [kind?, hnamed, hkind]
    rfl
  · rw [children, hnamed]
    exact readItems_eq_ok hchildren

mutual

/-- **A node mirrors the document that it is read from.** -/
theorem mirrors_of_read : ∀ {node : Node Float} {document : Json},
    (read options document).result = .ok node → Mirrors options node document
  | .leaf _, document, h => by
    obtain ⟨hkind, hchildren⟩ := read_children h
    have hnone : children document = [] := List.forall₂_nil_left_iff.1 hchildren
    exact .intro h hkind (by rw [hnone]; exact .nil)
  | .apply _ children, _, h => by
    obtain ⟨hkind, hchildren⟩ := read_children h
    have hall : List.Forall₂ (fun node item => (read options item).result = .ok node) children (Document.children _) :=
      hchildren
    exact .intro h hkind (mirrors_of_readAll hall)

theorem mirrors_of_readAll : ∀ {nodes : List (Node Float)} {documents : List Json},
    List.Forall₂ (fun node item => (read options item).result = .ok node) nodes documents →
      List.Forall₂ (Mirrors options) nodes documents
  | [], _, .nil => .nil
  | _ :: _, _, .cons h hrest => .cons (mirrors_of_read h) (mirrors_of_readAll hrest)

end

mutual

/-- A node has as many nodes as a document that it mirrors has documents. -/
theorem count_of_mirrors : ∀ {node : Node Float} {document : Json}, Mirrors options node document →
    node.count = count document
  | .leaf _, document, .intro _ _ hchildren => by
    have hnone : children document = [] := List.forall₂_nil_left_iff.1 hchildren
    rw [count_eq, hnone]
    rfl
  | .apply _ nodes, document, .intro _ _ hchildren => by
    have hlist : Tree.countList nodes = ((children document).map count).sum := countList_of_mirrors hchildren
    rw [Tree.count, count_eq, hlist]

theorem countList_of_mirrors : ∀ {nodes : List (Node Float)} {documents : List Json},
    List.Forall₂ (Mirrors options) nodes documents → Tree.countList nodes = (documents.map count).sum
  | [], _, .nil => rfl
  | node :: rest, _, .cons (b := item) h hrest => by
    rw [Tree.countList, List.map_cons, List.sum_cons, count_of_mirrors h, countList_of_mirrors hrest]

end

/-- A document whose tag is that of a kind names the kind. -/
theorem named?_tag (kind : Kind) (params : List (String × Json)) :
    named? (.object [("kind", .string kind.tag), ("params", .object params)]) = some (kind, params) := by
  show (Kind.ofTag? kind.tag).map (fun kind => (kind, params)) = _
  rw [Kind.ofTag?_tag]
  rfl

/-- **Reading neither drops nor adds nor reorders nodes.** A node has the kind that its document names, and each of its
children is what the document in the same place of the declared list is read as. So it is at every depth: the node
mirrors the document down to the last child, and there are as many nodes as there are documents. -/
theorem read_mirrors {document : Json} {node : Node Float} (h : (read options document).result = .ok node) :
    kind? document = some node.kind ∧
      List.Forall₂ (fun child item => (read options item).result = .ok child) node.children (children document) ∧
      Mirrors options node document ∧ node.count = count document := by
  obtain ⟨hkind, hchildren⟩ := read_children h
  have hmirrors := mirrors_of_read h
  exact ⟨hkind, hchildren, hmirrors, count_of_mirrors hmirrors⟩

/-- A difference of two files, which are not told apart by their kind, and of their hull the other way round. The
children that one of them is given are not looked at. -/
theorem read_mirrors_difference :
    let left : Json := .object [("kind", .string "import"), ("params", .object [("file", .string "left.stl")])]
    let right : Json := .object [("kind", .string "import"),
      ("params", .object [("file", .string "right.stl"), ("children", .array [left])])]
    let hull : Json := .object [("kind", .string "hull"), ("params", .object [("children", .array [right, left])])]
    let document : Json := .object [("kind", .string "difference"),
      ("params", .object [("children", .array [left, right, hull])])]
    let first : Node Float := .drawn (.imported "left.stl" 10 false)
    let second : Node Float := .drawn (.imported "right.stl" 10 false)
    let node : Node Float := .apply .difference [first, second, .apply .hull [second, first]]
    (read .standard document).result = .ok node ∧ children document = [left, right, hull] ∧
      kind? document = some .difference ∧
      List.Forall₂ (fun child item => (read .standard item).result = .ok child) node.children (children document) ∧
      Mirrors .standard node document ∧ node.count = count document := by
  intro left right hull document first second node
  have hleft : read .standard left = pure first := (read_named (named?_tag .imported _)).trans rfl
  have hright : read .standard right = ⟨[⟨"children", .imported⟩], .ok second⟩ :=
    (read_named (named?_tag .imported _)).trans rfl
  have hpair : readItems .standard [right, left] = ⟨[⟨"children", .imported⟩], .ok [second, first]⟩ := by
    simp only [readItems, hleft, hright]
    rfl
  have hhull : read .standard hull = ⟨[⟨"children", .imported⟩], .ok (.apply .hull [second, first])⟩ := by
    refine (read_named (named?_tag .hull _)).trans ?_
    rw [build, supply, supply, readList, hpair]
    rfl
  have hitems : readItems .standard [left, right, hull] =
      ⟨[⟨"children", .imported⟩, ⟨"children", .imported⟩], .ok node.children⟩ := by
    simp only [readItems, hleft, hright, hhull]
    rfl
  have hnamed : named? document = some (.difference, [("children", .array [left, right, hull])]) :=
    named?_tag .difference _
  have h : (read .standard document).result = .ok node := by
    rw [read_named hnamed, build, supply, supply, readList, hitems]
    rfl
  have hdeclared : children document = [left, right, hull] := by
    rw [children, hnamed]
    rfl
  exact ⟨h, hdeclared, read_mirrors h⟩

end Document
end SolidScript
