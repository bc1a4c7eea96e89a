import SolidScript.Proofs.Document.Entries
import SolidScript.Proofs.Document.Verdict
import SolidScript.Proofs.Shape.Parts

/-!
# Documents of nodes

`Node.document` writes a node as the document that gives every parameter, under the name that the schema has for it.

* `Survives.resolve_eq`: the parameters of such a document are resolved to the values it was made from, and what stands
  in for the others.
* `read_document`: so reading the document of a node gives the node, without a warning.
-/

namespace SolidScript

open Values

/-! ## Values that a kind admits -/

theorem mem_of_find? {name : String} {value : Value} {entries : List (String × Value)}
    (h : find? name entries = some value) : (name, value) ∈ entries := by
  induction entries with
  | nil => cases h
  | cons entry rest ih =>
    obtain ⟨key, first⟩ := entry
    by_cases hkey : key = name
    · rw [find?, if_pos hkey] at h
      cases h
      rw [hkey]
      exact List.mem_cons_self
    · rw [find?, if_neg hkey] at h
      exact List.mem_cons_of_mem _ (ih h)

section Admitted

variable {kind : Kind} {entries : List (String × Value)} (h : admits kind entries = true)
include h

theorem type_of_admits {p : Parameter} (hp : p ∈ schema kind) {value : Value}
    (hvalue : find? p.name entries = some value) : value.type = p.type := by
  have hall := List.all_eq_true.1 (Bool.and_eq_true_iff.1 h).1 p hp
  rw [hvalue] at hall
  exact eq_of_beq hall

theorem isSome_of_admits {p : Parameter} (hp : p ∈ schema kind) (hr : p.isRequired = true) :
    (find? p.name entries).isSome := by
  have hall := List.all_eq_true.1 (Bool.and_eq_true_iff.1 h).1 p hp
  cases hvalue : find? p.name entries with
  | some value => rfl
  | none => rw [hvalue, hr] at hall; cases hall

theorem declared_of_admits {name : String} {value : Value} (hentry : (name, value) ∈ entries) :
    ((schema kind).any fun p => p.name == name) = true :=
  List.all_eq_true.1 (Bool.and_eq_true_iff.1 h).2 _ hentry

end Admitted

namespace Document

/-! ## Resolving encoded values -/

/-- The parameters that give values. -/
def paramsOf (documents : List Json) (entries : List (String × Value)) : List (String × Json) :=
  entries.map fun (name, value) => (name, Json.encode documents value)

/-- The document of a kind that gives values. -/
def documentOf (kind : Kind) (documents : List Json) (entries : List (String × Value)) : Json :=
  .object [("kind", .string kind.tag), ("params", .object (paramsOf documents entries))]

theorem parts?_documentOf (kind : Kind) (documents : List Json) (entries : List (String × Value)) :
    parts? (documentOf kind documents entries) = some (kind.tag, paramsOf documents entries) := rfl

/-- A value as it is given to a parameter. -/
def suppliedOf (options : Options) (documents : List Json) (value : Value) : Supplied :=
  ⟨Json.encode documents value, readList options (Json.encode documents value)⟩

variable {options : Options} {kind : Kind} {documents : List Json} {entries : List (String × Value)}

theorem field?_paramsOf (name : String) (entries : List (String × Value)) :
    Json.field? name (paramsOf documents entries) = (find? name entries).map (Json.encode documents) := by
  induction entries with
  | nil => rfl
  | cons entry rest ih =>
    rw [paramsOf, List.map_cons, Json.field?, find?]
    split
    · rfl
    · exact ih

theorem supplied?_paramsOf (name : String) :
    supplied? name (supply options (paramsOf documents entries)) =
      (find? name entries).map (suppliedOf options documents) := by
  rw [supplied?_supply, field?_paramsOf, Option.map_map]
  rfl

theorem supply_eq_map (params : List (String × Json)) :
    supply options params = params.map fun (name, value) => (name, ⟨value, readList options value⟩) := by
  induction params with
  | nil =>
    rw [supply]
    rfl
  | cons param rest ih => rw [supply, ih, List.map_cons]

/-- A value is coerced to itself if its indices fit and the documents are those of its nodes. -/
theorem coerce_suppliedOf {p : Parameter} {value : Value} (htype : value.type = p.type) (hfit : value.Fits)
    (hnodes : ∀ nodes, value = ⟨.nodes, nodes⟩ → readItems options documents = pure nodes) :
    coerce kind p (suppliedOf options documents value) = pure value := by
  obtain ⟨name, type, presence⟩ := p
  obtain ⟨_, content⟩ := value
  cases htype
  by_cases hn : type = .nodes
  -- a list of nodes is not coerced: its documents have been read beforehand
  · subst hn
    rw [coerce_nodes rfl]
    simp only [suppliedOf, Json.encode, readList, hnodes content rfl]
    rfl
  · rw [coerce_plain hn]
    simp only [suppliedOf, Coerce.value?_encode documents hn hfit]
    rfl

/-- Values that survive being encoded: the kind admits them, their indices fit, and the documents are read as the nodes
that are among them. -/
structure Survives (options : Options) (kind : Kind) (documents : List Json) (entries : List (String × Value)) :
    Prop where
  admits : admits kind entries = true
  fits : ∀ entry ∈ entries, entry.2.Fits
  nodes : ∀ entry ∈ entries, ∀ nodes, entry.2 = ⟨.nodes, nodes⟩ → readItems options documents = pure nodes

namespace Survives

variable (survives : Survives options kind documents entries)
include survives

theorem resolveOne_eq {p : Parameter} (hp : p ∈ schema kind) :
    resolveOne options kind (supply options (paramsOf documents entries)) p =
      pure ((find? p.name entries).or (p.standIn? options)) := by
  rw [resolveOne, supplied?_paramsOf]
  cases hvalue : find? p.name entries with
  | none => rfl
  | some value =>
    have hentry := mem_of_find? hvalue
    simp only [Option.map_some]
    rw [coerce_suppliedOf (type_of_admits survives.admits hp hvalue) (survives.fits _ hentry) (survives.nodes _ hentry)]
    rfl

theorem resolveAll_eq {ps : List Parameter} (h : ∀ p ∈ ps, p ∈ schema kind) :
    resolveAll options kind (supply options (paramsOf documents entries)) ps = pure (complete options entries ps) := by
  induction ps with
  | nil => rfl
  | cons p rest ih =>
    have hrest := ih fun q hq => h q (List.mem_cons_of_mem _ hq)
    rw [resolveAll, survives.resolveOne_eq (h p List.mem_cons_self), hrest]
    rfl

theorem firstMissing?_eq_none :
    firstMissing? (supply options (paramsOf documents entries)) (schema kind) = none := by
  refine List.find?_eq_none.2 fun p hp => ?_
  rw [supplied?_paramsOf, Option.isNone_map]
  cases hr : p.isRequired with
  | false => exact Bool.false_ne_true
  | true =>
    have hsome := isSome_of_admits survives.admits hp hr
    rw [Option.isNone_eq_false_iff.2 hsome]
    exact Bool.false_ne_true

theorem unknownKeys_eq_nil : unknownKeys kind (schema kind) (supply options (paramsOf documents entries)) = [] := by
  rw [unknownKeys, List.map_eq_nil_iff, List.filter_eq_nil_iff]
  rintro ⟨name, _⟩ hmem
  rw [supply_eq_map, paramsOf, List.map_map] at hmem
  obtain ⟨⟨_, value⟩, hentry, he⟩ := List.mem_map.1 hmem
  cases he
  simp [declared_of_admits survives.admits hentry]

/-- **The parameters that give values are resolved to them**, and nothing is warned about. -/
theorem resolve_eq :
    resolve options kind (supply options (paramsOf documents entries)) =
      pure ⟨kind, complete options entries (schema kind)⟩ := by
  rw [resolve, survives.firstMissing?_eq_none]
  simp only
  rw [survives.resolveAll_eq fun _ => id, survives.unknownKeys_eq_nil]
  rfl

/-- The document that gives values is read as the node that is made of them. -/
theorem read_eq {node : Node Float}
    (hconstruct : construct ⟨kind, complete options entries (schema kind)⟩ = .ok node) :
    read options (documentOf kind documents entries) = pure node := by
  rw [Document.read_eq, parts?_documentOf]
  simp only [Kind.ofTag?_tag]
  rw [build, buildSupplied, survives.resolve_eq]
  show (Report.ofExcept (construct _)).mapError DocumentError.node = _
  rw [hconstruct]
  rfl

end Survives
end Document

namespace Node

open Document

/-! ## Documents -/

mutual

/-- The document of a node that gives every parameter; `common` is the radius that is given beside those of the ends of
a cylinder. -/
def document (common : Node Float → Float) : Node Float → Json
  | .leaf shape => documentOf (kind (.leaf shape)) [] (shape.entries (common (.leaf shape)))
  | .apply op children => documentOf op.kind (documents common children) (op.entries children)

/-- The documents of nodes. -/
def documents (common : Node Float → Float) : List (Node Float) → List Json
  | [] => []
  | node :: rest => document common node :: documents common rest

end

variable (options : Options) (common : Node Float → Float)

mutual

/-- **The document of a node is read as the node**, without any warning, if its indices fit into 32 bits. -/
theorem read_document : ∀ node : Node Float, (∀ shape ∈ node.leaves, IndicesFit shape.indexLists) →
    Document.read options (document common node) = pure node
  | .leaf shape, h => by
    have survives : Survives options (kind (.leaf shape)) [] (shape.entries (common (.leaf shape))) :=
      { admits := admits_shape shape
        fits := shape.fits_entries (h shape (List.mem_singleton.2 rfl))
        -- no parameter of a shape is a list of nodes
        nodes := fun entry hentry _ he =>
          absurd (congrArg Value.type he) (shape.nodes_notMem_entries entry hentry) }
    exact survives.read_eq (construct_shape shape)
  | .apply op children, h => by
    have survives : Survives options op.kind (documents common children) (op.entries children) :=
      { admits := admits_operation op children
        fits := op.fits_entries children
        nodes := fun entry hentry nodes he => by
          rw [Operation.nodes_of_entries entry hentry he]
          exact readItems_documents children h }
    exact survives.read_eq (construct_operation op children)

theorem readItems_documents : ∀ nodes : List (Node Float),
    (∀ shape ∈ Tree.leavesList nodes, IndicesFit shape.indexLists) →
      readItems options (documents common nodes) = pure nodes
  | [], _ => by
    rw [documents, readItems]
  | node :: rest, h => by
    rw [documents, readItems, read_document node fun shape hshape => h shape (List.mem_append_left _ hshape),
      readItems_documents rest fun shape hshape => h shape (List.mem_append_right _ hshape)]
    rfl

end

/-- **Every node can be had from a document**, and every parameter of the document lands in its own field. -/
theorem document_reads_back (node : Node Float) (h : ∀ shape ∈ node.leaves, IndicesFit shape.indexLists) :
    (Document.read options (document common node)).result = .ok node ∧
      (Document.read options (document common node)).warnings = [] := by
  rw [read_document options common node h]
  exact ⟨rfl, rfl⟩

/-- A turned solid beside a loop without a body; the last index is the greatest that fits. -/
theorem document_reads_back_turn :
    let node : Node Float :=
      .apply (.rotate (.about 90 ⟨0, 0, 1⟩))
        [drawn (.polyhedron [⟨0, 0, 0⟩, ⟨1, 0, 0⟩] [[0, 1, 4294967295]] 10), .apply (.loop "i = [0 : 3]") []]
    (∀ shape ∈ node.leaves, IndicesFit shape.indexLists) ∧
      (Document.read .standard (document (fun _ => 1) node)).result = .ok node ∧
      (Document.read .standard (document (fun _ => 1) node)).warnings = [] := by
  intro node
  have h : ∀ shape ∈ node.leaves, IndicesFit shape.indexLists := by
    intro shape hshape
    obtain rfl : shape = .primitive (.polyhedron [⟨0, 0, 0⟩, ⟨1, 0, 0⟩] [[0, 1, 4294967295]] 10) := by
      simpa [node, Tree.leaves, Tree.leavesList] using hshape
    exact (by decide : IndicesFit [[0, 1, 4294967295]])
  exact ⟨h, document_reads_back .standard (fun _ => 1) node h⟩

end Node
end SolidScript
