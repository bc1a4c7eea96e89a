import SolidScript.Proofs.Document.Children
import SolidScript.Proofs.Double.Arithmetic
import SolidScript.Proofs.Double.Scientific
import SolidScript.Proofs.Json.Readable
import SolidScript.Proofs.Json.Record
import SolidScript.Proofs.Shape.Measures

/-!
# The measures of nodes that are read

The measures of a node that is read are finite (`finite_of_read`): a value is coerced to finite measures if a text can
hold it (`Coerce.finite_value?`), the measures that stand in for missing ones are finite (`schema_hasFinite`), and a
node is put together from the values as they are (`Values.finite_construct`). So every node that is built is finite,
whether from a document, from a kind and its parameters or from a text (`finite_of_built`).
-/

namespace SolidScript

open Json (Exact)

/-- The measures of the value of a parameter. -/
def Value.measures : Value → List Float
  | ⟨.number, x⟩ => [x]
  | ⟨.vector2, v⟩ => v.toList
  | ⟨.vector3, v⟩ => v.toList
  | ⟨.angle, .single x⟩ => [x]
  | ⟨.angle, .euler v⟩ => v.toList
  | ⟨.points2, points⟩ => points.flatMap Vec2.toList
  | ⟨.points3, points⟩ => points.flatMap Vec3.toList
  | ⟨.matrix, m⟩ => m.columnMajor
  | ⟨.nodes, nodes⟩ => nodes.flatMap Node.measures
  | ⟨.integer, _⟩ | ⟨.boolean, _⟩ | ⟨.text, _⟩ | ⟨.flags3, _⟩ | ⟨.indices, _⟩ => []

/-- Whether every measure of a value is finite. -/
def Value.Finite (value : Value) : Prop := AllFinite value.measures

namespace Value

theorem finite_number {x : Float} : Finite ⟨.number, x⟩ ↔ x.isFinite = true := by
  simp [Finite, measures, AllFinite]

theorem finite_vector2 {v : Vec2 Float} : Finite ⟨.vector2, v⟩ ↔ AllFinite v.toList := Iff.rfl

theorem finite_vector3 {v : Vec3 Float} : Finite ⟨.vector3, v⟩ ↔ AllFinite v.toList := Iff.rfl

theorem finite_points2 {points : List (Vec2 Float)} :
    Finite ⟨.points2, points⟩ ↔ AllFinite (points.flatMap Vec2.toList) := Iff.rfl

theorem finite_points3 {points : List (Vec3 Float)} :
    Finite ⟨.points3, points⟩ ↔ AllFinite (points.flatMap Vec3.toList) := Iff.rfl

theorem finite_matrix {m : Matrix4 Float} : Finite ⟨.matrix, m⟩ ↔ AllFinite m.columnMajor := Iff.rfl

theorem finite_nodes {nodes : List (Node Float)} : Finite ⟨.nodes, nodes⟩ ↔ ∀ node ∈ nodes, node.Finite :=
  allFinite_flatMap

end Value

/-! ## Coercion -/

theorem exists_of_mapM {α β : Type} {f : α → Option β} {items : List α} {results : List β}
    (h : items.mapM f = some results) : ∀ result ∈ results, ∃ item ∈ items, f item = some result := by
  induction items generalizing results with
  | nil =>
    cases h
    nofun
  | cons item rest ih =>
    rw [List.mapM_cons] at h
    obtain ⟨first, hfirst, h⟩ := Option.bind_eq_some_iff.1 h
    obtain ⟨others, hothers, h⟩ := Option.bind_eq_some_iff.1 h
    cases h
    refine List.forall_mem_cons.2 ⟨⟨item, List.mem_cons_self, hfirst⟩, fun result hresult => ?_⟩
    obtain ⟨source, hsource, hread⟩ := ih hothers result hresult
    exact ⟨source, List.mem_cons_of_mem _ hsource, hread⟩

namespace Matrix4

theorem allFinite_columnMajor {m : Matrix4 Float} : AllFinite m.columnMajor ↔ ∀ r c, (m.cell r c).isFinite = true := by
  simp only [AllFinite, columnMajor, List.forall_mem_flatten, List.forall_mem_ofFn_iff]
  exact forall_comm

/-- Every cell is one of those that are given. -/
theorem mem_of_cells? {α : Type} {xs : List α} {cell : Fin 4 → α} (h : cells? xs = some cell) (i : Fin 4) :
    cell i ∈ xs := by
  unfold cells? at h
  split at h
  · cases h
    fin_cases i <;> simp
  · cases h

/-- Every row is one of those that are given, or the affine row. -/
theorem row_of_ofRows? {rows : List (Fin 4 → Float)} {m : Matrix4 Float} (h : ofRows? rows = some m) (r : Fin 4) :
    m.cell r ∈ rows ∨ m.cell r = affineRow := by
  unfold ofRows? at h
  split at h
  · obtain ⟨cell, hcell, rfl⟩ := Option.map_eq_some_iff.1 h
    have hmem := mem_of_cells? hcell r
    simp only [List.mem_cons, List.not_mem_nil, or_false] at hmem ⊢
    tauto
  · obtain ⟨cell, hcell, rfl⟩ := Option.map_eq_some_iff.1 h
    exact .inl (mem_of_cells? hcell r)

theorem isFinite_affineRow (c : Fin 4) : ((affineRow : Fin 4 → Float) c).isFinite = true := by
  unfold affineRow
  split <;> decide +kernel

end Matrix4

namespace Coerce

/-- The double of an integer that a text can hold is finite. -/
theorem isFinite_doubleOfInt {n : Int} (h : Json.Number.Exact (.integer n)) : (Json.doubleOfInt n).isFinite = true := by
  obtain ⟨hlow, hhigh⟩ := h
  have hcount : (Float.ofNat n.natAbs).isFinite = true := Double.isFinite_ofNat_of_le (by omega)
  unfold Json.doubleOfInt
  split
  · exact Double.isFinite_neg hcount
  · exact hcount

section Exact

variable {raw : Json} (hraw : Exact raw)
include hraw

theorem isFinite_number? {x : Float} (h : number? raw = some x) : x.isFinite = true := by
  unfold number? at h
  split at h
  · cases h
    have hn := Json.exact_number.1 hraw
    cases ‹Json.Number› with
    | integer n => exact isFinite_doubleOfInt hn
    | double x => exact hn
  · obtain ⟨-, hfinite⟩ := Option.filter_eq_some_iff.1 h
    exact hfinite
  · cases h

theorem exact_items? {items : List Json} (h : items? raw = some items) : ∀ item ∈ items, Exact item := by
  unfold items? at h
  split at h
  · cases h
    exact Json.exact_array.1 hraw
  · cases h

/-- What holds of all that is read from exact items holds of a list of them. -/
theorem forall_of_items {α : Type} {read : Json → Option α} {P : α → Prop}
    (hread : ∀ {item}, Exact item → ∀ {a}, read item = some a → P a) {as : List α}
    (h : ((items? raw).bind fun items => items.mapM read) = some as) : ∀ a ∈ as, P a := by
  obtain ⟨items, hitems, h⟩ := Option.bind_eq_some_iff.1 h
  intro a ha
  obtain ⟨item, hitem, hone⟩ := exists_of_mapM h a ha
  exact hread (exact_items? hraw hitems item hitem) hone

theorem allFinite_numbers? {xs : List Float} (h : numbers? raw = some xs) : AllFinite xs :=
  forall_of_items hraw isFinite_number? h

theorem allFinite_point2? {v : Vec2 Float} (h : point2? raw = some v) : AllFinite v.toList := by
  obtain ⟨xs, hxs, h⟩ := Option.bind_eq_some_iff.1 h
  have hfinite := allFinite_numbers? hraw hxs
  unfold Vec2.ofList? at h
  split at h
  · cases h
    exact hfinite
  · cases h

theorem allFinite_point3? {v : Vec3 Float} (h : point3? raw = some v) : AllFinite v.toList := by
  obtain ⟨xs, hxs, h⟩ := Option.bind_eq_some_iff.1 h
  have hfinite := allFinite_numbers? hraw hxs
  unfold Vec3.ofList? at h
  split at h
  · cases h
    exact hfinite
  · cases h

theorem allFinite_vector2? {v : Vec2 Float} (h : vector2? raw = some v) : AllFinite v.toList := by
  rcases Option.or_eq_some_iff.1 h with h | ⟨-, h⟩
  · obtain ⟨x, hx, rfl⟩ := Option.map_eq_some_iff.1 h
    have hfinite := isFinite_number? hraw hx
    simp [Vec2.all, Vec2.toList, AllFinite, hfinite]
  · exact allFinite_point2? hraw h

theorem allFinite_vector3? {v : Vec3 Float} (h : vector3? raw = some v) : AllFinite v.toList := by
  rcases Option.or_eq_some_iff.1 h with h | ⟨-, h⟩
  · obtain ⟨x, hx, rfl⟩ := Option.map_eq_some_iff.1 h
    have hfinite := isFinite_number? hraw hx
    simp [Vec3.all, Vec3.toList, AllFinite, hfinite]
  · exact allFinite_point3? hraw h

theorem finite_turn? {turn : Turn} (h : turn? raw = some turn) : Value.Finite ⟨.angle, turn⟩ := by
  rcases Option.or_eq_some_iff.1 h with h | ⟨-, h⟩
  · obtain ⟨x, hx, rfl⟩ := Option.map_eq_some_iff.1 h
    exact List.forall_mem_singleton.2 (isFinite_number? hraw hx)
  · obtain ⟨v, hv, rfl⟩ := Option.map_eq_some_iff.1 h
    exact allFinite_point3? hraw hv

theorem isFinite_row? {row : Fin 4 → Float} (h : row? raw = some row) : ∀ i, (row i).isFinite = true := by
  obtain ⟨xs, hxs, h⟩ := Option.bind_eq_some_iff.1 h
  have hfinite := allFinite_numbers? hraw hxs
  exact fun i => hfinite _ (Matrix4.mem_of_cells? h i)

theorem allFinite_matrix? {m : Matrix4 Float} (h : matrix? raw = some m) : AllFinite m.columnMajor := by
  obtain ⟨items, hitems, h⟩ := Option.bind_eq_some_iff.1 h
  obtain ⟨rows, hrows, h⟩ := Option.bind_eq_some_iff.1 h
  rw [Matrix4.allFinite_columnMajor]
  intro r
  rcases Matrix4.row_of_ofRows? h r with hrow | haffine
  · obtain ⟨item, hitem, hread⟩ := exists_of_mapM hrows _ hrow
    exact isFinite_row? (exact_items? hraw hitems item hitem) hread
  · rw [haffine]
    exact Matrix4.isFinite_affineRow

/-- **The values that are coerced from exact ones are finite.** -/
theorem finite_value? {t : ParamType} {content : t.Carrier} (h : value? t raw = some content) :
    Value.Finite ⟨t, content⟩ := by
  cases t with
  | number => exact List.forall_mem_singleton.2 (isFinite_number? hraw h)
  | vector2 => exact allFinite_vector2? hraw h
  | vector3 => exact allFinite_vector3? hraw h
  | angle => exact finite_turn? hraw h
  | points2 => exact allFinite_flatMap.2 (forall_of_items hraw allFinite_point2? h)
  | points3 => exact allFinite_flatMap.2 (forall_of_items hraw allFinite_point3? h)
  | matrix => exact allFinite_matrix? hraw h
  | nodes => cases h
  | integer | boolean | text | flags3 | indices => exact allFinite_nil

end Exact
end Coerce

/-! ## Construction -/

/-- Work whose steps give what is wanted of them. -/
theorem Yields.step {ε α β : Type} {P : β → Prop} {Q : α → Prop} {first : Except ε α} {next : α → Except ε β}
    (hfirst : Yields Q first) (hnext : ∀ a, Q a → Yields P (next a)) : Yields P (first >>= next) :=
  .bind fun a ha => hnext a (hfirst a ha)

namespace Values

/-- Whether every value that is held is finite. -/
def Finite (entries : List (String × Value)) : Prop := ∀ name value, find? name entries = some value → value.Finite

section Picking

variable {kind : Kind} {entries : List (String × Value)} (hentries : Finite entries)
include hentries

theorem finite_get (name : String) (type : ParamType) :
    Yields (fun content => Value.Finite ⟨type, content⟩) (get ⟨kind, entries⟩ name type) :=
  fun _ h => hentries name _ (find?_of_get h)

theorem finite_radius (name : String) {common : Float} (hcommon : common.isFinite = true) :
    Yields (fun r => r.isFinite = true) (radius ⟨kind, entries⟩ name common) := by
  refine .bind fun own hown => .pure ?_
  cases own with
  | none => exact hcommon
  | some r =>
    have hget : get ⟨kind, entries⟩ name .number = .ok r := by
      rw [get, hown]
      rfl
    exact Value.finite_number.1 (finite_get hentries name .number r hget)

theorem finite_rounding : Yields (fun rounding => AllFinite rounding.measures) (rounding ⟨kind, entries⟩) := by
  refine .step (finite_get hentries "round_r" .number) fun r hr => ?_
  refine .step (finite_get hentries "tool_height" .number) fun height hheight => ?_
  have hboth : AllFinite ([r] ++ [height]) := allFinite_append.2 ⟨hr, hheight⟩
  exact .pure hboth

theorem finite_rotation : Yields (fun rotation => AllFinite rotation.measures) (rotation ⟨kind, entries⟩) := by
  refine .step (finite_get hentries "a" .angle) fun turn hturn => ?_
  cases turn with
  | single angle =>
    refine .step (finite_get hentries "v" .vector3) fun axis haxis => ?_
    have hboth : AllFinite ([angle] ++ axis.toList) := allFinite_append.2 ⟨hturn, haxis⟩
    exact .pure hboth
  | euler angles => exact .pure hturn

/-- **A node that is made of finite values is finite.** -/
theorem finite_construct : Yields Node.Finite (construct ⟨kind, entries⟩) := by
  cases kind
  all_goals
    simp only [construct]
    repeat' first
      | refine .step (finite_get hentries _ _) fun _ _ => ?_
      | refine .step (finite_rounding hentries) fun _ _ => ?_
      | refine .step (finite_rotation hentries) fun _ _ => ?_
      | refine .step (finite_radius hentries _ (Value.finite_number.1 ‹_›)) fun _ _ => ?_
      | refine .bind fun _ _ => ?_
    refine .pure ?_
    simp_all [Node.finite_leaf, Node.finite_apply, Shape.measures, Primitive.measures, Curve.measures,
      RoundedBase.measures, Operation.measures, allFinite_cons, allFinite_nil, allFinite_append, Value.finite_number,
      Value.finite_vector2, Value.finite_vector3, Value.finite_points2, Value.finite_points3, Value.finite_matrix,
      Value.finite_nodes]

end Picking
end Values

/-! ## Defaults -/

/-- Whether the measures of a default are finite. -/
def Default.isFinite {t : ParamType} : Default t → Bool
  | .number x => x.isFinite
  | .vector3 v => v.toList.all Float.isFinite
  | _ => true

/-- Whether a parameter stands for finite measures where it is not given. -/
def Parameter.hasFinite (p : Parameter) : Bool :=
  match p.presence with
  | .default d => d.isFinite
  | _ => true

/-- Every default of a schema is finite. -/
theorem schema_hasFinite (kind : Kind) : ∀ p ∈ schema kind, p.hasFinite = true := by
  cases kind <;> decide +kernel

variable {options : Options}

theorem Default.finite_value (htool : options.toolHeight.isFinite = true) {t : ParamType} {d : Default t}
    (h : d.isFinite = true) : Value.Finite ⟨t, d.value options⟩ := by
  cases d with
  | number x => exact Value.finite_number.2 h
  | vector3 v => exact List.all_eq_true.1 h
  | toolHeight => exact Value.finite_number.2 htool
  | integer | boolean | text | flags3 | noNodes | resolution => exact allFinite_nil

theorem Parameter.finite_standIn (htool : options.toolHeight.isFinite = true) {p : Parameter}
    (hp : p.hasFinite = true) {value : Value} (h : p.standIn? options = some value) : value.Finite := by
  unfold Parameter.standIn? at h
  unfold Parameter.hasFinite at hp
  split at h
  · next d hd =>
    cases h
    rw [hd] at hp
    exact Default.finite_value htool hp
  · cases h

/-! ## Reading -/

namespace Document

open Values (find?)

theorem exists_of_forall₂ {α β : Type} {R : α → β → Prop} {as : List α} {bs : List β} (h : List.Forall₂ R as bs) :
    ∀ a ∈ as, ∃ b ∈ bs, R a b := by
  induction h with
  | nil => nofun
  | cons hhead _ ih =>
    refine List.forall_mem_cons.2 ⟨⟨_, List.mem_cons_self, hhead⟩, fun a ha => ?_⟩
    obtain ⟨b, hb, hab⟩ := ih a ha
    exact ⟨b, List.mem_cons_of_mem _ hb, hab⟩

/-- A document is an object, and its parameters are those of an object in it, if there are any. -/
theorem named?_eq_some {document : Json} {kind : Kind} {params : List (String × Json)}
    (h : named? document = some (kind, params)) : ∃ fields, document = .object fields ∧
      (params = [] ∨ Json.field? "params" fields = some (.object params)) := by
  obtain ⟨⟨tag, _⟩, hparts, h⟩ := Option.bind_eq_some_iff.1 h
  obtain ⟨_, -, he⟩ := Option.map_eq_some_iff.1 h
  cases he
  cases document with
  | object fields =>
    obtain ⟨_, -, hparts⟩ := Option.bind_eq_some_iff.1 hparts
    obtain ⟨_, hparams, hparts⟩ := Option.bind_eq_some_iff.1 hparts
    cases hparts
    exact ⟨fields, rfl, eq_of_paramsOf? hparams⟩
  | _ => cases hparts

theorem exact_named? {document : Json} {kind : Kind} {params : List (String × Json)}
    (h : named? document = some (kind, params)) (hdocument : Exact document) : ∀ field ∈ params, Exact field.2 := by
  obtain ⟨fields, rfl, rfl | hparams⟩ := named?_eq_some h
  · intro field hfield
    cases hfield
  · exact Json.exact_object.1 (Json.exact_object.1 hdocument _ (Json.mem_of_field? hparams))

/-- A value that is held stands in for a parameter that is not given, or is coerced from what is given for it. -/
theorem origin_of_find? {kind : Kind} {params : List (String × Json)} {entries : List (String × Value)}
    (h : (resolveAll options kind (supply options params) (schema kind)).result = .ok entries) {name : String}
    {value : Value} (hfound : find? name entries = some value) : ∃ p ∈ schema kind, p.standIn? options = some value ∨
      ∃ raw, Json.field? p.name params = some raw ∧
        (coerce kind p ⟨raw, readList options raw⟩).result = .ok value := by
  have hname : name ∈ (schema kind).map Parameter.name := by
    by_contra hundeclared
    rw [find?_resolveAll h hundeclared] at hfound
    cases hfound
  obtain ⟨p, hp, rfl⟩ := List.mem_map.1 hname
  have hresolve := find?_of_resolveAll h (schema_names_nodup kind) p hp
  rw [hfound, resolveOne, supplied?_supply] at hresolve
  refine ⟨p, hp, ?_⟩
  cases hfield : Json.field? p.name params with
  | none =>
    rw [hfield] at hresolve
    exact .inl (Except.ok.inj hresolve)
  | some raw =>
    rw [hfield] at hresolve
    obtain ⟨coerced, hcoerce, hresolve⟩ := Report.result_bind_eq_ok hresolve
    cases hresolve
    exact .inr ⟨raw, rfl, hcoerce⟩

/-- What is coerced from an exact value is finite, if the nodes are that are read from its items. -/
theorem finite_coerce {kind : Kind} {p : Parameter} {raw : Json} {value : Value} (hraw : Exact raw)
    (hread : ∀ items, raw = .array items → ∀ item ∈ items, ∀ node, (read options item).result = .ok node → node.Finite)
    (h : (coerce kind p ⟨raw, readList options raw⟩).result = .ok value) : value.Finite := by
  by_cases htype : p.type = .nodes
  · obtain ⟨items, nodes, rfl, hitems, rfl⟩ := coerce_nodes_eq_ok htype h
    refine Value.finite_nodes.2 fun child hchild => ?_
    obtain ⟨item, hitem, hone⟩ := exists_of_forall₂ (readItems_eq_ok hitems) child hchild
    exact hread items rfl item hitem child hone
  · rw [coerce_plain htype] at h
    cases hcontent : Coerce.value? p.type raw with
    | none =>
      rw [hcontent] at h
      cases h
    | some content =>
      rw [hcontent] at h
      cases h
      exact Coerce.finite_value? hraw hcontent

/-- **A node that is read from an exact document is finite**, if the tool height of the settings is. -/
theorem finite_of_read (htool : options.toolHeight.isFinite = true) {document : Json} {node : Node Float}
    (hdocument : Exact document) (h : (read options document).result = .ok node) : node.Finite := by
  obtain ⟨kind, params, hnamed, hbuild⟩ := read_eq_ok h
  obtain ⟨values, hvalues, hconstruct⟩ := Report.result_bind_eq_ok hbuild
  obtain ⟨-, entries, hentries, rfl⟩ := resolve_eq_ok hvalues
  refine Values.finite_construct ?_ node hconstruct
  intro name value hfound
  obtain ⟨p, hp, hstandIn | ⟨raw, hfield, hcoerce⟩⟩ := origin_of_find? hentries hfound
  · exact p.finite_standIn htool (schema_hasFinite kind p hp) hstandIn
  · have hraw : Exact raw := exact_named? hnamed hdocument _ (Json.mem_of_field? hfield)
    refine finite_coerce hraw ?_ hcoerce
    rintro items rfl item hitem child hread
    -- the item is smaller than the document that holds it
    have hsize := List.sizeOf_lt_of_mem hitem
    have hlist := sizeOf_field? hfield
    have harray := Json.array.sizeOf_spec items
    have hnested := sizeOf_named? hnamed
    exact finite_of_read htool (Json.exact_array.1 hraw item hitem) hread
termination_by sizeOf document
decreasing_by omega

/-- A node that is read from a text is read from the readable document that the text holds. -/
theorem readText_eq_ok {text : String} {node : Node Float} (h : (readText options text).result = .ok node) :
    ∃ document, Json.parse? text = some document ∧ document.isReadable = true ∧
      (read options document.canonical).result = .ok node := by
  unfold readText Json.read? at h
  split at h
  · next hread =>
    split at hread
    · next document hparse =>
      split at hread
      · next hreadable =>
        cases hread
        exact ⟨document, hparse, hreadable, h⟩
      · cases hread
    · cases hread
  · cases h

/-- **Every number of a node that is built is finite**, whichever way it is built: from a document, from a kind and its
parameters, or from a text, if the tool height of the settings is finite and so is every number that is given. A text
can give no other number. -/
theorem finite_of_built (htool : options.toolHeight.isFinite = true) :
    (∀ document node, Exact document → (read options document).result = .ok node → node.Finite) ∧
      (∀ kind params node, (∀ field ∈ params, Exact field.2) → (build options kind params).result = .ok node →
        node.Finite) ∧
      (∀ text node, (readText options text).result = .ok node → node.Finite) := by
  refine ⟨fun document node => finite_of_read htool, fun kind params node hparams hbuild => ?_,
    fun text node htext => ?_⟩
  · -- the kind and its parameters are read from the document that names them
    have hdocument : Exact (.object [("kind", .string kind.tag), ("params", .object params)]) := by
      simp only [Json.exact_object, List.forall_mem_cons, Exact.string, true_and]
      exact ⟨hparams, List.forall_mem_nil _⟩
    refine finite_of_read htool hdocument ?_
    rw [read_named (named?_tag kind params), Report.mapError, hbuild]
    rfl
  · obtain ⟨document, hparse, hreadable, hread⟩ := readText_eq_ok htext
    exact finite_of_read htool (Json.exact_canonical (Json.exact_parse? hparse hreadable)) hread

/-- Lengths that are spelled by texts, for a move of a rounded sphere. -/
def spelledMove : Json :=
  .object [("kind", .string "translate"), ("params", .object [
    ("v", .array [.string "1e3", .ofNat 0, .string "-0.5"]),
    ("children", .array [.object [("kind", .string "rounded_sphere"), ("params", .object [
      ("r", .string "2.5"), ("round_r", .ofNat 1)])]])])]

/-- Six lengths, the last of them from the settings. -/
theorem finite_of_built_spelled :
    Options.standard.toolHeight.isFinite = true ∧ Exact spelledMove ∧
      ∃ node, (read .standard spelledMove).result = .ok node ∧ node.Finite ∧
        node.measures = [1000, 0, -0.5, 2.5, 1, 0.001] := by
  have htool : Options.standard.toolHeight.isFinite = true := by decide +kernel
  have hexact : Exact spelledMove := by
    have hnumber (n : Nat) (h : n < 2 ^ 63) : Exact (.ofNat n) := .number ⟨by omega, by omega⟩
    simp [spelledMove, Json.exact_object, Json.exact_array, Exact.string, hnumber]
  have hmeasures : (read .standard spelledMove).result.toOption.map Node.measures =
      some [1000, 0, -0.5, 2.5, 1, 0.001] := by
    decide +kernel
  cases hread : (read .standard spelledMove).result with
  | error error =>
    rw [hread] at hmeasures
    cases hmeasures
  | ok node =>
    rw [hread] at hmeasures
    exact ⟨htool, hexact, node, rfl, (finite_of_built htool).1 _ _ hexact hread, Option.some.inj hmeasures⟩

end Document
end SolidScript
