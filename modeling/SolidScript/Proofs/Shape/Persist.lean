import SolidScript.Proofs.Shape.Measures
import SolidScript.Proofs.Shape.Stored
import SolidScript.Script.Render

/-!
# Trees are read back from their texts

* `exact_store`: the form that a node is stored in can be held by a text if and only if its measures are finite.
* `ofText?_text`: the text of such a form stands for the node that it was written from, unless the form nests deeper
  than is read; then it stands for nothing.
-/

namespace SolidScript.Stored

open Json (Exact exact_array exact_object ofDouble ofVec2 ofVec3 ofWord32 ofIndices)

/-! ## What a text can hold -/

theorem exact_ofDouble {x : Float} : Exact (ofDouble x) ↔ x.isFinite = true := Json.exact_number

theorem exact_ofNat {n : Nat} (h : n < 2 ^ 64) : Exact (Json.ofNat n) := by
  refine .number ⟨?_, ?_⟩ <;> omega

theorem exact_ofWord32 (n : UInt32) : Exact (ofWord32 n) :=
  exact_ofNat (Nat.lt_trans n.toNat_lt (by decide))

theorem exact_ofIndices (lists : List (List UInt64)) : Exact (ofIndices lists) := by
  simp only [ofIndices, exact_array, List.forall_mem_map]
  exact fun list _ i _ => exact_ofNat i.toNat_lt

theorem exact_doubles {xs : List Float} : Exact (.array (xs.map ofDouble)) ↔ AllFinite xs := by
  simp only [exact_array, List.forall_mem_map, exact_ofDouble, AllFinite]

theorem exact_ofVec2 {v : Vec2 Float} : Exact (ofVec2 v) ↔ AllFinite v.toList := exact_doubles

theorem exact_ofVec3 {v : Vec3 Float} : Exact (ofVec3 v) ↔ AllFinite v.toList := exact_doubles

theorem exact_ofPoints2 {points : List (Vec2 Float)} :
    Exact (ofPoints2 points) ↔ AllFinite (points.flatMap Vec2.toList) := by
  simp only [ofPoints2, exact_array, List.forall_mem_map, exact_ofVec2, allFinite_flatMap]

theorem exact_ofPoints3 {points : List (Vec3 Float)} :
    Exact (ofPoints3 points) ↔ AllFinite (points.flatMap Vec3.toList) := by
  simp only [ofPoints3, exact_array, List.forall_mem_map, exact_ofVec3, allFinite_flatMap]

theorem exact_ofPaths (paths : Option (List (List UInt64))) : Exact ((paths.map ofIndices).getD .null) := by
  cases paths with
  | none => exact .null
  | some lists => exact exact_ofIndices lists

theorem exact_ofRounding {rounding : Rounding Float} : Exact (ofRounding rounding) ↔ AllFinite rounding.measures := by
  simp [ofRounding, exact_object, exact_ofDouble, Rounding.measures, allFinite_cons, allFinite_nil]

theorem exact_flags (v : Vec3 Bool) : Exact (.array (v.toList.map Json.bool)) := by
  simp only [exact_array, List.forall_mem_map]
  exact fun b _ => .bool b

theorem exact_ofRotation {rotation : Rotation Float} : Exact (ofRotation rotation) ↔ AllFinite rotation.measures := by
  cases rotation <;>
    simp [ofRotation, exact_object, exact_ofDouble, exact_ofVec3, Rotation.measures, allFinite_cons]

/-- The fields of a shape can be written if and only if its measures are finite. -/
theorem exact_shape {shape : Shape Float} : Exact (.object (shapeFields shape)) ↔ AllFinite shape.measures := by
  rw [exact_object]
  rcases shape with p | ⟨_ | _, _⟩ | ⟨_ | _ | _ | _ | _, _, _⟩
  · cases p
    all_goals
      simp [shapeFields, primitiveFields, labelFields, Shape.measures, Primitive.measures, allFinite_cons,
        allFinite_nil, exact_ofDouble, exact_ofVec2, exact_ofVec3, exact_ofPoints2, exact_ofPoints3, exact_ofPaths,
        exact_ofIndices, exact_ofWord32, Exact.bool, Exact.string]
  all_goals
    simp [shapeFields, derivedFields, Shape.measures, Curve.measures, RoundedBase.measures, allFinite_cons,
      allFinite_nil, allFinite_append, exact_ofDouble, exact_ofVec2, exact_ofVec3, exact_ofPoints3, exact_ofRounding,
      exact_ofIndices, exact_ofWord32, Exact.bool, Exact.string]

/-- So can the content of an operation, if its children can be written. -/
theorem exact_operation {op : Operation Float} {children : Json} :
    Exact (operationContent op children) ↔ AllFinite op.measures ∧ Exact children := by
  cases op
  all_goals
    simp [operationContent, Operation.measures, exact_object, exact_ofVec3, exact_doubles, exact_flags,
      exact_ofRotation, Exact.string, allFinite_nil]

mutual

/-- **A node can be written if and only if its measures are finite.** -/
theorem exact_store : ∀ {node : Node Float}, Exact (store node) ↔ node.Finite
  | .leaf shape => by
    rw [store, exact_object, List.forall_mem_singleton, Node.finite_leaf]
    exact exact_shape
  | .apply op children => by
    rw [store, exact_object, List.forall_mem_singleton, Node.finite_apply]
    exact exact_operation.trans (and_congr_right fun _ => exact_array.trans exact_storeList)

theorem exact_storeList : ∀ {nodes : List (Node Float)},
    (∀ item ∈ storeList nodes, Exact item) ↔ ∀ node ∈ nodes, node.Finite
  | [] => by simp [storeList]
  | node :: rest => by
    rw [storeList, List.forall_mem_cons, List.forall_mem_cons, exact_store, exact_storeList]

end

/-! ## Texts -/

/-- The text in which a node is stored. -/
def text (node : Node Float) : String := (store node).compact

/-- The node that is stored in a text. -/
def ofText? (text : String) : Option (Node Float) := (Json.parse? text).bind restore?

/-- A node is read back from its text unless its form nests too deep for the reader. -/
theorem ofText?_text {node : Node Float} (h : node.Finite) :
    ofText? (text node) = if (store node).depth ≤ Json.depthLimit then some node else none := by
  rw [ofText?, text, Json.parse?_compact (exact_store.2 h)]
  exact restores_store node Json.depthLimit

/-- **Stored trees are read back.** The text of a node with finite measures stands for the same node, which is rendered
alike in every style, if the stored form nests no more containers than are read; if it nests more, the text stands for
nothing. -/
theorem stored_reads_back (node : Node Float) (h : node.Finite) :
    ((store node).depth ≤ Json.depthLimit →
      ∃ read, ofText? (text node) = some read ∧ read = node ∧
        ∀ style, Node.render style read = Node.render style node) ∧
      (Json.depthLimit < (store node).depth → ofText? (text node) = none) := by
  rw [ofText?_text h]
  constructor
  · intro hdepth
    exact ⟨node, if_pos hdepth, rfl, fun _ => rfl⟩
  · intro hdepth
    exact if_neg (Nat.not_le.2 hdepth)

/-- A turned hull of a label with characters that are escaped, a rounded ball, a moved polygon and a loop. -/
theorem stored_reads_back_hull :
    let label : Label Float := ⟨"\"a\\b\"\n\x01é", 10, "Mono", "left", "top", 0.1, "ltr", "en", "latin", 4294967295⟩
    let polygon : Node Float :=
      Node.drawn (.polygon [⟨0, 0⟩, ⟨1e300, 0⟩, ⟨0, -0.0⟩] (some [[0, 1, 18446744073709551615]]) 10)
    let node : Node Float := .apply (.rotate (.about 22.5 ⟨0, 0, 1⟩)) [.apply .hull [Node.drawn (.text label),
      .leaf (.derived (.rounded (.sphere 2) ⟨0.3, 5e-324⟩ 32)),
      .apply (.transform ⟨fun r c => if r = c then 1 else 0⟩) [polygon], .apply (.loop "i = [0 : 3]") []]]
    node.Finite ∧ (store node).depth ≤ Json.depthLimit ∧
      ∃ read, ofText? (text node) = some read ∧ read = node ∧
        ∀ style, Node.render style read = Node.render style node := by
  intro label polygon node
  have hfinite : node.Finite := by decide +kernel
  have hdepth : (store node).depth ≤ Json.depthLimit := by decide +kernel
  exact ⟨hfinite, hdepth, (stored_reads_back node hfinite).1 hdepth⟩

end SolidScript.Stored
