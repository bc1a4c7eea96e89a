import SolidScript.Proofs.Document.Finite
import SolidScript.Proofs.Shape.Persist

/-!
# What is read can be stored

A node is stored at most three containers deeper than the document that it is read from (`depth_store_of_read`): an
operation is declared with its children in three containers and stored with them in no more, so only the innermost
node can be nested deeper. Its measures are finite, so its text is read back unless it nests too deep
(`read_persists`). There are documents for which it does: a turn is declared in two containers and stored in five.
-/

namespace SolidScript

open Json (Exact exact_array exact_object depthFields depthItems depthFields_le_iff depthItems_le_iff)

namespace Stored

/-! ## The depth of stored forms -/

theorem depth_list_le {items : List Json} {n : Nat} (h : ∀ item ∈ items, item.depth ≤ n) :
    (Json.array items).depth ≤ n + 1 :=
  Nat.succ_le_succ (depthItems_le_iff.2 h)

theorem depth_doubles_le (xs : List Float) : (Json.array (xs.map Json.ofDouble)).depth ≤ 1 :=
  depth_list_le (List.forall_mem_map.2 fun _ _ => Nat.le_refl 0)

theorem depth_ofVec2 (v : Vec2 Float) : (Json.ofVec2 v).depth = 1 := rfl

theorem depth_ofVec3 (v : Vec3 Float) : (Json.ofVec3 v).depth = 1 := rfl

theorem depth_ofPoints2_le (points : List (Vec2 Float)) : (ofPoints2 points).depth ≤ 2 :=
  depth_list_le (List.forall_mem_map.2 fun v _ => (depth_ofVec2 v).le)

theorem depth_ofPoints3_le (points : List (Vec3 Float)) : (ofPoints3 points).depth ≤ 2 :=
  depth_list_le (List.forall_mem_map.2 fun v _ => (depth_ofVec3 v).le)

theorem depth_ofIndices_le (lists : List (List UInt64)) : (Json.ofIndices lists).depth ≤ 2 :=
  depth_list_le (List.forall_mem_map.2 fun _ _ => depth_list_le (List.forall_mem_map.2 fun _ _ => Nat.le_refl 0))

theorem depth_shapeFields_le (shape : Shape Float) : depthFields (shapeFields shape) ≤ 2 := by
  have hrounding (rounding : Rounding Float) : (ofRounding rounding).depth = 1 := rfl
  rw [depthFields_le_iff]
  rcases shape with p | ⟨_ | _, _⟩ | ⟨_ | _ | _ | _ | _, _, _⟩
  rcases p with _ | _ | _ | _ | _ | _ | _ | ⟨_, _ | _, _⟩ | _ | _
  all_goals
    simp [shapeFields, primitiveFields, derivedFields, labelFields, depth_ofVec2, depth_ofVec3, hrounding,
      depth_ofPoints2_le, depth_ofPoints3_le, depth_ofIndices_le, Json.depth]

theorem depth_store_leaf_le (shape : Shape Float) : (store (.leaf shape)).depth ≤ 4 := by
  have hfields := depth_shapeFields_le shape
  simp only [store, Json.depth, depthFields]
  omega

theorem depth_ofRotation_le (rotation : Rotation Float) : (ofRotation rotation).depth ≤ 3 := by
  cases rotation with
  | euler angles => simp [ofRotation, Json.depth, depthFields, depth_ofVec3]
  | about angle axis => simp [ofRotation, Json.depth, depthFields, depth_ofVec3]

theorem storeList_eq_map (nodes : List (Node Float)) : storeList nodes = nodes.map store := by
  induction nodes with
  | nil => rfl
  | cons node rest ih => rw [storeList, List.map_cons, ih]

/-- An operation nests its children in three containers; only a turn can nest deeper than its children do. -/
theorem depth_store_apply_le (op : Operation Float) (children : List (Node Float)) :
    (store (.apply op children)).depth ≤ depthItems (storeList children) + 3 ∨
      op.kind = .rotate ∧ (store (.apply op children)).depth ≤ 5 := by
  cases op with
  | rotate rotation =>
    have hrotation := depth_ofRotation_le rotation
    have hstore : (store (.apply (.rotate rotation) children)).depth =
        max (ofRotation rotation).depth (depthItems (storeList children) + 1) + 2 := by
      simp [store, operationContent, Json.depth, depthFields]
    rcases le_total (ofRotation rotation).depth (depthItems (storeList children) + 1) with hle | hle
    · left
      omega
    · right
      exact ⟨rfl, by omega⟩
  | resize size auto =>
    have hflags : depthItems (auto.toList.map Json.bool) = 0 := rfl
    left
    simp only [store, operationContent, depthFields, hflags, depth_ofVec3, Json.depth]
    omega
  | transform matrix =>
    have hmatrix := depth_doubles_le matrix.columnMajor
    left
    simp only [store, operationContent, depthFields, Json.depth] at hmatrix ⊢
    omega
  | _ =>
    left
    simp only [store, operationContent, depthFields, depth_ofVec3, Json.depth]
    omega

end Stored

namespace Document

open Stored (store storeList ofText?)

variable {options : Options}

/-! ## The depth of documents -/

/-- The parameters of a document nest in two containers, if it has any. -/
theorem depth_named? {document : Json} {kind : Kind} {params : List (String × Json)}
    (h : named? document = some (kind, params)) :
    1 ≤ document.depth ∧ (params = [] ∨ depthFields params + 2 ≤ document.depth) := by
  obtain ⟨fields, rfl, hparams⟩ := named?_eq_some h
  refine ⟨Nat.succ_le_succ (Nat.zero_le _), hparams.imp_right fun hfield => ?_⟩
  have hle : (Json.object params).depth ≤ depthFields fields :=
    depthFields_le_iff.1 le_rfl _ (Json.mem_of_field? hfield)
  simp only [Json.depth] at hle ⊢
  omega

/-- A document that is declared as a child nests in three containers. -/
theorem depth_of_mem_children {document item : Json} (h : item ∈ children document) :
    item.depth + 3 ≤ document.depth := by
  unfold children at h
  split at h
  · next kind params hnamed =>
    unfold listed at h
    split at h
    · split at h
      · next p hp items hfield =>
        have hlist : (Json.array items).depth ≤ depthFields params :=
          depthFields_le_iff.1 le_rfl _ (Json.mem_of_field? hfield)
        have hitem : item.depth ≤ depthItems items := depthItems_le_iff.1 le_rfl item h
        rcases (depth_named? hnamed).2 with rfl | hdepth
        · cases hfield
        · simp only [Json.depth] at hlist
          omega
      · cases h
    · cases h
  · cases h

/-- A turn must be given its angle. -/
theorem params_of_rotate {params : List (String × Json)} {node : Node Float}
    (h : (build options .rotate params).result = .ok node) : params ≠ [] := by
  rintro rfl
  cases h

/-- **A node is stored at most three containers deeper than its document.** -/
theorem depth_store_of_read {document : Json} {node : Node Float} (h : (read options document).result = .ok node) :
    (store node).depth ≤ document.depth + 3 := by
  obtain ⟨kind, params, hnamed, hbuild⟩ := read_eq_ok h
  obtain ⟨hone, hparams⟩ := depth_named? hnamed
  obtain ⟨hkind, -⟩ := children_build hbuild
  obtain ⟨-, hchildren⟩ := read_children h
  cases node with
  | leaf shape =>
    have hleaf := Stored.depth_store_leaf_le shape
    omega
  | apply op nodes =>
    have hnodes : depthItems (storeList nodes) ≤ document.depth := by
      rw [Stored.storeList_eq_map, depthItems_le_iff, List.forall_mem_map]
      intro child hchild
      obtain ⟨item, hitem, hread⟩ := exists_of_forall₂ hchildren child hchild
      have hsize := sizeOf_of_mem_children hitem
      have hdeeper := depth_of_mem_children hitem
      exact (depth_store_of_read hread).trans hdeeper
    rcases Stored.depth_store_apply_le op nodes with hle | ⟨hrotate, hle⟩
    · omega
    · obtain rfl : kind = .rotate := hkind.symm.trans hrotate
      have htwo := hparams.resolve_left (params_of_rotate hbuild)
      omega
termination_by sizeOf document

/-! ## Turns inside moves -/

/-- A turn inside moves. -/
def movedTurn : Nat → Json
  | 0 => .object [("kind", .string "rotate"), ("params", .object [("a", .ofNat 45)])]
  | count + 1 => .object [("kind", .string "translate"),
      ("params", .object [("children", .array [movedTurn count]), ("v", .ofNat 0)])]

/-- The node of a turn inside moves. -/
def movedNode : Nat → Node Float
  | 0 => .apply (.rotate (.about 45 ⟨0, 0, 1⟩)) []
  | count + 1 => .apply (.translate ⟨0, 0, 0⟩) [movedNode count]

theorem read_movedTurn (count : Nat) : read options (movedTurn count) = pure (movedNode count) := by
  induction count with
  | zero => exact (read_named (named?_tag .rotate _)).trans rfl
  | succ count ih =>
    have hitems : readItems options [movedTurn count] = pure [movedNode count] := by
      simp only [readItems, ih]
      rfl
    refine (read_named (named?_tag .translate _)).trans ?_
    rw [build, supply, supply, supply, readList, hitems]
    rfl

theorem exact_movedTurn (count : Nat) : Exact (movedTurn count) := by
  have hnumber (n : Nat) (h : n < 2 ^ 64) : Exact (.ofNat n) := Stored.exact_ofNat h
  induction count with
  | zero => simp [movedTurn, exact_object, Exact.string, hnumber]
  | succ count ih => simp [movedTurn, exact_object, exact_array, Exact.string, hnumber, ih]

theorem canonical_movedTurn (count : Nat) : (movedTurn count).canonical = movedTurn count := by
  induction count with
  | zero => rfl
  | succ count ih =>
    simp only [movedTurn, Json.canonical, Json.canonicalFields, Json.canonicalItems, ih]
    rfl

theorem depth_movedTurn (count : Nat) : (movedTurn count).depth = 3 * count + 2 := by
  induction count with
  | zero => rfl
  | succ count ih =>
    simp only [movedTurn, Json.ofNat, Json.depth, depthFields, depthItems, ih]
    omega

theorem finite_movedNode (count : Nat) : (movedNode count).Finite := by
  induction count with
  | zero => decide +kernel
  | succ count ih => exact Node.finite_apply.2 ⟨by decide +kernel, List.forall_mem_singleton.2 ih⟩

theorem depth_movedNode (count : Nat) : (store (movedNode count)).depth = 3 * count + 5 := by
  induction count with
  | zero => rfl
  | succ count ih =>
    have hv : (Json.ofVec3 (⟨0, 0, 0⟩ : Vec3 Float)).depth = 1 := rfl
    simp only [movedNode, store, storeList, Stored.operationContent, Json.depth, depthFields, depthItems, ih, hv]
    omega

theorem readText_movedTurn {count : Nat} (h : 3 * count + 2 ≤ Json.depthLimit) :
    readText options (movedTurn count).compact = pure (movedNode count) := by
  have hparse : Json.read? (movedTurn count).compact = some (movedTurn count) := by
    rw [Json.read?_compact (exact_movedTurn count) ((depth_movedTurn count).trans_le h), canonical_movedTurn]
  rw [readText, hparse]
  exact read_movedTurn count

/-! ## Storing what is read -/

/-- **What is read can be stored**, if the tool height of the settings is finite: the text of the node stands for the
node if and only if its stored form nests no more containers than are read, and for nothing else. The form nests at
most three containers deeper than the document, so what is read from a document that leaves this room is always read
back. -/
theorem read_persists (htool : options.toolHeight.isFinite = true) {text : String} {node : Node Float}
    (h : (readText options text).result = .ok node) : ∃ document, Json.parse? text = some document ∧
      (store node).depth ≤ document.depth + 3 ∧
      ofText? (Stored.text node) = (if (store node).depth ≤ Json.depthLimit then some node else none) ∧
      (document.depth + 3 ≤ Json.depthLimit → ofText? (Stored.text node) = some node) := by
  obtain ⟨document, hparse, hreadable, hread⟩ := readText_eq_ok h
  have hexact := Json.exact_parse? hparse hreadable
  have hfinite := finite_of_read htool (Json.exact_canonical hexact) hread
  have hdepth : (store node).depth ≤ document.depth + 3 :=
    (depth_store_of_read hread).trans (Nat.add_le_add_right (Json.depth_canonical_le hexact) 3)
  have hback := Stored.ofText?_text hfinite
  refine ⟨document, hparse, hdepth, hback, fun hroom => ?_⟩
  rw [hback, if_pos (hdepth.trans hroom)]

/-- A turn inside forty moves is declared in 122 nested containers and stored in 125. -/
theorem read_persists_moved :
    Options.standard.toolHeight.isFinite = true ∧
      (readText .standard (movedTurn 40).compact).result = .ok (movedNode 40) ∧
      ∃ document, Json.parse? (movedTurn 40).compact = some document ∧
        (store (movedNode 40)).depth ≤ document.depth + 3 ∧
        ofText? (Stored.text (movedNode 40)) =
          (if (store (movedNode 40)).depth ≤ Json.depthLimit then some (movedNode 40) else none) ∧
        (document.depth + 3 ≤ Json.depthLimit → ofText? (Stored.text (movedNode 40)) = some (movedNode 40)) := by
  have htool : Options.standard.toolHeight.isFinite = true := by decide +kernel
  have hread : (readText .standard (movedTurn 40).compact).result = .ok (movedNode 40) := by
    rw [readText_movedTurn (by decide)]
    rfl
  exact ⟨htool, hread, read_persists htool hread⟩

/-- A turn inside 41 moves is read from 125 nested containers and stored in 128, which is more than are read. -/
theorem read_unpersisted_moved :
    Options.standard.toolHeight.isFinite = true ∧
      (readText .standard (movedTurn 41).compact).result = .ok (movedNode 41) ∧
      ofText? (Stored.text (movedNode 41)) = none := by
  have hread : (readText .standard (movedTurn 41).compact).result = .ok (movedNode 41) := by
    rw [readText_movedTurn (by decide)]
    rfl
  refine ⟨by decide +kernel, hread, ?_⟩
  rw [Stored.ofText?_text (finite_movedNode 41), depth_movedNode]
  exact if_neg (by decide)

end Document
end SolidScript
