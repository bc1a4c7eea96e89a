import SolidScript.Proofs.Json.Record
import SolidScript.Shape.Stored

/-!
# Trees are read back from their stored forms

The reader of each part restores the part from its form, and so does the reader of a tree (`restores_store`). The
fields of a shape and of an operation are read under their own names, so a form is restored up to the depth that can be
read, and not at all beyond it.
-/

namespace SolidScript.Stored

open Json (Restores cut cutItems cutFields cutRecord depthItems depthFields asRecord?_cut need?_self need?_of_ne
  may?_self may?_of_ne bind_restored restores_double restores_string restores_word32 restores_bool restores_indices
  restores_absent restores_present)

/-! ## Parts -/

theorem restores_vec2 (v : Vec2 Float) : Restores (Json.asVec2? Json.asDouble?) (Json.ofVec2 v) v :=
  Json.restores_vec2 restores_double v

theorem restores_vec3 (v : Vec3 Float) : Restores (Json.asVec3? Json.asDouble?) (Json.ofVec3 v) v :=
  Json.restores_vec3 restores_double v

theorem restores_points2 (points : List (Vec2 Float)) :
    Restores (Json.asList? (Json.asVec2? Json.asDouble?)) (ofPoints2 points) points :=
  Json.restores_list fun v _ => restores_vec2 v

theorem restores_points3 (points : List (Vec3 Float)) :
    Restores (Json.asList? (Json.asVec3? Json.asDouble?)) (ofPoints3 points) points :=
  Json.restores_list fun v _ => restores_vec3 v

theorem restores_flags (v : Vec3 Bool) :
    Restores (Json.asVec3? Json.asBool?) (.array (v.toList.map Json.bool)) v :=
  Json.restores_vec3 restores_bool v

theorem ofColumnMajor?_columnMajor (m : Matrix4 Float) : Matrix4.ofColumnMajor? m.columnMajor = some m := by
  obtain ⟨cell⟩ := m
  show some (Matrix4.mk _) = _
  congr 2
  funext r c
  fin_cases r <;> fin_cases c <;> rfl

theorem restores_cells (xs : List Float) :
    Restores (Json.asList? Json.asDouble?) (.array (xs.map Json.ofDouble)) xs :=
  Json.restores_list fun x _ => restores_double x

theorem restores_paths (lists : List (List UInt64)) :
    Restores (Json.asOptional? Json.asIndices?) (Json.ofIndices lists) (some lists) :=
  restores_present (restores_indices lists)

theorem restores_rounding (rounding : Rounding Float) : Restores asRounding? (ofRounding rounding) rounding := by
  rintro (_ | room)
  · rfl
  · rw [asRounding?, ofRounding, asRecord?_cut _ (by simp)]
    simp [need?_self, need?_of_ne, restores_double, Json.depth, depthFields]

theorem restores_rotation (rotation : Rotation Float) : Restores asRotation? (ofRotation rotation) rotation := by
  cases rotation with
  | euler angles =>
    rintro (_ | room)
    · rfl
    · simp [ofRotation, cut, Json.within, cutFields, asRotation?, restores_vec3, Json.depth, depthFields]
  | about angle axis =>
    rintro (_ | _ | room)
    · rfl
    · rfl
    · have hfields : ([("angle", Json.ofDouble angle), ("axis", Json.ofVec3 axis)].map Prod.fst).Nodup := by simp
      have hcontent := asRecord?_cut ["angle", "axis"] hfields room
      simp [ofRotation, cut.eq_def (room + 1 + 1), Json.within, cutFields, asRotation?, hcontent, need?_self,
        need?_of_ne, restores_double, restores_vec3, bind_restored, Json.depth, depthFields]

/-! ## Shapes -/

theorem asShape?_cut (shape : Shape Float) (room : Nat) :
    asShape? (Node.kind (.leaf shape)) (cutRecord room (shapeFields shape)) =
      if Json.depthFields (shapeFields shape) ≤ room then some shape else none := by
  rcases shape with p | ⟨_ | _, _⟩ | ⟨_ | _ | _ | _ | _, _, _⟩
  rcases p with _ | _ | _ | _ | _ | _ | _ | ⟨_, _ | _, _⟩ | _ | _
  all_goals
    simp [Node.kind, Primitive.kind, Derived.kind, asShape?, shapeFields, primitiveFields, derivedFields, labelFields,
      need?_self, need?_of_ne, may?_self, may?_of_ne, depthFields, restores_double, restores_string, restores_word32,
      restores_vec3, restores_vec2, restores_points2, restores_points3, restores_rounding, restores_indices,
      restores_paths, restores_absent, restores_bool, bind_restored, ite_and]

theorem ofStoredName?_storedName (kind : Kind) : Kind.ofStoredName? kind.storedName = some kind := by
  cases kind <;> decide +kernel

section Fields

variable {kind : Kind} (hkind : fieldNames kind ≠ []) {fields : List (String × Json)}
  (hfields : (fields.map Prod.fst).Nodup) (room : Nat) (children : Option (List (Node Float)))
include hkind hfields

theorem assemble?_of_shape {shape : Shape Float} (h : asShape? kind (cutRecord room fields) = some shape) :
    assemble? kind ((Json.object fields).cut (room + 1)) children = some (.leaf shape) := by
  unfold assemble?
  split
  · next hnames => exact absurd hnames hkind
  · simp only [asRecord?_cut _ hfields, Option.bind_eq_bind, Option.bind_some, h]

theorem assemble?_of_operation (h : asShape? kind (cutRecord room fields) = none) :
    assemble? kind ((Json.object fields).cut (room + 1)) children =
      (asOperation? kind (cutRecord room fields)).bind fun op => children.map (Tree.apply op) := by
  unfold assemble?
  split
  · next hnames => exact absurd hnames hkind
  · simp only [asRecord?_cut _ hfields, Option.bind_eq_bind, Option.bind_some, h]
    cases asOperation? kind (cutRecord room fields) <;> cases children <;> rfl

end Fields

/-- The names of the fields of a shape differ. -/
theorem nodup_shapeFields (shape : Shape Float) : ((shapeFields shape).map Prod.fst).Nodup := by
  rcases shape with p | ⟨_ | _, _⟩ | ⟨_ | _ | _ | _ | _, _, _⟩
  · cases p <;> simp [shapeFields, primitiveFields, labelFields]
  all_goals simp [shapeFields, derivedFields]

theorem fieldNames_leaf (shape : Shape Float) : fieldNames (Node.kind (.leaf shape)) ≠ [] := by
  rcases shape with p | ⟨_ | _, _⟩ | ⟨_ | _ | _ | _ | _, _, _⟩
  · cases p <;> exact List.cons_ne_nil _ _
  all_goals exact List.cons_ne_nil _ _

theorem asOperation?_leaf (shape : Shape Float) (record : Json.Record) :
    asOperation? (Node.kind (.leaf shape)) record = none := by
  rcases shape with p | ⟨_ | _, _⟩ | ⟨_ | _ | _ | _ | _, _, _⟩
  · cases p <;> rfl
  all_goals rfl

/-- **The content of a shape is read back.** -/
theorem assemble?_shape (shape : Shape Float) (children : Json → Option (List (Node Float))) :
    Restores (fun content => assemble? (Node.kind (.leaf shape)) content (children content))
      (.object (shapeFields shape)) (.leaf shape) := by
  rintro (_ | room)
  · show assemble? _ .unreadable _ = none
    have hnames := fieldNames_leaf shape
    unfold assemble?
    split
    · next h => exact absurd h hnames
    · rfl
  · have hread := asShape?_cut shape room
    rw [Json.depth]
    by_cases hroom : depthFields (shapeFields shape) ≤ room
    · rw [if_pos hroom] at hread
      simp only [assemble?_of_shape (fieldNames_leaf shape) (nodup_shapeFields shape) room _ hread,
        Nat.add_le_add_iff_right, if_pos hroom]
    · rw [if_neg hroom] at hread
      simp only [assemble?_of_operation (fieldNames_leaf shape) (nodup_shapeFields shape) room _ hread,
        asOperation?_leaf, Nat.add_le_add_iff_right, if_neg hroom]
      rfl

/-! ## Operations -/

theorem restores_children {items : List Json} {children : List (Node Float)}
    (h : ∀ room, restoreItems? (cutItems room items) = if depthItems items ≤ room then some children else none) :
    Restores restoreList? (.array items) children := by
  rintro (_ | room)
  · rfl
  · show restoreItems? (cutItems room items) = _
    simp [h, Json.depth]

/-- The children are read from the last field. -/
theorem restoreChildren?_cut (kind : Kind) (fields : List (String × Json)) (room : Nat) :
    restoreChildren? kind ((Json.object fields).cut (room + 1)) =
      restoreField? ((fieldNames kind).getLastD "") (cutFields room fields) := by
  simp [cut, Json.within, restoreChildren?]

/-- **The content of an operation is read back** if its children are. -/
theorem assemble?_operation (op : Operation Float) {items : List Json} {children : List (Node Float)}
    (h : ∀ room, restoreItems? (cutItems room items) = if depthItems items ≤ room then some children else none) :
    Restores (fun content => assemble? op.kind content (restoreChildren? op.kind content))
      (operationContent op (.array items)) (.apply op children) := by
  have hchildren := restores_children h
  rintro (_ | room)
  · cases op <;> rfl
  · cases op
    case union | difference | intersection | minkowski | hull =>
      simp [operationContent, cut, Json.within, restoreChildren?, fieldNames, Operation.kind, assemble?, asOperation?,
        h, bind_restored, Json.depth]
    all_goals
      simp only [operationContent]
      rw [restoreChildren?_cut, assemble?_of_operation (by simp [fieldNames, Operation.kind]) (by simp) room _ rfl]
      simp [asOperation?, Operation.kind, fieldNames, restoreField?, cutFields, need?_self, need?_of_ne, restores_vec3,
        restores_flags, restores_cells, restores_string, restores_rotation, ofColumnMajor?_columnMajor, bind_restored,
        hchildren, Json.depth, depthFields, ← ite_and, and_assoc]

/-! ## Nodes -/

/-- A node is read back from the only field of its form if its content is. -/
theorem restores_only {kind : Kind} {content : Json} {node : Node Float}
    (h : Restores (fun content => assemble? kind content (restoreChildren? kind content)) content node) :
    Restores restore? (.object [(kind.storedName, content)]) node := by
  rintro (_ | room)
  · rfl
  · have hread : restore? ((Json.object [(kind.storedName, content)]).cut (room + 1)) =
        assemble? kind (content.cut room) (restoreChildren? kind (content.cut room)) := by
      simp [cut, Json.within, cutFields, restore?, restoreOnly?, ofStoredName?_storedName]
    refine hread.trans ((h room).trans ?_)
    simp [Json.depth, depthFields]

mutual

/-- **A node is read back from its stored form**, and from no form that is cut off. -/
theorem restores_store : ∀ node : Node Float, Restores restore? (store node) node
  | .leaf shape => restores_only (assemble?_shape shape _)
  | .apply op children => restores_only (assemble?_operation op (restoreItems?_storeList children))

theorem restoreItems?_storeList : ∀ (nodes : List (Node Float)) (room : Nat),
    restoreItems? (cutItems room (storeList nodes)) = if depthItems (storeList nodes) ≤ room then some nodes else none
  | [], _ => rfl
  | node :: rest, room => by
    simp [storeList, cutItems, restoreItems?, restores_store node room, restoreItems?_storeList rest room, depthItems,
      bind_restored, ite_and]

end

end SolidScript.Stored
