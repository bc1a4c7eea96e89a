import SolidScript.Proofs.Document.Change

/-!
# Shorthands

One entry stands for all entries of a vector or of a list of truth values, and a matrix may leave out its last row.
`LongForm` writes that out, and coercion does not see the difference (`coercedAlike_longForm`). One angle is no
shorthand for three, although three may stand in its place: it turns about an axis, three turn about all of them
(`result_build_rotate`).
-/

namespace SolidScript

/-- The last row of a matrix that moves points without projecting them. -/
def Json.affineRow : Json := .array [.ofNat 0, .ofNat 0, .ofNat 0, .ofNat 1]

/-- Whether a value is no list. -/
def Json.IsSingle (value : Json) : Prop := ∀ items, value ≠ .array items

/-- A shorthand of a parameter type, and what it is short for. -/
inductive LongForm : ParamType → Json → Json → Prop where
  | vector2 {entry : Json} : entry.IsSingle → LongForm .vector2 entry (.array [entry, entry])
  | vector3 {entry : Json} : entry.IsSingle → LongForm .vector3 entry (.array [entry, entry, entry])
  | flags3 {entry : Json} : entry.IsSingle → LongForm .flags3 entry (.array [entry, entry, entry])
  | matrix (first second third : Json) :
    LongForm .matrix (.array [first, second, third]) (.array [first, second, third, Json.affineRow])

namespace Coerce

variable {entry : Json}

theorem items?_single (h : entry.IsSingle) : items? entry = none := by
  cases entry with
  | array items => exact absurd rfl (h items)
  | _ => rfl

/-- Copies of one item are coerced to copies of one value. -/
theorem mapM_replicate {α : Type} (f : Json → Option α) (entry : Json) (n : Nat) :
    (List.replicate (n + 1) entry).mapM f = (f entry).map (List.replicate (n + 1)) := by
  induction n with
  | zero =>
    rw [List.replicate_one, List.mapM_cons, List.mapM_nil]
    cases f entry <;> rfl
  | succ n ih =>
    rw [List.replicate_succ, List.mapM_cons, ih]
    cases f entry <;> rfl

theorem vector2?_single (h : entry.IsSingle) : vector2? entry = (number? entry).map Vec2.all := by
  simp [vector2?, point2?, numbers?, items?_single h]

theorem vector2?_pair (entry : Json) : vector2? (.array [entry, entry]) = (number? entry).map Vec2.all := by
  show ((List.replicate 2 entry).mapM number?).bind Vec2.ofList? = _
  rw [mapM_replicate]
  cases number? entry <;> rfl

theorem vector3?_single (h : entry.IsSingle) : vector3? entry = (number? entry).map Vec3.all := by
  simp [vector3?, point3?, numbers?, items?_single h]

theorem point3?_triple (entry : Json) : point3? (.array [entry, entry, entry]) = (number? entry).map Vec3.all := by
  show ((List.replicate 3 entry).mapM number?).bind Vec3.ofList? = _
  rw [mapM_replicate]
  cases number? entry <;> rfl

theorem flags3?_single (h : entry.IsSingle) : flags3? entry = (boolean? entry).map Vec3.all := by
  simp [flags3?, items?_single h]

theorem flags3?_triple (entry : Json) : flags3? (.array [entry, entry, entry]) = (boolean? entry).map Vec3.all := by
  show ((List.replicate 3 entry).mapM boolean?).bind Vec3.ofList? = _
  rw [mapM_replicate]
  cases boolean? entry <;> rfl

theorem row?_affineRow : row? Json.affineRow = some Matrix4.affineRow := by
  refine congrArg some (funext fun c => ?_)
  match c with
  | 0 | 1 | 2 | 3 => decide +kernel

theorem matrix?_affine (first second third : Json) :
    matrix? (.array [first, second, third]) = matrix? (.array [first, second, third, Json.affineRow]) := by
  simp only [matrix?, items?, Option.bind_eq_bind, Option.bind_some, List.mapM_cons, List.mapM_nil, row?_affineRow,
    Option.pure_def]
  cases row? first <;> cases row? second <;> cases row? third <;> rfl

end Coerce

namespace Document

theorem coercedAlike_longForm : CoercedAlike LongForm := by
  intro t value other h
  cases h with
  | vector2 hentry => exact (Coerce.vector2?_single hentry).trans (Coerce.vector2?_pair value).symm
  | vector3 hentry => exact (Coerce.vector3?_single hentry).trans (Coerce.point3?_triple value).symm
  | flags3 hentry => exact (Coerce.flags3?_single hentry).trans (Coerce.flags3?_triple value).symm
  | matrix first second third => exact Coerce.matrix?_affine first second third

/-! ## Angles -/

/-- The axis that parameters give for a rotation. -/
def axisOf (params : List (String × Json)) : Except NodeError (Vec3 Float) :=
  match Json.field? "v" params with
  | some raw =>
    match Coerce.vector3? raw with
    | some axis => .ok axis
    | none => .error (.mismatch .rotate "v" ParamType.vector3.describe)
  | none => .ok ⟨0, 0, 1⟩

/-- The node that is turned as an angle says, with the axis and the children that parameters give. -/
def turned (options : Options) (params : List (String × Json)) (rotation : Vec3 Float → Rotation Float) :
    Except NodeError (Node Float) := do
  let axis ← axisOf params
  let nodes ← childrenOf options .rotate params
  return .apply (.rotate (rotation axis)) nodes

/-- One angle turns about an axis, three turn about all axes. -/
def rotationOf : Turn → Vec3 Float → Rotation Float
  | .single angle, axis => .about angle axis
  | .euler angles, _ => .euler angles

variable {options : Options} {params others : List (String × Json)}

theorem valueOf_axis : valueOf options .rotate params (.given "v" (.vector3 ⟨0, 0, 1⟩)) =
    (axisOf params).map fun axis => some ⟨.vector3, axis⟩ := by
  unfold axisOf
  split
  · next raw h =>
    have hplain : ParamType.vector3 ≠ .nodes := nofun
    cases haxis : Coerce.vector3? raw with
    | some axis => exact valueOf_coerced hplain haxis h
    | none => exact valueOf_unfit hplain haxis h
  · next h =>
    rw [valueOf_absent h]
    rfl

theorem result_build_rotate {raw : Json} {turn : Turn} (h : Json.field? "a" params = some raw)
    (hturn : Coerce.turn? raw = some turn) :
    (build options .rotate params).result = turned options params (rotationOf turn) := by
  have hangle : valueOf options .rotate params (.need "a" .angle) = .ok (some ⟨.angle, turn⟩) :=
    valueOf_coerced (show ParamType.angle ≠ .nodes from nofun) hturn h
  have habsent : firstAbsent? .rotate params = none := by
    simp [firstAbsent?, schema, Parameter.need, Parameter.given, Parameter.children, Parameter.isRequired, h]
  rw [result_build habsent, turned]
  simp only [schema, valuesOf, hangle, valueOf_axis, valueOf_children]
  cases axisOf params with
  | error error => rfl
  | ok axis =>
    cases childrenOf options .rotate params with
    | error error => rfl
    | ok nodes => cases turn <;> rfl

theorem turned_congr (h : ∀ name, name ≠ "a" → Json.field? name others = Json.field? name params)
    (rotation : Vec3 Float → Rotation Float) : turned options others rotation = turned options params rotation := by
  have haxis : axisOf others = axisOf params := by rw [axisOf, axisOf, h "v" (by decide)]
  have hnodes : childrenOf options .rotate others = childrenOf options .rotate params := by
    rw [childrenOf, childrenOf, h "children" (by decide)]
  rw [turned, turned, haxis, hnodes]

theorem angle_of_mem_schema {kind : Kind} : ∀ p ∈ schema kind, p.type = .angle → kind = .rotate ∧ p.name = "a" := by
  cases kind <;> decide

/-- **A shorthand means its long form**: writing out any of them, in the parameters of a kind or in the documents
below, changes neither the node nor the error. The one parameter that takes an angle, that of a rotation, has none: one
angle turns about the given axis, three of it turn about all axes. -/
theorem shorthand_longForm (options : Options) :
    (∀ kind params others, ChangedParams LongForm kind params others →
      (build options kind params).result = (build options kind others).result) ∧
    (∀ kind, ∀ p ∈ schema kind, p.type = .angle → kind = .rotate ∧ p.name = "a") ∧
    ∀ params others angle x, Coerce.number? angle = some x →
      Json.field? "a" params = some angle → Json.field? "a" others = some (.array [angle, angle, angle]) →
      (∀ name, name ≠ "a" → Json.field? name others = Json.field? name params) →
      (build options .rotate params).result = turned options params (Rotation.about x) ∧
        (build options .rotate others).result = turned options params fun _ => .euler (.all x) := by
  refine ⟨fun _ _ _ h => result_build_changed coercedAlike_longForm h, fun _ => angle_of_mem_schema, ?_⟩
  intro params others angle x hx hone hthree hother
  have hsingle : Coerce.turn? angle = some (.single x) := by
    rw [Coerce.turn?, hx]
    rfl
  have htriple : Coerce.turn? (.array [angle, angle, angle]) = some (.euler (.all x)) := by
    rw [Coerce.turn?, Coerce.point3?_triple, hx]
    rfl
  refine ⟨result_build_rotate hone hsingle, ?_⟩
  rw [result_build_rotate hthree htriple, turned_congr hother]
  rfl

/-- A size that is no number, flags, and a matrix of a child without its last row; and a right angle. -/
theorem shorthand_longForm_resize :
    let rows : List Json := [.array [.ofNat 1, .ofNat 0, .ofNat 0, .ofNat 5],
      .array [.ofNat 0, .ofNat 1, .ofNat 0, .ofNat 6], .array [.ofNat 0, .ofNat 0, .ofNat 1, .ofNat 7]]
    let child (rows : List Json) : Json :=
      .object [("kind", .string "compose_matrix"), ("params", .object [("matrix", .array rows)])]
    (build .standard .resize [("newsize", .string "2.5"), ("auto", .bool true),
        ("children", .array [child rows])]).result =
      (build .standard .resize [("newsize", .array [.string "2.5", .string "2.5", .string "2.5"]),
        ("auto", .array [.bool true, .bool true, .bool true]),
        ("children", .array [child (rows ++ [Json.affineRow])])]).result ∧
    (build .standard .rotate [("a", .string "90")]).result = .ok (.apply (.rotate (.about 90 ⟨0, 0, 1⟩)) []) ∧
    (build .standard .rotate [("a", .array [.string "90", .string "90", .string "90"])]).result =
      .ok (.apply (.rotate (.euler ⟨90, 90, 90⟩)) []) := by
  intro rows child
  obtain ⟨hchanged, -, hangle⟩ := shorthand_longForm .standard
  have hchild : Changed LongForm (child rows) (child (rows ++ [Json.affineRow])) :=
    .params (named?_tag .composeMatrix _) (named?_tag .composeMatrix _) (.intro (List.forall_mem_cons.2
      ⟨.plain nofun (.matrix _ _ _), List.forall_mem_cons.2 ⟨.same none, nofun⟩⟩))
  have hright : Coerce.number? (.string "90") = some 90 := by decide +kernel
  refine ⟨?_, hangle _ _ (.string "90") 90 hright rfl rfl fun name hname => ?_⟩
  · exact hchanged _ _ _ (.intro (List.forall_mem_cons.2 ⟨.plain nofun (.vector3 nofun), List.forall_mem_cons.2
      ⟨.plain nofun (.flags3 nofun), List.forall_mem_cons.2 ⟨.nodes (.cons hchild .nil), nofun⟩⟩⟩))
  · simp [Json.field?, hname.symm]

end Document
end SolidScript
