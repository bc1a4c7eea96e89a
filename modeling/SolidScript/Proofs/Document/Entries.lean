import SolidScript.Document.Build
import SolidScript.Proofs.Document.Encode

/-!
# The values of a node

`Shape.entries` and `Operation.entries` give the values of a node's parameters under the names of its schema, every
parameter explicitly; only what a node does not have is left out.

* `construct_shape`, `construct_operation`: `construct` puts each of these values into the field it was taken from,
  whatever stands in for the parameters that are left out.
* `admits_shape`, `admits_operation`: the schema of the node's kind declares all of them, at their types, and requires
  no other.
-/

namespace SolidScript

/-! ## The values of a node -/

/-- The values of a primitive's parameters. Both radii of a cylinder are given beside the common one. -/
def Primitive.entries (common : Float) : Primitive Float → List (String × Value)
  | .cube size center => [("size", ⟨.vector3, size⟩), ("center", ⟨.boolean, center⟩)]
  | .cylinder h r1 r2 center resolution =>
    [("h", ⟨.number, h⟩), ("r", ⟨.number, common⟩), ("r1", ⟨.number, r1⟩), ("r2", ⟨.number, r2⟩),
     ("center", ⟨.boolean, center⟩), ("resolution", ⟨.integer, resolution⟩)]
  | .sphere r resolution => [("r", ⟨.number, r⟩), ("resolution", ⟨.integer, resolution⟩)]
  | .polyhedron points faces convexity =>
    [("points", ⟨.points3, points⟩), ("faces", ⟨.indices, faces⟩), ("convexity", ⟨.integer, convexity⟩)]
  | .surface file center invert convexity =>
    [("file", ⟨.text, file⟩), ("center", ⟨.boolean, center⟩), ("invert", ⟨.boolean, invert⟩),
     ("convexity", ⟨.integer, convexity⟩)]
  | .square size center => [("size", ⟨.vector2, size⟩), ("center", ⟨.boolean, center⟩)]
  | .circle r resolution => [("r", ⟨.number, r⟩), ("resolution", ⟨.integer, resolution⟩)]
  | .polygon points none convexity => [("points", ⟨.points2, points⟩), ("convexity", ⟨.integer, convexity⟩)]
  | .polygon points (some paths) convexity =>
    [("points", ⟨.points2, points⟩), ("paths", ⟨.indices, paths⟩), ("convexity", ⟨.integer, convexity⟩)]
  | .text l =>
    [("text", ⟨.text, l.text⟩), ("size", ⟨.number, l.size⟩), ("font", ⟨.text, l.font⟩), ("halign", ⟨.text, l.halign⟩),
     ("valign", ⟨.text, l.valign⟩), ("spacing", ⟨.number, l.spacing⟩), ("direction", ⟨.text, l.direction⟩),
     ("language", ⟨.text, l.language⟩), ("script", ⟨.text, l.script⟩), ("resolution", ⟨.integer, l.resolution⟩)]
  | .imported file convexity center =>
    [("file", ⟨.text, file⟩), ("convexity", ⟨.integer, convexity⟩), ("center", ⟨.boolean, center⟩)]

/-- The values of a curve's parameters. -/
def Curve.entries : Curve Float → List (String × Value)
  | .line start stop width =>
    [("start", ⟨.vector2, start⟩), ("end", ⟨.vector2, stop⟩), ("width", ⟨.number, width⟩)]
  | .arc r startAngle endAngle width =>
    [("r", ⟨.number, r⟩), ("start_angle", ⟨.number, startAngle⟩), ("end_angle", ⟨.number, endAngle⟩),
     ("width", ⟨.number, width⟩)]

/-- The values of a rounded solid's parameters. -/
def RoundedBase.entries (common : Float) : RoundedBase Float → List (String × Value)
  | .cube size center => [("size", ⟨.vector3, size⟩), ("center", ⟨.boolean, center⟩)]
  | .cylinder h r1 r2 center =>
    [("h", ⟨.number, h⟩), ("r", ⟨.number, common⟩), ("r1", ⟨.number, r1⟩), ("r2", ⟨.number, r2⟩),
     ("center", ⟨.boolean, center⟩)]
  | .sphere r => [("r", ⟨.number, r⟩)]
  | .polyhedron points faces convexity =>
    [("points", ⟨.points3, points⟩), ("faces", ⟨.indices, faces⟩), ("convexity", ⟨.integer, convexity⟩)]
  | .surface file size center invert convexity =>
    [("file", ⟨.text, file⟩), ("size", ⟨.vector3, size⟩), ("center", ⟨.boolean, center⟩),
     ("invert", ⟨.boolean, invert⟩), ("convexity", ⟨.integer, convexity⟩)]

/-- The values of a fillet. -/
def Rounding.entries (rounding : Rounding Float) : List (String × Value) :=
  [("round_r", ⟨.number, rounding.radius⟩), ("tool_height", ⟨.number, rounding.toolHeight⟩)]

/-- The values of a shape's parameters. -/
def Shape.entries (common : Float) : Shape Float → List (String × Value)
  | .primitive p => p.entries common
  | .derived (.curve c resolution) => c.entries ++ [("resolution", ⟨.integer, resolution⟩)]
  | .derived (.rounded base rounding resolution) =>
    base.entries common ++ rounding.entries ++ [("resolution", ⟨.integer, resolution⟩)]

/-- The values of an operation's own parameters. -/
def Operation.ownEntries : Operation Float → List (String × Value)
  | .translate v => [("v", ⟨.vector3, v⟩)]
  | .resize size auto => [("newsize", ⟨.vector3, size⟩), ("auto", ⟨.flags3, auto⟩)]
  | .transform matrix => [("matrix", ⟨.matrix, matrix⟩)]
  | .rotate (.about angle axis) => [("a", ⟨.angle, .single angle⟩), ("v", ⟨.vector3, axis⟩)]
  | .rotate (.euler angles) => [("a", ⟨.angle, .euler angles⟩)]
  | .scale v => [("v", ⟨.vector3, v⟩)]
  | .mirror v => [("v", ⟨.vector3, v⟩)]
  | .loop expression => [("expression", ⟨.text, expression⟩)]
  | _ => []

/-- The name of the parameter that holds the subtrees of an operation. -/
def Operation.childKey : Operation Float → String
  | .loop _ => "body"
  | _ => "children"

/-- The values of an operation's parameters. -/
def Operation.entries (children : List (Node Float)) (op : Operation Float) : List (String × Value) :=
  op.ownEntries ++ [(op.childKey, ⟨.nodes, children⟩)]

namespace Values

/-- Values of parameters, filled up with what stands in for those that are not given. -/
def complete (options : Options) (entries : List (String × Value)) : List Parameter → List (String × Value)
  | [] => []
  | p :: rest => hold p.name ((find? p.name entries).or (p.standIn? options)) (complete options entries rest)

end Values

open Values

variable {options : Options} {common : Float}

/-! ## Construction -/

/-- **Every value of a shape lands in its own field.** -/
theorem construct_shape (shape : Shape Float) :
    construct ⟨Node.kind (.leaf shape), complete options (shape.entries common) (schema (Node.kind (.leaf shape)))⟩ =
      .ok (.leaf shape) := by
  -- a case for each kind, and two for a polygon: its paths are written only if it has any
  rcases shape with p | ⟨_ | _, _⟩ | ⟨_ | _ | _ | _ | _, _, _⟩
  · rcases p with _ | _ | _ | _ | _ | _ | _ | ⟨_, _ | _, _⟩ | _ | _ <;> rfl
  all_goals rfl

/-- **Every value of an operation lands in its own field**, the subtrees among them. -/
theorem construct_operation (op : Operation Float) (children : List (Node Float)) :
    construct ⟨op.kind, complete options (op.entries children) (schema op.kind)⟩ = .ok (.apply op children) := by
  -- a case for each kind, and two for a rotation: about an axis, and by three angles
  rcases op with _ | _ | _ | (_ | _) | _ | _ | _ | _ | _ | _ | _ | _ <;> rfl

/-! ## Values that a kind admits -/

/-- Whether values suit the schema of a kind: they have the declared types, no required one is left out, and there is
none that is not declared. -/
def admits (kind : Kind) (entries : List (String × Value)) : Bool :=
  ((schema kind).all fun p =>
    match find? p.name entries with
    | some value => value.type == p.type
    | none => !p.isRequired) &&
  entries.all fun (name, _) => (schema kind).any fun p => p.name == name

theorem admits_shape (shape : Shape Float) : admits (Node.kind (.leaf shape)) (shape.entries common) = true := by
  rcases shape with p | ⟨_ | _, _⟩ | ⟨_ | _ | _ | _ | _, _, _⟩
  · rcases p with _ | _ | _ | _ | _ | _ | _ | ⟨_, _ | _, _⟩ | _ | _ <;> rfl
  all_goals rfl

theorem admits_operation (op : Operation Float) (children : List (Node Float)) :
    admits op.kind (op.entries children) = true := by
  rcases op with _ | _ | _ | (_ | _) | _ | _ | _ | _ | _ | _ | _ | _ <;> rfl

/-! ## Indices and subtrees -/

/-- The lists of indices that a shape holds. -/
def Shape.indexLists : Shape Float → List (List UInt64)
  | .primitive (.polyhedron _ faces _) => faces
  | .primitive (.polygon _ paths _) => paths.getD []
  | .derived (.rounded (.polyhedron _ faces _) _ _) => faces
  | _ => []

theorem Shape.fits_entries {shape : Shape Float} (h : IndicesFit shape.indexLists) :
    ∀ entry ∈ shape.entries common, entry.2.Fits := by
  rcases shape with p | ⟨_ | _, _⟩ | ⟨_ | _ | _ | _ | _, _, _⟩
  · rcases p with _ | _ | _ | _ | _ | _ | _ | ⟨_, _ | _, _⟩ | _ | _ <;>
      simp [Shape.entries, Primitive.entries, Value.Fits] <;> exact h
  all_goals simp [Shape.entries, Curve.entries, RoundedBase.entries, Rounding.entries, Value.Fits] <;> exact h

theorem Shape.nodes_notMem_entries {shape : Shape Float} :
    ∀ entry ∈ shape.entries common, entry.2.type ≠ .nodes := by
  rcases shape with p | ⟨_ | _, _⟩ | ⟨_ | _ | _ | _ | _, _, _⟩
  · rcases p with _ | _ | _ | _ | _ | _ | _ | ⟨_, _ | _, _⟩ | _ | _ <;> simp [Shape.entries, Primitive.entries]
  all_goals simp [Shape.entries, Curve.entries, RoundedBase.entries, Rounding.entries]

theorem Operation.fits_entries (op : Operation Float) (children : List (Node Float)) :
    ∀ entry ∈ op.entries children, entry.2.Fits := by
  rcases op with _ | _ | _ | (_ | _) | _ | _ | _ | _ | _ | _ | _ | _ <;>
    simp [Operation.entries, Operation.ownEntries, Value.Fits]

theorem Operation.nodes_of_entries {op : Operation Float} {children nodes : List (Node Float)} :
    ∀ entry ∈ op.entries children, entry.2 = ⟨.nodes, nodes⟩ → nodes = children := by
  rcases op with _ | _ | _ | (_ | _) | _ | _ | _ | _ | _ | _ | _ | _ <;>
    simp [Operation.entries, Operation.ownEntries, eq_comm]

end SolidScript
