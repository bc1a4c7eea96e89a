import SolidScript.Json.Record
import SolidScript.Shape.Tree

/-!
# Stored trees

Trees as JSON values. A node is an object whose only field is named for its kind and holds its content: a record of
its measures, with the children as the last field, or for a combinator just the list of its children. `store` writes
a node and `restore?` reads it; nothing is coerced, and nothing but absent paths may be left out.
-/

namespace SolidScript

/-- The name of a kind in stored trees. -/
def Kind.storedName : Kind → String
  | .cube => "Cube"
  | .cylinder => "Cylinder"
  | .sphere => "Sphere"
  | .polyhedron => "Polyhedron"
  | .surface => "Surface"
  | .square => "Square"
  | .circle => "Circle"
  | .polygon => "Polygon"
  | .line => "Line"
  | .arc => "Arc"
  | .text => "Text"
  | .imported => "Import"
  | .translate => "Translate"
  | .resize => "Resize"
  | .composeMatrix => "ComposeMatrix"
  | .rotate => "Rotate"
  | .scale => "Scale"
  | .mirror => "Mirror"
  | .union => "Union"
  | .difference => "Difference"
  | .intersection => "Intersection"
  | .minkowski => "Minkowski"
  | .hull => "Hull"
  | .forLoop => "ForLoop"
  | .roundedCube => "RoundedCube"
  | .roundedCylinder => "RoundedCylinder"
  | .roundedSphere => "RoundedSphere"
  | .roundedPolyhedron => "RoundedPolyhedron"
  | .roundedSurface => "RoundedSurface"

/-- The kind with a name in stored trees. -/
def Kind.ofStoredName? (name : String) : Option Kind := Kind.all.find? fun kind => kind.storedName == name

namespace Stored

open Json (Record ofDouble ofVec2 ofVec3 ofWord32 ofIndices asDouble? asWord32? asBool? asString? asVec2? asVec3?
  asIndices? asList? asRecord?)

/-! ## Writing -/

/-- The fields of a label. -/
def labelFields (l : Label Float) : List (String × Json) :=
  [("text", .string l.text), ("size", ofDouble l.size), ("font", .string l.font), ("halign", .string l.halign),
   ("valign", .string l.valign), ("spacing", ofDouble l.spacing), ("direction", .string l.direction),
   ("language", .string l.language), ("script", .string l.script), ("resolution", ofWord32 l.resolution)]

/-- Lists of points of the plane. -/
def ofPoints2 (points : List (Vec2 Float)) : Json := .array (points.map ofVec2)

/-- Lists of points of space. -/
def ofPoints3 (points : List (Vec3 Float)) : Json := .array (points.map ofVec3)

/-- The fields of a primitive. -/
def primitiveFields : Primitive Float → List (String × Json)
  | .cube size center => [("size", ofVec3 size), ("center", .bool center)]
  | .cylinder h r1 r2 center resolution =>
    [("h", ofDouble h), ("r1", ofDouble r1), ("r2", ofDouble r2), ("center", .bool center),
     ("resolution", ofWord32 resolution)]
  | .sphere r resolution => [("r", ofDouble r), ("resolution", ofWord32 resolution)]
  | .polyhedron points faces convexity =>
    [("points", ofPoints3 points), ("faces", ofIndices faces), ("convexity", ofWord32 convexity)]
  | .surface file center invert convexity =>
    [("file", .string file), ("center", .bool center), ("invert", .bool invert), ("convexity", ofWord32 convexity)]
  | .square size center => [("size", ofVec2 size), ("center", .bool center)]
  | .circle r resolution => [("r", ofDouble r), ("resolution", ofWord32 resolution)]
  | .polygon points paths convexity =>
    [("points", ofPoints2 points), ("paths", (paths.map ofIndices).getD .null), ("convexity", ofWord32 convexity)]
  | .text label => labelFields label
  | .imported file convexity center =>
    [("file", .string file), ("convexity", ofWord32 convexity), ("center", .bool center)]

/-- The record of a rounding. -/
def ofRounding (rounding : Rounding Float) : Json :=
  .object [("radius", ofDouble rounding.radius), ("tool_height", ofDouble rounding.toolHeight)]

/-- The fields of a derived shape. -/
def derivedFields : Derived Float → List (String × Json)
  | .curve (.line start stop width) resolution =>
    [("start", ofVec2 start), ("end", ofVec2 stop), ("width", ofDouble width), ("resolution", ofWord32 resolution)]
  | .curve (.arc r startAngle endAngle width) resolution =>
    [("r", ofDouble r), ("start_angle", ofDouble startAngle), ("end_angle", ofDouble endAngle),
     ("width", ofDouble width), ("resolution", ofWord32 resolution)]
  | .rounded (.cube size center) rounding resolution =>
    [("size", ofVec3 size), ("center", .bool center), ("rounding", ofRounding rounding),
     ("resolution", ofWord32 resolution)]
  | .rounded (.cylinder h r1 r2 center) rounding resolution =>
    [("h", ofDouble h), ("r1", ofDouble r1), ("r2", ofDouble r2), ("center", .bool center),
     ("rounding", ofRounding rounding), ("resolution", ofWord32 resolution)]
  | .rounded (.sphere r) rounding resolution =>
    [("r", ofDouble r), ("rounding", ofRounding rounding), ("resolution", ofWord32 resolution)]
  | .rounded (.polyhedron points faces convexity) rounding resolution =>
    [("points", ofPoints3 points), ("faces", ofIndices faces), ("convexity", ofWord32 convexity),
     ("rounding", ofRounding rounding), ("resolution", ofWord32 resolution)]
  | .rounded (.surface file size center invert convexity) rounding resolution =>
    [("file", .string file), ("size", ofVec3 size), ("center", .bool center), ("invert", .bool invert),
     ("convexity", ofWord32 convexity), ("rounding", ofRounding rounding), ("resolution", ofWord32 resolution)]

/-- The fields of a shape. -/
def shapeFields : Shape Float → List (String × Json)
  | .primitive p => primitiveFields p
  | .derived d => derivedFields d

/-- A rotation. -/
def ofRotation : Rotation Float → Json
  | .euler angles => .object [("Euler", ofVec3 angles)]
  | .about angle axis => .object [("Axis", .object [("angle", ofDouble angle), ("axis", ofVec3 axis)])]

/-- The content of an operation with given children. -/
def operationContent (op : Operation Float) (children : Json) : Json :=
  match op with
  | .translate v => .object [("v", ofVec3 v), ("children", children)]
  | .resize size auto =>
    .object [("newsize", ofVec3 size), ("auto", .array (auto.toList.map Json.bool)), ("children", children)]
  | .transform matrix =>
    .object [("matrix", .array (matrix.columnMajor.map ofDouble)), ("children", children)]
  | .rotate rotation => .object [("rotation", ofRotation rotation), ("children", children)]
  | .scale v => .object [("v", ofVec3 v), ("children", children)]
  | .mirror v => .object [("v", ofVec3 v), ("children", children)]
  | .union | .difference | .intersection | .minkowski | .hull => children
  | .loop expression => .object [("expression", .string expression), ("body", children)]

mutual

/-- The stored form of a node. -/
def store : Node Float → Json
  | .leaf shape => .object [((Node.kind (.leaf shape)).storedName, .object (shapeFields shape))]
  | .apply op children => .object [(op.kind.storedName, operationContent op (.array (storeList children)))]

/-- The stored forms of nodes. -/
def storeList : List (Node Float) → List Json
  | [] => []
  | node :: rest => store node :: storeList rest

end

/-! ## Reading -/

/-- The names of the fields of a kind. A combinator has none: its content is the list of its children. -/
def fieldNames : Kind → List String
  | .cube => ["size", "center"]
  | .cylinder => ["h", "r1", "r2", "center", "resolution"]
  | .sphere => ["r", "resolution"]
  | .polyhedron => ["points", "faces", "convexity"]
  | .surface => ["file", "center", "invert", "convexity"]
  | .square => ["size", "center"]
  | .circle => ["r", "resolution"]
  | .polygon => ["points", "paths", "convexity"]
  | .line => ["start", "end", "width", "resolution"]
  | .arc => ["r", "start_angle", "end_angle", "width", "resolution"]
  | .text =>
    ["text", "size", "font", "halign", "valign", "spacing", "direction", "language", "script", "resolution"]
  | .imported => ["file", "convexity", "center"]
  | .translate => ["v", "children"]
  | .resize => ["newsize", "auto", "children"]
  | .composeMatrix => ["matrix", "children"]
  | .rotate => ["rotation", "children"]
  | .scale => ["v", "children"]
  | .mirror => ["v", "children"]
  | .union | .difference | .intersection | .minkowski | .hull => []
  | .forLoop => ["expression", "body"]
  | .roundedCube => ["size", "center", "rounding", "resolution"]
  | .roundedCylinder => ["h", "r1", "r2", "center", "rounding", "resolution"]
  | .roundedSphere => ["r", "rounding", "resolution"]
  | .roundedPolyhedron => ["points", "faces", "convexity", "rounding", "resolution"]
  | .roundedSurface => ["file", "size", "center", "invert", "convexity", "rounding", "resolution"]

/-- A rounding. -/
def asRounding? (value : Json) : Option (Rounding Float) := do
  let record ← asRecord? ["radius", "tool_height"] value
  some ⟨← record.need? "radius" asDouble?, ← record.need? "tool_height" asDouble?⟩

/-- A rotation. -/
def asRotation? : Json → Option (Rotation Float)
  | .object [(name, content)] =>
    if name = "Euler" then (asVec3? asDouble? content).map Rotation.euler
    else if name = "Axis" then do
      let record ← asRecord? ["angle", "axis"] content
      some (.about (← record.need? "angle" asDouble?) (← record.need? "axis" (asVec3? asDouble?)))
    else none
  | _ => none

/-- The shape of a kind with the fields of a record; an operation is no shape. -/
def asShape? (kind : Kind) (record : Record) : Option (Shape Float) :=
  let double := fun name => record.need? name asDouble?
  let word := fun name => record.need? name asWord32?
  let flag := fun name => record.need? name asBool?
  let text := fun name => record.need? name asString?
  let plane := fun name => record.need? name (asVec2? asDouble?)
  let space := fun name => record.need? name (asVec3? asDouble?)
  let faces := fun name => record.need? name asIndices?
  let points := fun name => record.need? name (asList? (asVec3? asDouble?))
  let rounding := record.need? "rounding" asRounding?
  match kind with
  | .cube => do some (.primitive (.cube (← space "size") (← flag "center")))
  | .cylinder => do
    some (.primitive (.cylinder (← double "h") (← double "r1") (← double "r2") (← flag "center")
      (← word "resolution")))
  | .sphere => do some (.primitive (.sphere (← double "r") (← word "resolution")))
  | .polyhedron => do
    some (.primitive (.polyhedron (← points "points") (← faces "faces") (← word "convexity")))
  | .surface => do
    some (.primitive (.surface (← text "file") (← flag "center") (← flag "invert") (← word "convexity")))
  | .square => do some (.primitive (.square (← plane "size") (← flag "center")))
  | .circle => do some (.primitive (.circle (← double "r") (← word "resolution")))
  | .polygon => do
    some (.primitive (.polygon (← record.need? "points" (asList? (asVec2? asDouble?)))
      (← record.may? "paths" asIndices?) (← word "convexity")))
  | .line => do
    some (.derived (.curve (.line (← plane "start") (← plane "end") (← double "width")) (← word "resolution")))
  | .arc => do
    some (.derived (.curve (.arc (← double "r") (← double "start_angle") (← double "end_angle") (← double "width"))
      (← word "resolution")))
  | .text => do
    some (.primitive (.text
      ⟨← text "text", ← double "size", ← text "font", ← text "halign", ← text "valign", ← double "spacing",
       ← text "direction", ← text "language", ← text "script", ← word "resolution"⟩))
  | .imported => do
    some (.primitive (.imported (← text "file") (← word "convexity") (← flag "center")))
  | .roundedCube => do
    some (.derived (.rounded (.cube (← space "size") (← flag "center")) (← rounding) (← word "resolution")))
  | .roundedCylinder => do
    some (.derived (.rounded (.cylinder (← double "h") (← double "r1") (← double "r2") (← flag "center"))
      (← rounding) (← word "resolution")))
  | .roundedSphere => do
    some (.derived (.rounded (.sphere (← double "r")) (← rounding) (← word "resolution")))
  | .roundedPolyhedron => do
    some (.derived (.rounded (.polyhedron (← points "points") (← faces "faces") (← word "convexity"))
      (← rounding) (← word "resolution")))
  | .roundedSurface => do
    some (.derived (.rounded
      (.surface (← text "file") (← space "size") (← flag "center") (← flag "invert") (← word "convexity"))
      (← rounding) (← word "resolution")))
  | _ => none

/-- The operation of a kind with the fields of a record; a shape is no operation. -/
def asOperation? (kind : Kind) (record : Record) : Option (Operation Float) :=
  let space := fun name => record.need? name (asVec3? asDouble?)
  match kind with
  | .translate => do some (.translate (← space "v"))
  | .resize => do some (.resize (← space "newsize") (← record.need? "auto" (asVec3? asBool?)))
  | .composeMatrix => do
    some (.transform (← Matrix4.ofColumnMajor? (← record.need? "matrix" (asList? asDouble?))))
  | .rotate => do some (.rotate (← record.need? "rotation" asRotation?))
  | .scale => do some (.scale (← space "v"))
  | .mirror => do some (.mirror (← space "v"))
  | .union => some .union
  | .difference => some .difference
  | .intersection => some .intersection
  | .minkowski => some .minkowski
  | .hull => some .hull
  | .forLoop => do some (.loop (← record.need? "expression" asString?))
  | _ => none

/-- The leaf or the operation over given children that a content makes up. Children are asked for only by an
operation. -/
def assemble? (kind : Kind) (content : Json) (children : Option (List (Node Float))) : Option (Node Float) :=
  match fieldNames kind with
  | [] => do some (.apply (← asOperation? kind fun _ => none) (← children))
  | names => do
    let record ← asRecord? names content
    match asShape? kind record with
    | some shape => some (.leaf shape)
    | none => do some (.apply (← asOperation? kind record) (← children))

mutual

/-- The node that a stored form stands for. -/
def restore? : Json → Option (Node Float)
  | .object fields => restoreOnly? fields
  | _ => none

/-- The node that the only field of an object stands for. -/
def restoreOnly? : List (String × Json) → Option (Node Float)
  | [(name, content)] => do
    let kind ← Kind.ofStoredName? name
    assemble? kind content (restoreChildren? kind content)
  | _ => none

/-- The children in the content of a kind: the content itself, or its last field. -/
def restoreChildren? (kind : Kind) : Json → Option (List (Node Float))
  | .array items =>
    match fieldNames kind with
    | [] => restoreItems? items
    | _ => restoreLast? items
  | .object fields => restoreField? ((fieldNames kind).getLastD "") fields
  | _ => none

/-- The nodes of the list that stands last among items. -/
def restoreLast? : List Json → Option (List (Node Float))
  | [] => none
  | [item] => restoreList? item
  | _ :: rest => restoreLast? rest

/-- The nodes of the list in a field. -/
def restoreField? (name : String) : List (String × Json) → Option (List (Node Float))
  | [] => none
  | (key, value) :: rest => if key = name then restoreList? value else restoreField? name rest

/-- The nodes of a list. -/
def restoreList? : Json → Option (List (Node Float))
  | .array items => restoreItems? items
  | _ => none

/-- The nodes that stored forms stand for, in order. -/
def restoreItems? : List Json → Option (List (Node Float))
  | [] => some []
  | item :: rest => do some ((← restore? item) :: (← restoreItems? rest))

end

end Stored
end SolidScript
