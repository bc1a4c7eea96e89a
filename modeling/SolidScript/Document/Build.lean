import SolidScript.Document.Coerce
import SolidScript.Document.Report
import SolidScript.Json.Read
import SolidScript.Shape.Expand

/-!
# Building nodes

A document names a kind and gives parameters. `resolve` takes them to the values of the kind's schema: every required
parameter must be there before any value is looked at; then the parameters are coerced in the order of the schema, and
the first that cannot be is reported. The error of a child passes through unchanged, but a child that is no document of
a known kind makes the list that holds it unfit. Parameters that the schema does not declare are warned about once all
others are coerced. `construct` then picks the values by name and puts the node together.

Values nest, and so does the work: a parameter is `Supplied` as its raw value together with the report of reading that
value as a list of documents, and the schema decides which of the two counts.
-/

namespace SolidScript

/-- The values of a node's parameters, by name. -/
structure Values where
  kind : Kind
  entries : List (String × Value)

namespace Values

/-- The value under a name. -/
def find? (name : String) : List (String × Value) → Option Value
  | [] => none
  | (key, value) :: rest => if key = name then some value else find? name rest

/-- A value put under a name, if there is one. -/
def hold (name : String) : Option Value → List (String × Value) → List (String × Value)
  | some value, entries => (name, value) :: entries
  | none, entries => entries

/-- The error about a value that does not have the type it is used at; it tells the declared type. -/
def mismatch (values : Values) (name : String) : NodeError :=
  let declared := (schema values.kind).find? fun p => p.name == name
  .mismatch values.kind name ((declared.map fun p => p.type.describe).getD "declared parameter")

/-- The value of a parameter that may be absent, used at a type. -/
def get? (values : Values) (name : String) (type : ParamType) : Except NodeError (Option type.Carrier) :=
  match find? name values.entries with
  | none => .ok none
  | some value => if h : value.type = type then .ok (some (h ▸ value.content)) else .error (values.mismatch name)

/-- The value of a parameter, used at a type. -/
def get (values : Values) (name : String) (type : ParamType) : Except NodeError type.Carrier := do
  match ← values.get? name type with
  | some content => return content
  | none => throw (.missing values.kind name)

/-- A rotation: one angle about an axis, or three angles. -/
def rotation (values : Values) : Except NodeError (Rotation Float) := do
  match ← values.get "a" .angle with
  | .single angle => return .about angle (← values.get "v" .vector3)
  | .euler angles => return .euler angles

/-- The fillet of a rounded solid. -/
def rounding (values : Values) : Except NodeError (Rounding Float) :=
  return ⟨← values.get "round_r" .number, ← values.get "tool_height" .number⟩

/-- A radius of its own, or the common one. -/
def radius (values : Values) (name : String) (common : Float) : Except NodeError Float :=
  return (← values.get? name .number).getD common

end Values

open Values in
/-- The node with given values. -/
def construct (values : Values) : Except NodeError (Node Float) := do
  let get := values.get
  match values.kind with
  | .cube => return .drawn (.cube (← get "size" .vector3) (← get "center" .boolean))
  | .cylinder =>
    let r ← get "r" .number
    return .drawn (.cylinder (← get "h" .number) (← values.radius "r1" r) (← values.radius "r2" r)
      (← get "center" .boolean) (← get "resolution" .integer))
  | .sphere => return .drawn (.sphere (← get "r" .number) (← get "resolution" .integer))
  | .polyhedron =>
    return .drawn (.polyhedron (← get "points" .points3) (← get "faces" .indices) (← get "convexity" .integer))
  | .surface =>
    return .drawn (.surface (← get "file" .text) (← get "center" .boolean) (← get "invert" .boolean)
      (← get "convexity" .integer))
  | .square => return .drawn (.square (← get "size" .vector2) (← get "center" .boolean))
  | .circle => return .drawn (.circle (← get "r" .number) (← get "resolution" .integer))
  | .polygon =>
    return .drawn (.polygon (← get "points" .points2) (← values.get? "paths" .indices) (← get "convexity" .integer))
  | .line =>
    return .leaf (.derived (.curve
      (.line (← get "start" .vector2) (← get "end" .vector2) (← get "width" .number)) (← get "resolution" .integer)))
  | .arc =>
    return .leaf (.derived (.curve
      (.arc (← get "r" .number) (← get "start_angle" .number) (← get "end_angle" .number) (← get "width" .number))
      (← get "resolution" .integer)))
  | .text =>
    return .drawn (.text
      { text := ← get "text" .text, size := ← get "size" .number, font := ← get "font" .text,
        halign := ← get "halign" .text, valign := ← get "valign" .text, spacing := ← get "spacing" .number,
        direction := ← get "direction" .text, language := ← get "language" .text, script := ← get "script" .text,
        resolution := ← get "resolution" .integer })
  | .imported =>
    return .drawn (.imported (← get "file" .text) (← get "convexity" .integer) (← get "center" .boolean))
  | .translate => return .apply (.translate (← get "v" .vector3)) (← get "children" .nodes)
  | .resize => return .apply (.resize (← get "newsize" .vector3) (← get "auto" .flags3)) (← get "children" .nodes)
  | .composeMatrix => return .apply (.transform (← get "matrix" .matrix)) (← get "children" .nodes)
  | .rotate => return .apply (.rotate (← values.rotation)) (← get "children" .nodes)
  | .scale => return .apply (.scale (← get "v" .vector3)) (← get "children" .nodes)
  | .mirror => return .apply (.mirror (← get "v" .vector3)) (← get "children" .nodes)
  | .union => return .apply .union (← get "children" .nodes)
  | .difference => return .apply .difference (← get "children" .nodes)
  | .intersection => return .apply .intersection (← get "children" .nodes)
  | .minkowski => return .apply .minkowski (← get "children" .nodes)
  | .hull => return .apply .hull (← get "children" .nodes)
  | .forLoop => return .apply (.loop (← get "expression" .text)) (← get "body" .nodes)
  | .roundedCube =>
    return .leaf (.derived (.rounded (.cube (← get "size" .vector3) (← get "center" .boolean)) (← values.rounding)
      (← get "resolution" .integer)))
  | .roundedCylinder =>
    let r ← get "r" .number
    return .leaf (.derived (.rounded
      (.cylinder (← get "h" .number) (← values.radius "r1" r) (← values.radius "r2" r) (← get "center" .boolean))
      (← values.rounding) (← get "resolution" .integer)))
  | .roundedSphere =>
    return .leaf (.derived (.rounded (.sphere (← get "r" .number)) (← values.rounding)
      (← get "resolution" .integer)))
  | .roundedPolyhedron =>
    return .leaf (.derived (.rounded
      (.polyhedron (← get "points" .points3) (← get "faces" .indices) (← get "convexity" .integer))
      (← values.rounding) (← get "resolution" .integer)))
  | .roundedSurface =>
    return .leaf (.derived (.rounded
      (.surface (← get "file" .text) (← get "size" .vector3) (← get "center" .boolean) (← get "invert" .boolean)
        (← get "convexity" .integer))
      (← values.rounding) (← get "resolution" .integer)))

namespace Document

/-- A parameter as it is given: the value, and the report of reading it as a list of documents. -/
structure Supplied where
  raw : Json
  nodes : Report DocumentError (List (Node Float))

/-- The parameter with a name. -/
def supplied? (name : String) : List (String × Supplied) → Option Supplied
  | [] => none
  | (key, supplied) :: rest => if key = name then some supplied else supplied? name rest

/-- The error about a value that cannot be coerced. -/
def mismatch (kind : Kind) (p : Parameter) : NodeError := .mismatch kind p.name p.type.describe

/-- The error of a child as the error of the node that holds it. -/
def childError (kind : Kind) (p : Parameter) : DocumentError → NodeError
  | .node error => error
  | _ => mismatch kind p

/-- The value of a parameter that is given. -/
def coerce (kind : Kind) (p : Parameter) (supplied : Supplied) : Report NodeError Value :=
  match p.type with
  | .nodes => do return ⟨.nodes, ← supplied.nodes.mapError (childError kind p)⟩
  | t => Report.ofOption (mismatch kind p) ((Coerce.value? t supplied.raw).map (Value.mk t))

/-- The value of a parameter, given or not; an optional one may have none. -/
def resolveOne (options : Options) (kind : Kind) (bag : List (String × Supplied)) (p : Parameter) :
    Report NodeError (Option Value) :=
  match supplied? p.name bag with
  | some supplied => do return some (← coerce kind p supplied)
  | none => pure (p.standIn? options)

/-- The values of parameters that are examined in order, by name. -/
def resolveAll (options : Options) (kind : Kind) (bag : List (String × Supplied)) :
    List Parameter → Report NodeError (List (String × Value))
  | [] => pure []
  | p :: rest => do
    let value? ← resolveOne options kind bag p
    let entries ← resolveAll options kind bag rest
    pure (Values.hold p.name value? entries)

/-- The first required parameter that is not given. -/
def firstMissing? (bag : List (String × Supplied)) (ps : List Parameter) : Option Parameter :=
  ps.find? fun p => p.isRequired && (supplied? p.name bag).isNone

/-- The warnings about parameters that are not declared. -/
def unknownKeys (kind : Kind) (ps : List Parameter) (bag : List (String × Supplied)) : List Warning :=
  (bag.filter fun (key, _) => !ps.any fun p => p.name == key).map fun (key, _) => ⟨key, kind⟩

/-- The values of a node of a kind with the parameters of a bag. -/
def resolve (options : Options) (kind : Kind) (bag : List (String × Supplied)) : Report NodeError Values :=
  match firstMissing? bag (schema kind) with
  | some p => .fail (.missing kind p.name)
  | none => do
    let entries ← resolveAll options kind bag (schema kind)
    Report.warn (unknownKeys kind (schema kind) bag)
    pure ⟨kind, entries⟩

/-- The node of a kind with the parameters of a bag. -/
def buildSupplied (options : Options) (kind : Kind) (bag : List (String × Supplied)) :
    Report NodeError (Node Float) := do
  let values ← resolve options kind bag
  Report.ofExcept (construct values)

/-- The tag of a document. -/
def tag? (fields : List (String × Json)) : Option String :=
  match Json.field? "kind" fields with
  | some (.string tag) => some tag
  | _ => none

mutual

/-- The node of a document. -/
def read (options : Options) : Json → Report DocumentError (Node Float)
  | .object fields =>
    match tag? fields, bagIn? options fields with
    | some tag, some bag =>
      match Kind.ofTag? tag with
      | some kind => (buildSupplied options kind bag).mapError .node
      | none => .fail (.unknownKind tag)
    | _, _ => .fail .malformed
  | _ => .fail .malformed

/-- The parameters among the fields of a document; there are none if the field is absent. -/
def bagIn? (options : Options) : List (String × Json) → Option (List (String × Supplied))
  | [] => some []
  | (key, value) :: rest => if key = "params" then bagOf? options value else bagIn? options rest

/-- The parameters of an object; null has none. -/
def bagOf? (options : Options) : Json → Option (List (String × Supplied))
  | .null => some []
  | .object fields => some (supply options fields)
  | _ => none

/-- Every field as a parameter. -/
def supply (options : Options) : List (String × Json) → List (String × Supplied)
  | [] => []
  | (key, value) :: rest => (key, ⟨value, readList options value⟩) :: supply options rest

/-- The nodes of a list of documents. -/
def readList (options : Options) : Json → Report DocumentError (List (Node Float))
  | .array items => readItems options items
  | _ => .fail .malformed

/-- The nodes of documents, in order. -/
def readItems (options : Options) : List Json → Report DocumentError (List (Node Float))
  | [] => pure []
  | item :: rest => do
    let node ← read options item
    let nodes ← readItems options rest
    pure (node :: nodes)

end

/-- The node of a kind with given parameters. -/
def build (options : Options) (kind : Kind) (params : List (String × Json)) : Report NodeError (Node Float) :=
  buildSupplied options kind (supply options params)

/-- The node of the document that a text holds. -/
def readText (options : Options) (text : String) : Report DocumentError (Node Float) :=
  match Json.read? text with
  | some document => read options document
  | none => .fail .json

end Document
end SolidScript
