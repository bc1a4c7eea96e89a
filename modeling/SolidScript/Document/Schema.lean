import SolidScript.Json.Basic
import SolidScript.Shape.Tree

/-!
# Schemas

The parameters that a document of each kind may give: their names in the order in which they are examined, the type a
value is coerced into, and what stands in for a parameter that is not given. A `Value` is a parameter's value together
with its type; a default has the type of the parameter it stands in for.
-/

namespace SolidScript

/-- A rotation as a document gives it: one angle, or three. -/
inductive Turn where
  | single (degrees : Float)
  | euler (angles : Vec3 Float)

/-- The type of a parameter. -/
inductive ParamType where
  | number
  | integer
  | boolean
  | text
  | vector2
  | vector3
  | flags3
  | angle
  | points2
  | points3
  | indices
  | matrix
  | nodes
deriving DecidableEq, Repr

namespace ParamType

/-- The values of a type. -/
abbrev Carrier : ParamType → Type
  | .number => Float
  | .integer => UInt32
  | .boolean => Bool
  | .text => String
  | .vector2 => Vec2 Float
  | .vector3 => Vec3 Float
  | .flags3 => Vec3 Bool
  | .angle => Turn
  | .points2 => List (Vec2 Float)
  | .points3 => List (Vec3 Float)
  | .indices => List (List UInt64)
  | .matrix => Matrix4 Float
  | .nodes => List (Node Float)

/-- What a value of the type is called in messages. -/
def describe : ParamType → String
  | .number => "number"
  | .integer => "non-negative integer"
  | .boolean => "boolean"
  | .text => "string"
  | .vector2 => "2D vector"
  | .vector3 => "3D vector"
  | .flags3 => "boolean or list of 3 booleans"
  | .angle => "angle or 3D vector of angles"
  | .points2 => "list of 2D points"
  | .points3 => "list of 3D points"
  | .indices => "list of index lists"
  | .matrix => "4x4 or 3x4 matrix"
  | .nodes => "list of node documents"

/-- The name of the type in a written schema. -/
def name : ParamType → String
  | .number => "number"
  | .integer => "integer"
  | .boolean => "boolean"
  | .text => "text"
  | .vector2 => "vector2"
  | .vector3 => "vector3"
  | .flags3 => "flags3"
  | .angle => "angle"
  | .points2 => "points2"
  | .points3 => "points3"
  | .indices => "indices"
  | .matrix => "matrix"
  | .nodes => "nodes"

end ParamType

/-- Settings that fill in for parameters which are not given. -/
structure Options where
  resolution : UInt32
  toolHeight : Float
deriving DecidableEq, Repr

/-- The settings without a configuration. -/
def Options.standard : Options := ⟨32, 0.001⟩

/-- The value of a parameter that is not given. -/
inductive Default : ParamType → Type where
  | number (x : Float) : Default .number
  | integer (n : UInt32) : Default .integer
  | boolean (b : Bool) : Default .boolean
  | text (s : String) : Default .text
  | vector3 (v : Vec3 Float) : Default .vector3
  | flags3 (v : Vec3 Bool) : Default .flags3
  /-- No children. -/
  | noNodes : Default .nodes
  /-- The resolution of the settings. -/
  | resolution : Default .integer
  /-- The tool height of the settings. -/
  | toolHeight : Default .number

namespace Default

/-- The value under given settings. -/
def value (options : Options) {t : ParamType} : Default t → t.Carrier
  | .number x => x
  | .integer n => n
  | .boolean b => b
  | .text s => s
  | .vector3 v => v
  | .flags3 v => v
  | .noNodes => []
  | .resolution => options.resolution
  | .toolHeight => options.toolHeight

end Default

/-- Whether a parameter must be given, and what stands in for it. -/
inductive Presence (t : ParamType) where
  /-- It must be given. -/
  | required
  /-- It may be absent and then has no value. -/
  | optional
  /-- It has a value of its own. -/
  | default (d : Default t)

/-- A declared parameter. -/
structure Parameter where
  name : String
  type : ParamType
  presence : Presence type

/-- A value together with its type. -/
structure Value where
  type : ParamType
  content : type.Carrier

namespace Parameter

/-- Whether a parameter must be given. -/
def isRequired (p : Parameter) : Bool :=
  match p.presence with
  | .required => true
  | _ => false

/-- What stands in for a parameter that is not given; nothing does for a required one. -/
def standIn? (options : Options) (p : Parameter) : Option Value :=
  match p.presence with
  | .default d => some ⟨p.type, d.value options⟩
  | _ => none

/-- A parameter that must be given. -/
def need (name : String) (type : ParamType) : Parameter := ⟨name, type, .required⟩

/-- A parameter that may be absent. -/
def may (name : String) (type : ParamType) : Parameter := ⟨name, type, .optional⟩

/-- A parameter with a default. -/
def given (name : String) {type : ParamType} (d : Default type) : Parameter := ⟨name, type, .default d⟩

/-- The number of segments of a full circle. -/
def resolution : Parameter := given "resolution" .resolution

/-- Whether a shape is centred at the origin. -/
def center : Parameter := given "center" (.boolean false)

/-- Whether the heights of a surface are inverted. -/
def invert : Parameter := given "invert" (.boolean false)

/-- The greatest number of times a ray enters a shape. -/
def convexity : Parameter := given "convexity" (.integer 10)

/-- The nodes that a node is made of. -/
def children : Parameter := given "children" .noNodes

/-- The radius of a fillet. -/
def roundRadius : Parameter := need "round_r" .number

/-- The height of the tool that makes a fillet. -/
def toolHeight : Parameter := given "tool_height" .toolHeight

end Parameter

open Parameter in
/-- The parameters of a kind, in the order in which they are examined. -/
def schema : Kind → List Parameter
  | .cube => [need "size" .vector3, center]
  | .cylinder =>
    [need "h" .number, need "r" .number, may "r1" .number, may "r2" .number, center, resolution]
  | .sphere => [need "r" .number, resolution]
  | .polyhedron => [need "points" .points3, need "faces" .indices, convexity]
  | .surface => [need "file" .text, center, invert, convexity]
  | .square => [need "size" .vector2, center]
  | .circle => [need "r" .number, resolution]
  | .polygon => [need "points" .points2, may "paths" .indices, convexity]
  | .line => [need "start" .vector2, need "end" .vector2, given "width" (.number 1), resolution]
  | .arc =>
    [need "r" .number, need "start_angle" .number, need "end_angle" .number, given "width" (.number 1), resolution]
  | .text =>
    [need "text" .text, given "size" (.number 10), given "font" (.text "Liberation Sans"),
     given "halign" (.text "left"), given "valign" (.text "baseline"), given "spacing" (.number 1),
     given "direction" (.text "ltr"), given "language" (.text "en"), given "script" (.text "latin"), resolution]
  | .imported => [need "file" .text, convexity, center]
  | .translate => [need "v" .vector3, children]
  | .resize => [need "newsize" .vector3, given "auto" (.flags3 (.all false)), children]
  | .composeMatrix => [need "matrix" .matrix, children]
  | .rotate => [need "a" .angle, given "v" (.vector3 ⟨0, 0, 1⟩), children]
  | .scale => [need "v" .vector3, children]
  | .mirror => [need "v" .vector3, children]
  | .union | .difference | .intersection | .minkowski | .hull => [children]
  | .forLoop => [need "expression" .text, given "body" .noNodes]
  | .roundedCube => [need "size" .vector3, roundRadius, center, toolHeight, resolution]
  | .roundedCylinder =>
    [need "h" .number, need "r" .number, roundRadius, may "r1" .number, may "r2" .number, center, toolHeight,
     resolution]
  | .roundedSphere => [need "r" .number, roundRadius, toolHeight, resolution]
  | .roundedPolyhedron =>
    [need "points" .points3, need "faces" .indices, roundRadius, convexity, toolHeight, resolution]
  | .roundedSurface =>
    [need "file" .text, need "size" .vector3, roundRadius, center, invert, convexity, toolHeight, resolution]

/-- The names of the parameters that a kind cannot do without. -/
def requiredNames (kind : Kind) : List String := ((schema kind).filter Parameter.isRequired).map Parameter.name

/-! ## Written schemas -/

namespace Default

/-- The value in a written schema. -/
def toJson {t : ParamType} : Default t → Json
  | .number x => .object [("number", .ofDouble x)]
  | .integer n => .object [("integer", .ofNat n.toNat)]
  | .boolean b => .object [("boolean", .bool b)]
  | .text s => .object [("text", .string s)]
  | .vector3 v => .object [("vector3", .array (v.toList.map Json.ofDouble))]
  | .flags3 v => .object [("flags3", .array (v.toList.map Json.bool))]
  | .noNodes => .string "no_nodes"
  | .resolution => .string "resolution"
  | .toolHeight => .string "tool_height"

end Default

/-- What stands in for a parameter, in a written schema; nothing does for a required one. -/
def Presence.toJson {t : ParamType} : Presence t → Json
  | .required => .null
  | .optional => .string "absent"
  | .default d => d.toJson

/-- A parameter in a written schema. -/
def Parameter.toJson (p : Parameter) : Json :=
  .object [("name", .string p.name), ("type", .string p.type.name), ("default", p.presence.toJson)]

/-- The written schema of a kind. -/
def schemaJson (kind : Kind) : Json := .array ((schema kind).map Parameter.toJson)

end SolidScript
