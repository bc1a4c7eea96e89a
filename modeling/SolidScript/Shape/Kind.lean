import SolidScript.Text.Basic
import SolidScript.Text.Lowercase.Mapping

/-!
# Kinds of node

The tag that names every kind of node in documents, and the coarse category a kind belongs to. A tag is read without
regard to case and surrounding blanks, and a hyphen stands for an underscore.
-/

namespace SolidScript

/-- What a node is. -/
inductive Kind where
  | cube
  | cylinder
  | sphere
  | polyhedron
  | surface
  | square
  | circle
  | polygon
  | line
  | arc
  | text
  | imported
  | translate
  | resize
  | composeMatrix
  | rotate
  | scale
  | mirror
  | union
  | difference
  | intersection
  | minkowski
  | hull
  | forLoop
  | roundedCube
  | roundedCylinder
  | roundedSphere
  | roundedPolyhedron
  | roundedSurface
deriving DecidableEq, Repr

/-- A coarse grouping of kinds. -/
inductive Category where
  | solid
  | planar
  | curve
  | special
  | placement
  | orientation
  | combinator
  | iteration
  | rounded
deriving DecidableEq, Repr

/-- The name of a category. -/
def Category.name : Category → String
  | .solid => "Solid"
  | .planar => "Planar"
  | .curve => "Curve"
  | .special => "Special"
  | .placement => "Placement"
  | .orientation => "Orientation"
  | .combinator => "Combinator"
  | .iteration => "Iteration"
  | .rounded => "Rounded"

namespace Kind

/-- Every kind, in the order in which kinds are listed. -/
def all : List Kind :=
  [.cube, .cylinder, .sphere, .polyhedron, .surface, .square, .circle, .polygon, .line, .arc, .text, .imported,
   .translate, .resize, .composeMatrix, .rotate, .scale, .mirror, .union, .difference, .intersection, .minkowski,
   .hull, .forLoop, .roundedCube, .roundedCylinder, .roundedSphere, .roundedPolyhedron, .roundedSurface]

/-- The tag of a kind in documents. -/
def tag : Kind → String
  | .cube => "cube"
  | .cylinder => "cylinder"
  | .sphere => "sphere"
  | .polyhedron => "polyhedron"
  | .surface => "surface"
  | .square => "square"
  | .circle => "circle"
  | .polygon => "polygon"
  | .line => "line"
  | .arc => "arc"
  | .text => "text"
  | .imported => "import"
  | .translate => "translate"
  | .resize => "resize"
  | .composeMatrix => "compose_matrix"
  | .rotate => "rotate"
  | .scale => "scale"
  | .mirror => "mirror"
  | .union => "union"
  | .difference => "difference"
  | .intersection => "intersection"
  | .minkowski => "minkowski"
  | .hull => "hull"
  | .forLoop => "for_loop"
  | .roundedCube => "rounded_cube"
  | .roundedCylinder => "rounded_cylinder"
  | .roundedSphere => "rounded_sphere"
  | .roundedPolyhedron => "rounded_polyhedron"
  | .roundedSurface => "rounded_surface"

/-- The category of a kind. -/
def category : Kind → Category
  | .cube | .cylinder | .sphere | .polyhedron | .surface => .solid
  | .square | .circle | .polygon => .planar
  | .line | .arc => .curve
  | .text | .imported => .special
  | .translate | .resize | .composeMatrix => .placement
  | .rotate | .scale | .mirror => .orientation
  | .union | .difference | .intersection | .minkowski | .hull => .combinator
  | .forLoop => .iteration
  | .roundedCube | .roundedCylinder | .roundedSphere | .roundedPolyhedron | .roundedSurface => .rounded

/-- The form in which a written tag is compared. -/
def normalTag (written : String) : String :=
  String.ofList ((Text.lowercase (Text.trim written)).toList.map fun c => if c = '-' then '_' else c)

/-- The kind that a written tag names. -/
@[irreducible]
def ofTag? (written : String) : Option Kind :=
  let tag := normalTag written
  all.find? fun kind => kind.tag == tag

/-- A tag names its kind. -/
theorem ofTag?_tag (kind : Kind) : ofTag? kind.tag = some kind := by
  unfold ofTag?
  cases kind <;> decide +kernel

/-- The list of all kinds leaves none out. -/
theorem mem_all (kind : Kind) : kind ∈ all := by cases kind <;> decide

end Kind
end SolidScript
