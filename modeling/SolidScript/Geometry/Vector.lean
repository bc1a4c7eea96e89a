import SolidScript.Scalar.Basic

/-!
# Vectors and matrices

Points and vectors of the plane and of space, and matrices of four rows and four columns, over any type of entries.
-/

namespace SolidScript

/-- A vector or point of the plane. -/
structure Vec2 (α : Type) where
  x : α
  y : α
deriving DecidableEq, Repr

/-- A vector or point of space. -/
structure Vec3 (α : Type) where
  x : α
  y : α
  z : α
deriving DecidableEq, Repr

namespace Vec2

/-- The same entry along both axes. -/
def all {α : Type} (a : α) : Vec2 α := ⟨a, a⟩

/-- The entries in order. -/
def toList {α : Type} (v : Vec2 α) : List α := [v.x, v.y]

/-- The vector with the given entries, of which there must be two. -/
def ofList? {α : Type} : List α → Option (Vec2 α)
  | [x, y] => some ⟨x, y⟩
  | _ => none

theorem ofList?_toList {α : Type} (v : Vec2 α) : ofList? v.toList = some v := rfl

end Vec2

namespace Vec3

/-- The same entry along all axes. -/
def all {α : Type} (a : α) : Vec3 α := ⟨a, a, a⟩

/-- The entries in order. -/
def toList {α : Type} (v : Vec3 α) : List α := [v.x, v.y, v.z]

/-- The vector with the given entries, of which there must be three. -/
def ofList? {α : Type} : List α → Option (Vec3 α)
  | [x, y, z] => some ⟨x, y, z⟩
  | _ => none

/-- Every entry changed. -/
def map {α β : Type} (f : α → β) (v : Vec3 α) : Vec3 β := ⟨f v.x, f v.y, f v.z⟩

/-- Entries of two vectors put together. -/
def zipWith {α β γ : Type} (f : α → β → γ) (v : Vec3 α) (w : Vec3 β) : Vec3 γ := ⟨f v.x w.x, f v.y w.y, f v.z w.z⟩

theorem ofList?_toList {α : Type} (v : Vec3 α) : ofList? v.toList = some v := rfl

end Vec3

/-- A matrix of four rows and four columns. -/
structure Matrix4 (α : Type) where
  /-- The cell in a row and a column. -/
  cell : Fin 4 → Fin 4 → α

namespace Matrix4

/-- The cells of a row. -/
def row {α : Type} (m : Matrix4 α) (r : Fin 4) : List α := List.ofFn fun c : Fin 4 => m.cell r c

/-- The rows from the first to the last. -/
def rows {α : Type} (m : Matrix4 α) : List (List α) := List.ofFn fun r : Fin 4 => m.row r

/-- The cells column by column. -/
def columnMajor {α : Type} (m : Matrix4 α) : List α :=
  (List.ofFn fun c : Fin 4 => List.ofFn fun r : Fin 4 => m.cell r c).flatten

/-- The last row of a matrix that moves points without projecting them. -/
def affineRow {α : Type} [Scalar α] : Fin 4 → α := fun c => if c = 3 then 1 else 0

/-- Four cells by position; there must be four. -/
def cells? {α : Type} : List α → Option (Fin 4 → α)
  | [a, b, c, d] => some fun i => match i with
    | 0 => a
    | 1 => b
    | 2 => c
    | 3 => d
  | _ => none

/-- The matrix with the given rows: four, or three to which the affine row is added. -/
def ofRows? {α : Type} [Scalar α] (rows : List (Fin 4 → α)) : Option (Matrix4 α) :=
  match rows with
  | [a, b, c] => (cells? [a, b, c, affineRow]).map Matrix4.mk
  | rows => (cells? rows).map Matrix4.mk

/-- The matrix whose sixteen cells are given column by column. -/
def ofColumnMajor? {α : Type} : List α → Option (Matrix4 α)
  | [a, b, c, d, e, f, g, h, i, j, k, l, m, n, o, p] => do
    let rows ← cells? [← cells? [a, e, i, m], ← cells? [b, f, j, n], ← cells? [c, g, k, o], ← cells? [d, h, l, p]]
    some ⟨rows⟩
  | _ => none

end Matrix4
end SolidScript
