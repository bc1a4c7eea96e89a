import SolidScript.Json.Basic
import SolidScript.Geometry.Vector

/-!
# Records in JSON

Values of fixed types as they are stored, read without any coercion. A record is an object whose declared fields occur
at most once, in any order and among others, or the list of its fields in the declared order. A choice between named
variants is an object with a single field.
-/

namespace SolidScript.Json

/-! ## Plain values -/

/-- A number. -/
def asDouble? : Json → Option Float
  | .number n => some n.toDouble
  | _ => none

/-- An integer from zero to below a bound. -/
def asCount? (bound : Nat) : Json → Option Nat
  | .number (.integer n) => if 0 ≤ n ∧ n < bound then some n.toNat else none
  | _ => none

/-- A 32-bit count. -/
def asWord32? (value : Json) : Option UInt32 := (asCount? UInt32.size value).map UInt32.ofNat

/-- A 64-bit count. -/
def asWord64? (value : Json) : Option UInt64 := (asCount? UInt64.size value).map UInt64.ofNat

/-- A truth value. -/
def asBool? : Json → Option Bool
  | .bool b => some b
  | _ => none

/-- A string. -/
def asString? : Json → Option String
  | .string s => some s
  | _ => none

/-- A list whose items are all read by `item`. -/
def asList? {α : Type} (item : Json → Option α) : Json → Option (List α)
  | .array items => items.mapM item
  | _ => none

/-- A value, or null for its absence. -/
def asOptional? {α : Type} (item : Json → Option α) : Json → Option (Option α)
  | .null => some none
  | value => (item value).map some

/-- A list of two entries. -/
def asVec2? {α : Type} (entry : Json → Option α) (value : Json) : Option (Vec2 α) := do
  Vec2.ofList? (← asList? entry value)

/-- A list of three entries. -/
def asVec3? {α : Type} (entry : Json → Option α) (value : Json) : Option (Vec3 α) := do
  Vec3.ofList? (← asList? entry value)

/-- A variant without content: its name, or an object whose only field is its name, with null. -/
def asName? : Json → Option String
  | .string name => some name
  | .object [(name, .null)] => some name
  | _ => none

/-! ## Records -/

/-- The fields of a record, by name. -/
abbrev Record := String → Option Json

/-- The number of fields with a key. -/
def occurrences (key : String) (fields : List (String × Json)) : Nat :=
  fields.countP fun (k, _) => k == key

/-- The record with the declared fields that a value holds. -/
def asRecord? (names : List String) : Json → Option Record
  | .object fields =>
    if names.all fun name => decide (occurrences name fields ≤ 1) then some fun name => field? name fields else none
  | .array items =>
    if items.length = names.length then some fun name => field? name (names.zip items) else none
  | _ => none

/-- A field that must be there. -/
def Record.need? {α : Type} (record : Record) (name : String) (read : Json → Option α) : Option α :=
  (record name).bind read

/-- A field that may be left out, which counts as null. -/
def Record.may? {α : Type} (record : Record) (name : String) (read : Json → Option α) : Option (Option α) :=
  asOptional? read ((record name).getD .null)

/-! ## Writing -/

/-- A vector of the plane. -/
def ofVec2 (v : Vec2 Float) : Json := .array (v.toList.map ofDouble)

/-- A vector of space. -/
def ofVec3 (v : Vec3 Float) : Json := .array (v.toList.map ofDouble)

/-- A 32-bit count. -/
def ofWord32 (n : UInt32) : Json := ofNat n.toNat

/-- Lists of 64-bit counts. -/
def ofIndices (lists : List (List UInt64)) : Json :=
  .array (lists.map fun list => .array (list.map fun i => ofNat i.toNat))

/-- Lists of 64-bit counts, read. -/
def asIndices? : Json → Option (List (List UInt64)) := asList? (asList? asWord64?)

end SolidScript.Json
