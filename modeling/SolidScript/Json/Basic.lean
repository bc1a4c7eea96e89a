import SolidScript.Decimal.Layout

/-!
# JSON values

The values of a JSON text. A number is an integer if it is written as one and fits 64 bits, and a double otherwise.
The fields of an object keep their order; `canonical` sorts them by key, the last of equal keys winning. A value may
be `unreadable`: its text is grammatical, but it names nothing, for a number beyond the doubles, a lone half of a
surrogate pair or nesting beyond a limit. A reader that skips such a value does not mind, one that needs it refuses.
-/

namespace SolidScript

/-- A number of a JSON text. -/
inductive Json.Number where
  | integer (n : Int)
  | double (x : Float)

/-- A value of a JSON text. -/
inductive Json where
  | null
  | bool (b : Bool)
  | number (n : Json.Number)
  | string (s : String)
  | array (items : List Json)
  | object (fields : List (String × Json))
  | unreadable

namespace Json

/-- The decisions of the format about doubles: leading exponents from -5 to 15 are laid out around a point, whole
numbers end in `.0`, and a tie between digits goes to the even one. -/
def numberLayout : Decimal.Layout := ⟨.even, some (-5, 15), true⟩

/-- The double nearest to a whole number. -/
def doubleOfInt (n : Int) : Float :=
  if n < 0 then -(Float.ofNat n.natAbs) else Float.ofNat n.natAbs

namespace Number

/-- The number as a double. -/
def toDouble : Number → Float
  | .integer n => doubleOfInt n
  | .double x => x

/-- The text of a number; what is no finite number is written as null. -/
def write : Number → String
  | .integer n => (if n < 0 then "-" else "") ++ Decimal.Digits.write n.natAbs
  | .double x => if x.isFinite then numberLayout.write x else "null"

end Number

/-- A double as a value. -/
def ofDouble (x : Float) : Json := .number (.double x)

/-- A count as a value. -/
def ofNat (n : Nat) : Json := .number (.integer n)

/-- The value of the first field with a key. -/
def field? (key : String) : List (String × Json) → Option Json
  | [] => none
  | (k, value) :: rest => if k = key then some value else field? key rest

/-- A field put into fields sorted by key, in place of one with the same key. -/
def putField (key : String) (value : Json) : List (String × Json) → List (String × Json)
  | [] => [(key, value)]
  | (k, v) :: rest =>
    if key = k then (key, value) :: rest
    else if key < k then (key, value) :: (k, v) :: rest
    else (k, v) :: putField key value rest

/-- Fields sorted by key; of equal keys the last wins. -/
def sortFields (fields : List (String × Json)) : List (String × Json) :=
  fields.foldl (fun sorted (key, value) => putField key value sorted) []

mutual

/-- The value with every object sorted by key. -/
def canonical : Json → Json
  | .array items => .array (canonicalItems items)
  | .object fields => .object (sortFields (canonicalFields fields))
  | value => value

/-- Every item in canonical form. -/
def canonicalItems : List Json → List Json
  | [] => []
  | item :: rest => canonical item :: canonicalItems rest

/-- Every field's value in canonical form. -/
def canonicalFields : List (String × Json) → List (String × Json)
  | [] => []
  | (key, value) :: rest => (key, canonical value) :: canonicalFields rest

end

mutual

/-- Whether no part of a value is unreadable. -/
def isReadable : Json → Bool
  | .array items => areReadable items
  | .object fields => fieldsReadable fields
  | .unreadable => false
  | _ => true

/-- Whether all items are readable. -/
def areReadable : List Json → Bool
  | [] => true
  | item :: rest => isReadable item && areReadable rest

/-- Whether the values of all fields are readable. -/
def fieldsReadable : List (String × Json) → Bool
  | [] => true
  | (_, value) :: rest => isReadable value && fieldsReadable rest

end

end Json
end SolidScript
