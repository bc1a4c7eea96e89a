import SolidScript.Decimal.Read
import SolidScript.Decimal.Shortest
import SolidScript.Scalar.Double

/-!
# Decimal text

How a double is written. The digits are those of the shortest decimal that reads back; a `Layout` holds what a format
decides beyond them: which of two equally near decimals is taken, between which leading exponents the digits are laid
out around a point, whether a whole number ends in `.0`, and the words for what is no finite number.
-/

namespace SolidScript.Decimal

/-- What a format decides about the text of a double. -/
structure Layout where
  tie : Tie
  /-- The least and greatest exponent of the first digit that is written without an exponent mark; all, if absent. -/
  positional : Option (Int × Int)
  /-- Whether a whole number written without an exponent mark ends in `.0`. -/
  wholeMark : Bool

/-- Digits alone, a point only before a fraction, and never an exponent mark. -/
def plain : Layout := ⟨.up, none, false⟩

/-- The exponent of the first digit. -/
def leadingExponent (d : Decimal) : Int := d.exponent + (Digits.write d.coefficient).length - 1

/-- Digits laid out around a point. -/
def writePositional (wholeMark : Bool) (d : Decimal) : String :=
  let digits := Nat.toDigits 10 d.coefficient
  if 0 ≤ d.exponent then
    String.ofList (digits ++ List.replicate d.exponent.toNat '0') ++ (if wholeMark then ".0" else "")
  else
    let places := d.exponent.natAbs
    if places < digits.length then
      String.ofList (digits.take (digits.length - places)) ++ "."
        ++ String.ofList (digits.drop (digits.length - places))
    else "0." ++ String.ofList (List.replicate (places - digits.length) '0' ++ digits)

/-- The first digit, the others behind a point, and the exponent with its sign. -/
def writeScientific (d : Decimal) : String :=
  let exponent := leadingExponent d
  let mark := (if exponent < 0 then "e-" else "e+") ++ Digits.write exponent.natAbs
  match Nat.toDigits 10 d.coefficient with
  | first :: second :: rest => String.ofList (first :: '.' :: second :: rest) ++ mark
  | digits => String.ofList digits ++ mark

namespace Layout

/-- Whether a leading exponent is written without an exponent mark. -/
def isPositional (l : Layout) (exponent : Int) : Bool :=
  match l.positional with
  | none => true
  | some (least, greatest) => decide (least ≤ exponent) && decide (exponent ≤ greatest)

/-- The text of a positive decimal. -/
def writeDecimal (l : Layout) (d : Decimal) : String :=
  if l.isPositional (leadingExponent d) then writePositional l.wholeMark d else writeScientific d

/-- The text of a double. -/
def write (l : Layout) (x : Float) : String :=
  let sign := fun s => if Double.isNegative s then "-" else ""
  match x.toModel.unpack with
  | .notANumber => "NaN"
  | .infinity s => sign s ++ "inf"
  | .zero s => sign s ++ (if l.wholeMark then "0.0" else "0")
  | .finite s m q _ => sign s ++ l.writeDecimal (shortest l.tie m q)

end Layout
end SolidScript.Decimal
