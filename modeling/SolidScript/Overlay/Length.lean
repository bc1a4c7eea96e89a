import SolidScript.Decimal.Layout
import SolidScript.Scalar.Double

/-!
# Lengths and volumes

Conversions between the units of length and volume, and lengths in inches as mixed fractions. A fraction is the nearest
number of steps of `1/d` inch, a half going away from zero, written as a whole part and a remainder in lowest terms.
-/

namespace SolidScript.Length

section Conversions

variable {α : Type} [Scalar α]

/-- Millimetres in an inch, times ten. -/
def tenthsPerInch : Nat := 254

/-- Millimetres in an inch. -/
def mmPerInch : α := Scalar.ofNat tenthsPerInch / 10

/-- A length in millimetres, in inches. -/
def inchesOfMm (mm : α) : α := mm / mmPerInch

/-- A length in inches, in millimetres. -/
def mmOfInches (inches : α) : α := inches * mmPerInch

/-- A length in millimetres, in centimetres. -/
def cmOfMm (mm : α) : α := mm / 10

/-- A volume in cubic millimetres, in cubic centimetres. -/
def cubicCmOfCubicMm (volume : α) : α := volume / 1000

/-- A volume in cubic centimetres, in cubic metres. -/
def cubicMOfCubicCm (volume : α) : α := volume / 1000000

/-- A volume in cubic inches, in cubic feet. -/
def cubicFtOfCubicIn (volume : α) : α := volume / 1728

/-- The nearest whole number of units. -/
def wholeUnits (length : α) : α := Scalar.roundTo length 0

/-- The number of steps of `1/d` nearest to a length, whatever its sign. -/
def steps (length : α) (d : UInt32) : Nat :=
  Scalar.toNat (Scalar.round (Scalar.abs length * Scalar.ofNat d.toNat))

end Conversions

/-- The greatest common divisor of two counts. Each turn goes on with the second count and what it leaves of the first,
until nothing is left. -/
def commonDivisor (a b : Nat) : Nat :=
  if b = 0 then a else commonDivisor b (a % b)
termination_by b
decreasing_by exact Nat.mod_lt a (Nat.pos_of_ne_zero ‹_›)

/-- The number `steps / d` as a whole part and a fraction in lowest terms, each left out if it is zero. -/
def mixedNumber (negative : Bool) (steps d : Nat) : String :=
  let sign := if negative then "-" else ""
  let whole := steps / d
  let rest := steps % d
  let write := Decimal.Digits.write
  if rest = 0 then (if whole = 0 then "0" else sign ++ write whole)
  else
    let common := commonDivisor rest d
    let fraction := write (rest / common) ++ "/" ++ write (d / common)
    if whole = 0 then sign ++ fraction else sign ++ write whole ++ " " ++ fraction

/-- A length as a mixed fraction with a denominator that divides `d`. -/
def mixedFraction {α : Type} [Scalar α] (length : α) (d : UInt32) : String :=
  mixedNumber (decide (length < 0)) (steps length d) d.toNat

/-- A length in inches as a mixed fraction; without a denominator, in whole inches. -/
def inchFraction (length : Float) (d : UInt32) : String :=
  if d = 0 then
    (if length < 0 then "-" else "") ++ Decimal.plain.write (wholeUnits (Scalar.abs length))
  else mixedFraction length d

end SolidScript.Length
