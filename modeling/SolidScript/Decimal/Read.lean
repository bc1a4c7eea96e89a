/-!
# Digits and numbers

A run of digits and the number it writes: `Digits.split` cuts the longest run off a text, `Digits.value` reads a run
from left to right, and `Digits.write` gives the digits of a count without leading zeros.

Numbers written as text. `ofDigits` gives the double nearest to a decimal, whatever its length. `float?` reads the
whole of a text: an optional sign, then digits with at most one point among or around them and an optional exponent,
or one of the words `inf`, `infinity` and `nan` in any case. `natural?` reads a count below a bound.
-/

namespace SolidScript.Decimal

/-! ## Digits -/

namespace Digits

/-- The digit a character stands for. -/
def digit (c : Char) : Nat := c.toNat - '0'.toNat

/-- The count that a run of digits writes, carried on from `start`. -/
def valueFrom : Nat → List Char → Nat
  | start, [] => start
  | start, c :: rest => valueFrom (10 * start + digit c) rest

/-- The count that a run of digits writes. -/
def value (digits : List Char) : Nat := valueFrom 0 digits

/-- The longest run of digits at the front of a text, and what follows it. -/
def split (text : List Char) : List Char × List Char := text.span Char.isDigit

/-- How far signed 64-bit integers reach on either side of zero: two to the 63rd. -/
def signedReach : Nat := 9223372036854775808

/-- The digits of a count. -/
def write (n : Nat) : String := String.ofList (Nat.toDigits 10 n)

end Digits

/-! ## Numbers -/

/-- The double nearest to the decimal with these digits before and after the point and this exponent. -/
def ofDigits (whole fraction : List Char) (exponent : Int) : Float :=
  let e := exponent - fraction.length
  Float.ofScientific (Digits.value (whole ++ fraction)) (decide (e < 0)) e.natAbs

/-- An optional sign in front of a text: whether it is a minus, and what follows it. -/
def splitSign : List Char → Bool × List Char
  | '-' :: rest => (true, rest)
  | '+' :: rest => (false, rest)
  | rest => (false, rest)

/-- The exponent at the end of a number; none if there is no mark. -/
def exponent? : List Char → Option Int
  | [] => some 0
  | c :: rest =>
    if c = 'e' ∨ c = 'E' then
      match splitSign rest with
      | (negative, digits) =>
        if digits.isEmpty || !digits.all Char.isDigit then none
        else some (if negative then -(Digits.value digits : Int) else Digits.value digits)
    else none

/-- A number without its sign: digits, of which some stand before or after the point, and an exponent. -/
def magnitude? (text : List Char) : Option Float :=
  let (whole, rest) := Digits.split text
  let (fraction, rest) :=
    match rest with
    | '.' :: tail => Digits.split tail
    | _ => ([], rest)
  if whole.isEmpty && fraction.isEmpty then none
  else (exponent? rest).map (ofDigits whole fraction)

/-- A number in words. -/
def word? (text : List Char) : Option Float :=
  let lower := String.ofList (text.map Char.toLower)
  if lower = "inf" ∨ lower = "infinity" then some (1.0 / 0.0)
  else if lower = "nan" then some (0.0 / 0.0)
  else none

/-- The double that the whole of a text writes. -/
def float? (text : String) : Option Float :=
  let (negative, rest) := splitSign text.toList
  ((word? rest).orElse fun _ => magnitude? rest).map fun x => if negative then -x else x

/-- The count below `bound` that the whole of a text writes; a plus may stand in front. -/
def natural? (bound : Nat) (text : String) : Option Nat :=
  let digits :=
    match text.toList with
    | '+' :: rest => rest
    | rest => rest
  if digits.isEmpty || !digits.all Char.isDigit then none
  else
    let n := Digits.value digits
    if n < bound then some n else none

end SolidScript.Decimal
