/-!
# Scalars

The numbers that shapes and overlays are measured in. Geometry is written once over this interface and used at two
instances: binary doubles, which the generated scripts hold, and exact rationals, over which the laws of the geometry
are stated; every rational is finite. The derived operations here are rounding to decimal places, clamping at zero, the
comparison within a tolerance, and the lesser and greater of two values. An `Angular` scalar can go around a circle:
angles are given in degrees.
-/

namespace SolidScript

/-- The arithmetic of measures. A value that is no number equals nothing and is less than nothing. -/
class Scalar (α : Type) extends Add α, Sub α, Mul α, Div α, Neg α, LT α where
  /-- A count as a measure. -/
  ofNat : Nat → α
  /-- The strict order is decided. -/
  decideLT : (a b : α) → Decidable (a < b)
  /-- Numeric equality. -/
  eq : α → α → Bool
  /-- Whether a value is a number within the range. -/
  isFinite : α → Bool
  /-- The value without its sign. -/
  abs : α → α
  /-- The nearest whole number; a half goes away from zero. -/
  round : α → α
  /-- The least whole number that is not less. -/
  ceil : α → α
  /-- The greatest whole number that is not greater. -/
  floor : α → α
  /-- What the division rounded toward zero leaves over; it has the sign of the dividend. -/
  rem : α → α → α
  /-- The whole part of a value as a count; zero for what is negative or no number. -/
  toNat : α → Nat

namespace Scalar

variable {α : Type} [Scalar α]

instance (a b : α) : Decidable (a < b) := decideLT a b

instance (priority := low) (n : Nat) : OfNat α n := ⟨Scalar.ofNat n⟩

/-- Whether two values differ by less than `tolerance`. -/
def near (a b tolerance : α) : Bool :=
  decide (abs (a - b) < tolerance)

/-- The value, or zero in place of what is below it. -/
def nonNegative (a : α) : α :=
  if a < 0 then 0 else a

/-- The power of ten with the given exponent; a negative one is the reciprocal of its opposite. -/
def tenTo (places : Int) : α :=
  let power : α := Scalar.ofNat (Nat.pow 10 places.natAbs)
  if places < 0 then 1 / power else power

/-- The value rounded to so many decimal places. -/
def roundTo (a : α) (places : Int) : α :=
  Scalar.round (a * tenTo places) / tenTo places

/-- The lesser of two values; of a number and what is none, the number. -/
def least (a b : α) : α :=
  if eq a a then (if b < a then b else a) else b

/-- The greater of two values; of a number and what is none, the number. -/
def greatest (a b : α) : α :=
  if eq a a then (if a < b then b else a) else b

end Scalar

/-! ## Exact rationals -/

namespace Rational

/-- The nearest whole number; a half goes away from zero. -/
def round (a : Rat) : Rat :=
  if a < 0 then -((-a + 1 / 2).floor : Rat) else ((a + 1 / 2).floor : Rat)

/-- What the division rounded toward zero leaves over. -/
def rem (a b : Rat) : Rat :=
  let quotient := a / b
  a - b * (if quotient < 0 then (quotient.ceil : Rat) else (quotient.floor : Rat))

instance : Scalar Rat where
  ofNat := fun n => (n : Rat)
  decideLT := fun a b => inferInstanceAs (Decidable (a < b))
  eq := fun a b => decide (a = b)
  isFinite := fun _ => true
  abs := fun a => if a < 0 then -a else a
  round := round
  ceil := fun a => (a.ceil : Rat)
  floor := fun a => (a.floor : Rat)
  rem := rem
  toNat := fun a => a.floor.toNat

end Rational

/-! ## Angles -/

/-- A scalar with circular functions, which take radians. -/
class Angular (α : Type) extends Scalar α where
  /-- The ratio of a half circle to its radius. -/
  pi : α
  sin : α → α
  cos : α → α

/-- The angle of so many degrees. -/
def radians {α : Type} [Angular α] (degrees : α) : α := degrees * Angular.pi / 180

end SolidScript
