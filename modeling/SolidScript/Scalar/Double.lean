import SolidScript.Scalar.Basic

/-!
# Binary doubles

The scalar that scripts hold. Rounding to a whole number and the remainder of a division are computed on the exact
value `± m · 2 ^ e` of a double in integer arithmetic, so they are definitions that evaluate, not calls into a
numeric library: `roundWith` takes the whole part and asks a rule whether to step away from zero, and `rem` reduces
both operands to one power of two.
-/

namespace SolidScript.Double

open Float.Model (Format UnpackedFloat)

/-- The double nearest to `± m · 2 ^ e`; zero keeps the sign. -/
def ofScaled (negative : Bool) (m : Nat) (e : Int) : Float :=
  let sign : UnpackedFloat.Sign := if negative then .negative else .positive
  if m = 0 then Float.ofBits ⟨UnpackedFloat.pack Format.binary64 (.zero sign)⟩
  else Float.ofBits ⟨UnpackedFloat.pack Format.binary64 (UnpackedFloat.round Format.binary64 sign m e)⟩

/-- Whether a sign is the negative one. -/
def isNegative : UnpackedFloat.Sign → Bool
  | .negative => true
  | .positive => false

/-- A whole number next to a finite double. The rule is told the sign, the part of the magnitude after the point and
the unit that part is counted in, and says whether to step away from zero. -/
def roundWith (stepsAway : Bool → Nat → Nat → Bool) (x : Float) : Float :=
  match x.toModel.unpack with
  | .finite sign m e _ =>
    if 0 ≤ e then x
    else
      let unit := Nat.pow 2 e.natAbs
      let whole := m / unit
      let negative := isNegative sign
      ofScaled negative (if stepsAway negative (m % unit) unit then whole + 1 else whole) 0
  | _ => x

/-- The nearest whole number; a half goes away from zero. -/
def round : Float → Float :=
  roundWith fun _ rest unit => decide (unit ≤ 2 * rest)

/-- The least whole number that is not less. -/
def ceil : Float → Float :=
  roundWith fun negative rest _ => !negative && decide (0 < rest)

/-- The greatest whole number that is not greater. -/
def floor : Float → Float :=
  roundWith fun negative rest _ => negative && decide (0 < rest)

/-- The whole part. -/
def trunc : Float → Float :=
  roundWith fun _ _ _ => false

/-- Whether a finite double is a whole number. -/
def isWhole (x : Float) : Bool :=
  x.isFinite && trunc x == x

/-- What the division rounded toward zero leaves over, exactly; it has the sign of the dividend. -/
def rem (x y : Float) : Float :=
  match x.toModel.unpack, y.toModel.unpack with
  | .finite sign m e _, .finite _ n f _ =>
    let low := min e f
    ofScaled (isNegative sign) (m * Nat.pow 2 (e - low).toNat % (n * Nat.pow 2 (f - low).toNat)) low
  | .zero _, .finite .. => x
  | .zero _, .infinity _ => x
  | .finite .., .infinity _ => x
  | _, _ => 0.0 / 0.0

instance : Scalar Float where
  ofNat := Float.ofNat
  decideLT := fun a b => inferInstanceAs (Decidable (a < b))
  eq := fun a b => a == b
  isFinite := Float.isFinite
  abs := Float.abs
  round := round
  ceil := ceil
  floor := floor
  rem := rem
  toNat := fun x => x.toUInt64.toNat

instance : Angular Float where
  pi := 3.141592653589793
  sin := Float.sin
  cos := Float.cos

end SolidScript.Double
