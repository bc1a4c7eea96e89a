/-!
# Shortest decimals

The decimal with the fewest digits among those that round to a given double, and the nearest to the double among
those. A double is the exact value `m · 2 ^ q`; the reals that round to it form an interval around it that reaches
half way to its neighbours, ends included iff `m` is even (`Admits`). On the grid of the multiples of `10 ^ k` only
the two neighbours of the value can be the nearest hit (`candidate?`); `shortest` goes from coarse grids to fine ones
and takes the first hit.
-/

namespace SolidScript

/-- The number `coefficient · 10 ^ exponent`. -/
structure Decimal where
  coefficient : Nat
  exponent : Int
deriving DecidableEq, Repr

namespace Decimal

/-- Which of two equally near decimals is taken. -/
inductive Tie where
  /-- The greater one. -/
  | up
  /-- The one with an even last digit. -/
  | even
deriving DecidableEq

/-- The power of two that starts the normal doubles: below `2 ^ 52` the spacing does not change with the exponent. -/
def hiddenBit : Nat := Nat.pow 2 52

/-- The exponent of the smallest doubles. -/
def leastExponent : Int := -1074

/-- Four times the lower end of the interval of `m · 2 ^ q`, in units of `2 ^ q`. The gap below a power of two is half
as wide as the one above. -/
def lowerEnd (m : Nat) (q : Int) : Nat :=
  if m = hiddenBit ∧ leastExponent < q then 4 * m - 1 else 4 * m - 2

/-- Four times the upper end. -/
def upperEnd (m : Nat) : Nat := 4 * m + 2

/-- The factor that a quarter of the value's unit is multiplied by to count in the grid's scale. -/
def quarterScale (q k : Int) : Nat := Nat.pow 2 (q - 2).toNat * Nat.pow 10 (-k).toNat

/-- The grid's unit in the same scale. -/
def gridScale (q k : Int) : Nat := Nat.pow 2 (2 - q).toNat * Nat.pow 10 k.toNat

/-- Whether the multiple `c · 10 ^ k` rounds to `m · 2 ^ q`. -/
def Admits (m : Nat) (q k : Int) (c : Nat) : Prop :=
  let point := c * gridScale q k
  let low := lowerEnd m q * quarterScale q k
  let high := upperEnd m * quarterScale q k
  if m % 2 = 0 then low ≤ point ∧ point ≤ high else low < point ∧ point < high

instance (m : Nat) (q k : Int) (c : Nat) : Decidable (Admits m q k c) := by
  unfold Admits; infer_instance

/-- The nearest multiple of `10 ^ k` that rounds to `m · 2 ^ q`. -/
def candidate? (tie : Tie) (m : Nat) (q k : Int) : Option Nat :=
  let value := 4 * m * quarterScale q k
  let unit := gridScale q k
  let below := value / unit
  match decide (Admits m q k below), decide (Admits m q k (below + 1)) with
  | true, true =>
    match compare (2 * value) ((2 * below + 1) * unit) with
    | .lt => some below
    | .gt => some (below + 1)
    | .eq => some (match tie with
      | .up => below + 1
      | .even => if below % 2 = 0 then below else below + 1)
  | true, false => some below
  | false, true => some (below + 1)
  | false, false => none

/-- A power of ten whose grid is no finer than the first that can hold a candidate: `log 2` is between 0.30102 and
0.30103. -/
def coarsest (m : Nat) (q : Int) : Int := ((m.log2 : Int) + q + 1) * 30103 / 100000 + 1

/-- Grids to try: seventeen digits always suffice, and `coarsest` may be a few steps too coarse. -/
def gridCount : Nat := 22

/-- The exact value `m · 2 ^ q`. -/
def exact (m : Nat) (q : Int) : Decimal :=
  if 0 ≤ q then ⟨m * Nat.pow 2 q.toNat, 0⟩ else ⟨m * Nat.pow 5 q.natAbs, q⟩

/-- The decimal with the fewest digits that rounds to `m · 2 ^ q`, the nearest of those. -/
def shortest (tie : Tie) (m : Nat) (q : Int) : Decimal :=
  let hit := (List.range gridCount).findSome? fun (i : Nat) =>
    let k := coarsest m q - (i : Int)
    (candidate? tie m q k).map (Decimal.mk · k)
  hit.getD (exact m q)

end Decimal
end SolidScript
