import SolidScript.Overlay.Settings

/-!
# Normalization of bounds

Bounds as they are entered become bounds that a grid can be drawn for: a range is moved to the origin where it does not
reach it (`anchor`), and both ends go outward to the coarsest grid (`snap`). Every range has a result. A range that is
entered the wrong way round keeps its length, and one without a length gets the default span.
-/

namespace SolidScript.Overlay

variable {α : Type} [Scalar α]

/-- The span of a range that has no length. -/
def defaultSpan : α := 300

/-- Decimal places of a remainder that count. -/
def remainderPlaces : Int := 5

/-- Whether a number of grid steps is a multiple of the increment, to the places that count. -/
def isMultiple (increment scaled : α) : Bool :=
  Scalar.eq (Scalar.roundTo (Scalar.rem scaled increment) remainderPlaces) 0

/-- The range moved so that it reaches the origin. -/
def anchor (span : α) (r : Range α) : Range α :=
  if Scalar.eq r.min r.max || !Scalar.isFinite (r.max - r.min) then ⟨0, span⟩
  else if r.max < r.min then
    if r.max < 0 then ⟨-(r.min - r.max), 0⟩ else ⟨0, r.min - r.max⟩
  else if 0 < r.min ∧ 0 < r.max then ⟨0, r.max - r.min⟩
  else if r.min < 0 ∧ r.max < 0 then ⟨-(r.max - r.min), 0⟩
  else r

/-- The next multiple of the increment away from zero, for a coordinate that is not near one already. The increment
counts grid steps, of which `precision` make a unit; without either the coordinate stays. -/
def snap (increment precision coordinate : α) : α :=
  if Scalar.eq increment 0 || Scalar.eq precision 0 then coordinate
  else
    let scaled := coordinate * precision
    if !Scalar.isFinite scaled || isMultiple increment scaled then coordinate
    else
      let steps := scaled / increment
      (if 0 < scaled then Scalar.ceil steps else Scalar.floor steps) * increment / precision

/-- Whether a coordinate lies on the grid. -/
def isAligned (increment precision coordinate : α) : Bool :=
  Scalar.eq increment 0 || Scalar.eq precision 0 || isMultiple increment (coordinate * precision)

/-- The range moved to the origin, with both ends on the grid. -/
def Range.normalize (span increment precision : α) (r : Range α) : Range α :=
  let anchored := anchor span r
  ⟨snap increment precision anchored.min, snap increment precision anchored.max⟩

/-- Bounds with every range normalized on the coarsest grid of a unit system. -/
def Bounds.normalize (span : α) (u : UnitSystem) (b : Bounds α) : Bounds α :=
  b.map (Range.normalize span u.increment u.precision)

end SolidScript.Overlay
