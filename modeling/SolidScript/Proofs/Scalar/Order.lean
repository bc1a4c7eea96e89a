import SolidScript.Proofs.Double.Count
import SolidScript.Proofs.Double.Value

/-!
# The order of scalars

Choosing one of two scalars rounds nothing, so it is the same for doubles and for rationals. A `Reading` tells which
scalars of a type are numbers, and gives them rational values that are ordered as they are. The lesser and the greater
of two numbers are numbers again (`Reading.least`, `Reading.greatest`), and so is one that is kept from falling below
zero (`Reading.nonNegative`).
-/

namespace SolidScript

/-- The scalars that are numbers, with values that are ordered as they are. -/
structure Reading (α : Type) [Scalar α] where
  IsNumber : α → Prop
  value : α → Rat
  eq_self : ∀ {a}, IsNumber a → Scalar.eq a a = true
  lt_iff : ∀ {a b}, IsNumber a → IsNumber b → (a < b ↔ value a < value b)
  zero : IsNumber 0 ∧ value 0 = 0

namespace Reading

variable {α : Type} [Scalar α] (r : Reading α) {a b : α}

theorem least (ha : r.IsNumber a) (hb : r.IsNumber b) :
    r.IsNumber (Scalar.least a b) ∧ r.value (Scalar.least a b) = min (r.value a) (r.value b) := by
  rw [Scalar.least, if_pos (r.eq_self ha)]
  split
  · next hlt => exact ⟨hb, (min_eq_right ((r.lt_iff hb ha).1 hlt).le).symm⟩
  · next hle => exact ⟨ha, (min_eq_left (not_lt.1 (mt (r.lt_iff hb ha).2 hle))).symm⟩

theorem greatest (ha : r.IsNumber a) (hb : r.IsNumber b) :
    r.IsNumber (Scalar.greatest a b) ∧ r.value (Scalar.greatest a b) = max (r.value a) (r.value b) := by
  rw [Scalar.greatest, if_pos (r.eq_self ha)]
  split
  · next hlt => exact ⟨hb, (max_eq_right ((r.lt_iff ha hb).1 hlt).le).symm⟩
  · next hle => exact ⟨ha, (max_eq_left (not_lt.1 (mt (r.lt_iff ha hb).2 hle))).symm⟩

theorem nonNegative (ha : r.IsNumber a) :
    r.IsNumber (Scalar.nonNegative a) ∧ r.value (Scalar.nonNegative a) = max (r.value a) 0 := by
  obtain ⟨hzero, hvalue⟩ := r.zero
  rw [Scalar.nonNegative]
  split
  · next hlt =>
    rw [r.lt_iff ha hzero, hvalue] at hlt
    exact ⟨hzero, hvalue.trans (max_eq_right hlt.le).symm⟩
  · next hle =>
    rw [r.lt_iff ha hzero, hvalue, not_lt] at hle
    exact ⟨ha, (max_eq_left hle).symm⟩

end Reading

/-! ## Rationals and doubles -/

theorem Rational.abs_eq (x : Rat) : Scalar.abs x = |x| := by
  show (if x < 0 then -x else x) = |x|
  split
  · next h => exact (abs_of_neg h).symm
  · next h => exact (abs_of_nonneg (not_lt.1 h)).symm

/-- Every rational is a number. -/
def Rational.reading : Reading Rat where
  IsNumber _ := True
  value a := a
  eq_self _ := decide_eq_true rfl
  lt_iff _ _ := Iff.rfl
  zero := ⟨trivial, rfl⟩

theorem Double.value_zero : (0 : Float).isFinite = true ∧ value 0 = 0 := by
  decide +kernel

/-- The finite doubles are numbers. -/
def Double.reading : Reading Float where
  IsNumber x := x.isFinite = true
  value := value
  eq_self := beq_self_of_isFinite
  lt_iff := lt_iff
  zero := value_zero

end SolidScript
