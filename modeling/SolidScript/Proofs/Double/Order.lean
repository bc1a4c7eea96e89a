import Mathlib.Order.WithBot
import SolidScript.Proofs.Double.Overflow

/-!
# The order of all numbers

Every double but one is a number: it is finite, or an infinity. Numbers have a place among the rationals with two ends
added to them (`place`), and they are compared as their places are (`lt_iff_place`, `le_iff_place`, `beq_iff_place`).
What is no number is not compared with anything (`isNaN_of_le`).
-/

namespace SolidScript.Double

open Float.Model (UnpackedFloat)
open Float.Model.UnpackedFloat

/-! ## Places -/

/-- The place of an unpacked number among the rationals and two ends. -/
def unpackedPlace : UnpackedFloat → WithBot (WithTop Rat)
  | .infinity .negative => ⊥
  | .infinity .positive => ⊤
  | u => ((unpackedValue u : WithTop Rat) : WithBot (WithTop Rat))

/-- The place of a number: its value, or an end. -/
def place (x : Float) : WithBot (WithTop Rat) := unpackedPlace x.toModel.unpack

theorem bot_lt_value (q : Rat) : (⊥ : WithBot (WithTop Rat)) < ((q : WithTop Rat) : WithBot (WithTop Rat)) :=
  WithBot.bot_lt_coe _

theorem value_lt_top (q : Rat) : ((q : WithTop Rat) : WithBot (WithTop Rat)) < ⊤ :=
  WithBot.coe_lt_coe.2 (WithTop.coe_lt_top q)

theorem unpackedPlace_of_isFinite {u : UnpackedFloat} (hu : u.isFinite = true) :
    unpackedPlace u = ((unpackedValue u : WithTop Rat) : WithBot (WithTop Rat)) := by
  cases u with
  | notANumber => cases hu
  | infinity s => cases hu
  | zero s => rfl
  | finite s n t h => rfl

theorem place_of_isFinite {x : Float} (hx : x.isFinite = true) :
    place x = ((value x : WithTop Rat) : WithBot (WithTop Rat)) :=
  unpackedPlace_of_isFinite hx

/-- A number at the end of all places is an infinity. -/
theorem eq_infinity_of_place {x : Float} (hx : x.isNaN = false) {s : Sign} (h : place x = place (infinity s)) :
    x = infinity s := by
  cases hfinite : x.isFinite with
  | true =>
    rw [place_of_isFinite hfinite] at h
    cases s with
    | negative => exact absurd h (bot_lt_value _).ne'
    | positive => exact absurd h (value_lt_top _).ne
  | false =>
    rcases eq_nan_or_infinity hfinite with rfl | ⟨s', rfl⟩
    · exact absurd hx (by decide)
    · cases s <;> cases s' <;> first | rfl | exact absurd h (by decide)

/-! ## Comparisons -/

/-- An infinity is compared with a number. -/
theorem compare_infinity (s : Sign) {u : UnpackedFloat} (hu : u.isNaN = false) :
    (UnpackedFloat.infinity s).compare u = some (cmp (unpackedPlace (.infinity s)) (unpackedPlace u)) := by
  cases hfinite : u.isFinite with
  | true =>
    have hbot := bot_lt_value (unpackedValue u)
    have htop := value_lt_top (unpackedValue u)
    rw [unpackedPlace_of_isFinite hfinite]
    cases s with
    | negative =>
      rw [unpackedPlace, (cmp_eq_lt_iff _ _).2 hbot]
      cases u <;> first | rfl | cases hfinite
    | positive =>
      rw [unpackedPlace, (cmp_eq_gt_iff _ _).2 htop]
      cases u <;> first | rfl | cases hfinite
  | false =>
    cases u with
    | infinity s' => cases s <;> cases s' <;> rfl
    | notANumber => cases hu
    | zero s' => cases hfinite
    | finite s' n t h => cases hfinite

/-- An infinity that stands on the right is compared as on the left. -/
theorem compare_swap_infinity (s : Sign) (u : UnpackedFloat) :
    u.compare (.infinity s) = ((UnpackedFloat.infinity s).compare u).map Ordering.swap := by
  cases u with
  | notANumber => cases s <;> rfl
  | infinity s' => cases s <;> cases s' <;> rfl
  | zero s' => cases s <;> rfl
  | finite s' n t h => cases s <;> cases s' <;> rfl

section Order

variable {x y z : Float}

/-- **Numbers are compared as their places are.** -/
theorem compare_eq_cmp_place (hx : x.isNaN = false) (hy : y.isNaN = false) :
    x.toModel.unpack.compare y.toModel.unpack = some (cmp (place x) (place y)) := by
  have hinfinity {z : Float} (hz : z.isNaN = false) (hfinite : z.isFinite = false) :
      ∃ s, z.toModel.unpack = .infinity s := by
    rcases eq_nan_or_infinity hfinite with rfl | ⟨s, rfl⟩
    · exact absurd hz (by decide)
    · exact ⟨s, by cases s <;> rfl⟩
  cases hfx : x.isFinite with
  | false =>
    obtain ⟨s, hs⟩ := hinfinity hx hfx
    rw [place, hs]
    exact compare_infinity s hy
  | true =>
    cases hfy : y.isFinite with
    | false =>
      obtain ⟨s, hs⟩ := hinfinity hy hfy
      rw [place, place, hs, compare_swap_infinity, compare_infinity s hx, Option.map_some, cmp_swap]
    | true =>
      rw [compare_eq_cmp hfx hfy, place_of_isFinite hfx, place_of_isFinite hfy]
      rcases lt_trichotomy (value x) (value y) with hlt | heq | hgt
      · rw [(cmp_eq_lt_iff _ _).2 hlt, (cmp_eq_lt_iff _ _).2 (by simpa using hlt)]
      · rw [heq, (cmp_eq_eq_iff _ _).2 rfl, (cmp_eq_eq_iff _ _).2 rfl]
      · rw [(cmp_eq_gt_iff _ _).2 hgt, (cmp_eq_gt_iff _ _).2 (by simpa using hgt)]

section Numbers

variable (hx : x.isNaN = false) (hy : y.isNaN = false)
include hx hy

theorem lt_iff_place : x < y ↔ place x < place y := by
  rw [lt_iff_unpack, UnpackedFloat.lt, compare_eq_cmp_place hx hy, beq_iff_eq, Option.some.injEq, cmp_eq_lt_iff]

theorem le_iff_place : x ≤ y ↔ place x ≤ place y := by
  rw [le_iff, UnpackedFloat.le, compare_eq_cmp_place hx hy, Option.any_some, Ordering.isLE_iff_ne_gt, cmp_eq_gt_iff,
    not_lt]

theorem beq_iff_place : (x == y) = true ↔ place x = place y := by
  have hdef : (x == y) = x.toModel.unpack.beq y.toModel.unpack := rfl
  rw [hdef, UnpackedFloat.beq, compare_eq_cmp_place hx hy, beq_iff_eq, Option.some.injEq, cmp_eq_eq_iff]

end Numbers

/-- Only numbers are compared. -/
theorem isNaN_of_compare {u v : UnpackedFloat} {o : Ordering} (h : u.compare v = some o) :
    u.isNaN = false ∧ v.isNaN = false := by
  cases u with
  | notANumber => cases h
  | infinity s => cases v <;> first | exact ⟨rfl, rfl⟩ | cases h
  | zero s => cases v <;> first | exact ⟨rfl, rfl⟩ | cases h
  | finite s n t hn => cases v <;> first | exact ⟨rfl, rfl⟩ | cases s <;> cases h

theorem isNaN_of_le (h : x ≤ y) : x.isNaN = false ∧ y.isNaN = false := by
  obtain ⟨o, ho, -⟩ := (Option.any_eq_true _ _).1 (le_iff.1 h)
  exact isNaN_of_compare ho

theorem isNaN_of_lt (h : x < y) : x.isNaN = false ∧ y.isNaN = false :=
  isNaN_of_compare (beq_iff_eq.1 (lt_iff_unpack.1 h))

/-! ## Order -/

/-- Of two numbers one is less, or the other is no greater. -/
theorem lt_iff_not_le (hx : x.isNaN = false) (hy : y.isNaN = false) : x < y ↔ ¬ y ≤ x := by
  rw [lt_iff_place hx hy, le_iff_place hy hx, not_le]

theorem le_of_lt_of_numbers (h : x < y) : x ≤ y := by
  obtain ⟨hx, hy⟩ := isNaN_of_lt h
  rw [lt_iff_place hx hy] at h
  exact (le_iff_place hx hy).2 h.le

protected theorem le_trans (h : x ≤ y) (h' : y ≤ z) : x ≤ z := by
  obtain ⟨hx, hy⟩ := isNaN_of_le h
  obtain ⟨-, hz⟩ := isNaN_of_le h'
  rw [le_iff_place hx hy] at h
  rw [le_iff_place hy hz] at h'
  exact (le_iff_place hx hz).2 (h.trans h')

/-- Numbers that are no greater than each other are equal, if not the same zero. -/
theorem beq_of_le_of_le (h : x ≤ y) (h' : y ≤ x) : (x == y) = true := by
  obtain ⟨hx, hy⟩ := isNaN_of_le h
  rw [le_iff_place hx hy] at h
  rw [le_iff_place hy hx] at h'
  exact (beq_iff_place hx hy).2 (le_antisymm h h')

theorem eq_of_infinity_le (h : infinity .positive ≤ x) : x = infinity .positive := by
  obtain ⟨hinfinity, hx⟩ := isNaN_of_le h
  exact eq_infinity_of_place hx (top_le_iff.1 ((le_iff_place hinfinity hx).1 h))

theorem eq_of_le_infinity (h : x ≤ infinity .negative) : x = infinity .negative := by
  obtain ⟨hx, hinfinity⟩ := isNaN_of_le h
  exact eq_infinity_of_place hx (le_bot_iff.1 ((le_iff_place hx hinfinity).1 h))

end Order

end SolidScript.Double
