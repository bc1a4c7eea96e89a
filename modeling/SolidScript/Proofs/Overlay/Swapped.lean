import SolidScript.Proofs.Double.Overflow
import SolidScript.Proofs.Overlay.Anchored

/-!
# Ranges entered the wrong way round

Whichever end of a range is entered first, it has a length or has none (`Range.lacksLength_swap`). If both ends are on
one side of the origin, it is moved to the same range (`alike_anchor_swap`). Around the origin the swapped range is
moved to one side of it, with the same length (`anchor_swap_around`). Ends of one value are then moved alike, by
whatever increment and precision: what is left of zero is zero (`snap_of_zero`), and elsewhere the ends are the same
double, which is moved to a number (`isNumber_snap`) even where that is beyond the range.
-/

namespace SolidScript

namespace Double

open Float.Model (Format UnpackedFloat)
open Float.Model.UnpackedFloat

/-! ## Numbers -/

/-- A double that is a number, or an infinity. -/
def IsNumber (x : Float) : Prop := x.isFinite = true ∨ ∃ s, x = infinity s

section Numbers

variable {x y : Float} {v : Rat}

/-- What a value is rounded to is a number. -/
theorem RoundsEven.isNumber (h : RoundsEven v x) : IsNumber x := by
  cases hx : x.isFinite with
  | true => exact .inl hx
  | false =>
    obtain ⟨s, -, -, hs⟩ := h.exists_infinity hx
    exact .inr ⟨s, hs⟩

theorem unpack_of_zero (hx : x.isFinite = true) (h0 : value x = 0) : ∃ s, x.toModel.unpack = .zero s := by
  obtain ⟨s, n, t, -, -, hux⟩ := exists_assemble hx
  rw [value, hux, unpackedValue_assemble] at h0
  rcases Nat.eq_zero_or_pos n with rfl | hpos
  · exact ⟨s, hux⟩
  · have hmagnitude := magnitude_pos hpos t
    have habs := abs_factor_mul s n t
    rw [h0, abs_zero] at habs
    linarith

theorem exists_infinity_mul (s : Sign) (hy : y.isFinite = true) (h0 : value y ≠ 0) :
    ∃ s', infinity s * y = infinity s' := by
  obtain ⟨s', n, t, hpos, huy⟩ := exists_assemble_of_ne_zero hy h0
  have hmul : infinity s * y = packed (UnpackedFloat.mul Format.binary64 (.infinity s) y.toModel.unpack) := by
    cases s <;> rfl
  rw [hmul, huy, assemble_pos s' t hpos]
  exact ⟨s * s', rfl⟩

theorem exists_infinity_div (s : Sign) (hy : y.isFinite = true) : ∃ s', infinity s / y = infinity s' := by
  obtain ⟨s', n, t, -, -, huy⟩ := exists_assemble hy
  have hdiv : infinity s / y = packed (UnpackedFloat.div Format.binary64 (.infinity s) y.toModel.unpack) := by
    cases s <;> rfl
  rw [hdiv, huy]
  unfold assemble
  split
  · exact ⟨s / s', rfl⟩
  · exact ⟨s / s', rfl⟩

namespace IsNumber

variable (hx : IsNumber x)
include hx

/-- A number equals itself. -/
theorem beq_self : (x == x) = true := by
  rcases hx with hfinite | ⟨s, rfl⟩
  · exact (beq_iff hfinite hfinite).2 rfl
  · cases s <;> decide +kernel

theorem mul (hy : y.isFinite = true) (h0 : value y ≠ 0) : IsNumber (x * y) := by
  rcases hx with hfinite | ⟨s, rfl⟩
  · exact (mul_roundsEven hfinite hy).isNumber
  · exact .inr (exists_infinity_mul s hy h0)

theorem div (hy : y.isFinite = true) (h0 : value y ≠ 0) : IsNumber (x / y) := by
  rcases hx with hfinite | ⟨s, rfl⟩
  · exact (div_roundsEven hfinite hy h0).isNumber
  · exact .inr (exists_infinity_div s hy)

/-- A whole number next to a number is a number. -/
theorem roundWith (rule : Bool → Nat → Nat → Bool) : IsNumber (roundWith rule x) := by
  rcases hx with hfinite | ⟨s, rfl⟩
  · exact .inl (isFinite_roundWith hfinite rule)
  · exact .inr ⟨s, by cases s <;> rfl⟩

end IsNumber

end Numbers

end Double

namespace Overlay

open Double
open Float.Model.UnpackedFloat (Sign)

/-! ## Moving ends by any increment and precision -/

section Ends

variable {i p x y : Float}

theorem eq_zero_iff (hx : x.isFinite = true) : Scalar.eq x 0 = true ↔ value x = 0 := by
  obtain ⟨hzero, hvzero⟩ := value_zero
  rw [← hvzero]
  exact beq_iff hx hzero

/-- The product of a zero with a finite double is a zero. -/
theorem mul_of_zero (hx : x.isFinite = true) (h0 : value x = 0) (hy : y.isFinite = true) :
    (x * y).isFinite = true ∧ value (x * y) = 0 := by
  have hrounds := mul_rounds hx hy
  rw [h0, zero_mul] at hrounds
  exact hrounds.exact .zero (by rw [abs_zero]; exact unit_pos _)

/-- Zero is a multiple of every increment. -/
theorem isMultiple_of_zero (hi : i.isFinite = true) (hi0 : value i ≠ 0) (hx : x.isFinite = true)
    (h0 : value x = 0) : isMultiple i x = true := by
  have hrem : Double.rem x i = x := by
    obtain ⟨s, n, t, hpos, hui⟩ := exists_assemble_of_ne_zero hi hi0
    obtain ⟨s', hux⟩ := unpack_of_zero hx h0
    rw [Double.rem, hux, hui, assemble_pos s t hpos]
  have hsmall : |value x| ≤ 32 := by rw [h0, abs_zero]; norm_num
  show Scalar.eq (Scalar.roundTo (Double.rem x i) remainderPlaces) 0 = true
  rw [hrem, roundTo_eq_zero_iff hx hsmall, (mul_of_zero hx h0 value_tenTo.1).2, abs_zero]
  norm_num

/-- `snap`, with the operations of the doubles. -/
theorem snap_eq (i p x : Float) : snap i p x =
    if Scalar.eq i 0 || Scalar.eq p 0 then x
    else if !(x * p).isFinite || isMultiple i (x * p) then x
    else (if 0 < x * p then Double.ceil (x * p / i) else Double.floor (x * p / i)) * i / p := rfl

/-- Zero is not moved. -/
theorem snap_of_zero (hi : i.isFinite = true) (hp : p.isFinite = true) (hx : x.isFinite = true) (h0 : value x = 0) :
    snap i p x = x := by
  obtain ⟨hscaled, hvscaled⟩ := mul_of_zero hx h0 hp
  rw [snap_eq]
  by_cases hwithout : (Scalar.eq i 0 || Scalar.eq p 0) = true
  · rw [if_pos hwithout]
  · rw [if_neg hwithout]
    rw [Bool.or_eq_true, not_or, eq_zero_iff hi] at hwithout
    rw [isMultiple_of_zero hi hwithout.1 hscaled hvscaled, Bool.or_true, if_pos rfl]

/-- Whatever the increment and the precision are, an end is moved to a number. -/
theorem isNumber_snap (hi : i.isFinite = true) (hp : p.isFinite = true) (hx : x.isFinite = true) :
    IsNumber (snap i p x) := by
  rw [snap_eq]
  by_cases hwithout : (Scalar.eq i 0 || Scalar.eq p 0) = true
  · rw [if_pos hwithout]
    exact .inl hx
  · rw [if_neg hwithout]
    rw [Bool.or_eq_true, not_or, eq_zero_iff hi, eq_zero_iff hp] at hwithout
    obtain ⟨hi0, hp0⟩ := hwithout
    have hsteps : IsNumber (x * p / i) := (mul_roundsEven hx hp).isNumber.div hi hi0
    have haway : IsNumber (if 0 < x * p then Double.ceil (x * p / i) else Double.floor (x * p / i)) := by
      split_ifs
      · exact hsteps.roundWith _
      · exact hsteps.roundWith _
    by_cases hkept : (!(x * p).isFinite || isMultiple i (x * p)) = true
    · rw [if_pos hkept]
      exact .inl hx
    · rw [if_neg hkept]
      exact (haway.mul hi hi0).div hp hp0

/-- **Ends of one value are moved to ends of one value.** -/
theorem snap_eq_snap (hi : i.isFinite = true) (hp : p.isFinite = true) (hx : x.isFinite = true)
    (hy : y.isFinite = true) (h : value x = value y) : Scalar.eq (snap i p x) (snap i p y) = true := by
  by_cases h0 : value x = 0
  · rw [snap_of_zero hi hp hx h0, snap_of_zero hi hp hy (h ▸ h0)]
    exact (beq_iff hx hy).2 h
  · obtain rfl := eq_of_value_eq hx hy h h0
    exact (isNumber_snap hi hp hx).beq_self

end Ends

/-! ## Swapped ends -/

section Ranges

variable {a b span i p : Float}

/-- Whether a range has a length does not depend on which end is entered first. -/
theorem Range.lacksLength_swap (a b : Float) : Range.lacksLength ⟨b, a⟩ = Range.lacksLength ⟨a, b⟩ := by
  unfold lacksLength
  by_cases hfinite : a.isFinite = true ∧ b.isFinite = true
  · obtain ⟨ha, hb⟩ := hfinite
    have heq : (b == a) = (a == b) := by
      rw [Bool.eq_iff_iff, beq_iff hb ha, beq_iff ha hb]
      exact eq_comm
    simp only [heq, isFinite_sub_comm ha hb]
  · have hright : (b - a).isFinite = false :=
      Bool.eq_false_iff.2 fun h => hfinite ⟨(isFinite_of_sub h).2, (isFinite_of_sub h).1⟩
    have hleft : (a - b).isFinite = false := Bool.eq_false_iff.2 fun h => hfinite (isFinite_of_sub h)
    simp only [hright, hleft, Bool.not_false, Bool.or_true]

/-- The ends of a range that has a length are finite and differ, and so is its length. -/
theorem Range.of_length (h : Range.lacksLength ⟨a, b⟩ = false) : (a.isFinite = true ∧ b.isFinite = true) ∧
    (b - a).isFinite = true ∧ value a ≠ value b := by
  unfold lacksLength at h
  rw [Bool.or_eq_false_iff, Bool.not_eq_false'] at h
  obtain ⟨hne, hextent⟩ := h
  obtain ⟨hb, ha⟩ := isFinite_of_sub hextent
  exact ⟨⟨ha, hb⟩, hextent, mt (beq_iff ha hb).2 (Bool.eq_false_iff.1 hne)⟩

/-- Ranges with finite ends of the same values. -/
structure Range.Alike (r s : Range Float) : Prop where
  finite : (r.min.isFinite = true ∧ r.max.isFinite = true) ∧ s.min.isFinite = true ∧ s.max.isFinite = true
  min : value r.min = value s.min
  max : value r.max = value s.max

theorem Range.Alike.symm {r s : Range Float} (h : r.Alike s) : s.Alike r :=
  ⟨⟨h.finite.2, h.finite.1⟩, h.min.symm, h.max.symm⟩

theorem Range.alike_self {r : Range Float} (h : r.min.isFinite = true ∧ r.max.isFinite = true) : r.Alike r :=
  ⟨⟨h, h⟩, rfl, rfl⟩

section Ordered

variable (hlength : Range.lacksLength ⟨a, b⟩ = false) (hlt : value a < value b)
include hlength hlt

/-- An ordered range is moved if it is strictly on one side of the origin. -/
theorem anchor_ordered (span : Float) : anchor span ⟨a, b⟩ =
    if 0 < a ∧ 0 < b then ⟨0, b - a⟩ else if a < 0 ∧ b < 0 then ⟨-(b - a), 0⟩ else ⟨a, b⟩ := by
  obtain ⟨⟨ha, hb⟩, -, -⟩ := Range.of_length hlength
  have hswapped : ¬ b < a := by
    rw [lt_iff hb ha]
    exact hlt.le.not_gt
  exact (if_neg (Bool.eq_false_iff.1 hlength)).trans (if_neg hswapped)

/-- An ordered range that is entered the wrong way round is moved to the side that its lesser end tells. -/
theorem anchor_swapped (span : Float) :
    anchor span ⟨b, a⟩ = if a < 0 then ⟨-(b - a), 0⟩ else ⟨0, b - a⟩ := by
  obtain ⟨⟨ha, hb⟩, -, -⟩ := Range.of_length hlength
  have hlength' : ¬ Range.lacksLength ⟨b, a⟩ = true := by
    rw [Range.lacksLength_swap, hlength]
    exact Bool.false_ne_true
  exact (if_neg hlength').trans (if_pos ((lt_iff ha hb).2 hlt))

/-- An ordered range with both ends on one side of the origin is moved to where it is moved when it is entered the
wrong way round. -/
theorem alike_anchor_ordered (span : Float) (hside : 0 ≤ value a ∨ value b ≤ 0) :
    (anchor span ⟨a, b⟩).Alike (anchor span ⟨b, a⟩) := by
  obtain ⟨⟨ha, hb⟩, hextent, -⟩ := Range.of_length hlength
  obtain ⟨hzero, hvzero⟩ := value_zero
  have hrounds := sub_rounds hb ha
  rw [anchor_ordered hlength hlt span, anchor_swapped hlength hlt span]
  simp only [pos_iff ha, pos_iff hb, neg_iff ha, neg_iff hb]
  rcases hside with hright | hleft
  · rw [if_neg hright.not_gt]
    by_cases hpos : 0 < value a
    · rw [if_pos ⟨hpos, hpos.trans hlt⟩]
      exact Range.alike_self ⟨hzero, hextent⟩
    · -- the range begins at the origin, and its length is its greater end
      have h0 : value a = 0 := le_antisymm (not_lt.1 hpos) hright
      rw [if_neg fun h => hpos h.1, if_neg fun h => hright.not_gt h.1]
      rw [h0, sub_zero] at hrounds
      have hvalue := (hrounds.exact (representable_value b) (abs_value_lt b)).2
      exact ⟨⟨⟨ha, hb⟩, hzero, hextent⟩, h0.trans hvzero.symm, hvalue.symm⟩
  · have hneg : value a < 0 := hlt.trans_le hleft
    rw [if_pos hneg, if_neg fun h => hneg.not_gt h.1]
    by_cases hstrict : value b < 0
    · rw [if_pos ⟨hneg, hstrict⟩]
      exact Range.alike_self ⟨isFinite_neg hextent, hzero⟩
    · -- the range ends at the origin, and its length is its lesser end without the sign
      have h0 : value b = 0 := le_antisymm hleft (not_lt.1 hstrict)
      rw [if_neg fun h => hstrict h.2]
      rw [h0, zero_sub] at hrounds
      have hlow : |(-value a)| < unit 1024 := by
        rw [abs_neg]
        exact abs_value_lt a
      have hvalue := (hrounds.exact (representable_value a).neg hlow).2
      refine ⟨⟨⟨ha, hb⟩, isFinite_neg hextent, hzero⟩, ?_, h0.trans hvzero.symm⟩
      show value a = value (-(b - a))
      rw [value_neg hextent, hvalue, neg_neg]

end Ordered

/-- **A range with both ends on one side of the origin is moved to the same range** whichever end is entered first. -/
theorem alike_anchor_swap (hspan : span.isFinite = true) (h : 0 ≤ a ∧ 0 ≤ b ∨ a ≤ 0 ∧ b ≤ 0) :
    (anchor span ⟨a, b⟩).Alike (anchor span ⟨b, a⟩) := by
  obtain ⟨hzero, hvzero⟩ := value_zero
  cases hlength : Range.lacksLength ⟨a, b⟩ with
  | true =>
    have hlength' : Range.lacksLength ⟨b, a⟩ = true := by rw [Range.lacksLength_swap, hlength]
    rw [anchor_without_length hlength, anchor_without_length hlength']
    exact Range.alike_self ⟨hzero, hspan⟩
  | false =>
    have hlength' : Range.lacksLength ⟨b, a⟩ = false := by rw [Range.lacksLength_swap, hlength]
    obtain ⟨⟨ha, hb⟩, -, hne⟩ := Range.of_length hlength
    rw [le_iff_value_le hzero ha, le_iff_value_le hzero hb, le_iff_value_le ha hzero, le_iff_value_le hb hzero,
      hvzero] at h
    rcases lt_or_gt_of_ne hne with hlt | hgt
    · exact alike_anchor_ordered hlength hlt span (h.imp And.left And.right)
    · exact (alike_anchor_ordered hlength' hgt span (h.imp And.right And.left)).symm

/-- Around the origin, a range that is entered the wrong way round ends there, and keeps its length. -/
theorem anchor_swap_around (hspan : span.isFinite = true) (ha : a < 0) (hb : 0 < b) :
    Scalar.eq (anchor span ⟨b, a⟩).extent (anchor span ⟨a, b⟩).extent = true ∧
      ((anchor span ⟨b, a⟩).min = 0 ∨ (anchor span ⟨b, a⟩).max = 0) := by
  obtain ⟨hzero, hvzero⟩ := value_zero
  cases hlength : Range.lacksLength ⟨a, b⟩ with
  | true =>
    have hlength' : Range.lacksLength ⟨b, a⟩ = true := by rw [Range.lacksLength_swap, hlength]
    rw [anchor_without_length hlength, anchor_without_length hlength']
    exact ⟨(sub_roundsEven hspan hzero).isNumber.beq_self, .inl rfl⟩
  | false =>
    obtain ⟨⟨hfa, hfb⟩, hextent, -⟩ := Range.of_length hlength
    have hneg := (neg_iff hfa).1 ha
    have hpos := (pos_iff hfb).1 hb
    have hkept : anchor span ⟨a, b⟩ = ⟨a, b⟩ := by
      rw [anchor_ordered hlength (hneg.trans hpos) span]
      simp only [pos_iff hfa, neg_iff hfb]
      rw [if_neg fun h => hneg.not_gt h.1, if_neg fun h => hpos.not_gt h.2]
    rw [hkept, anchor_swapped hlength (hneg.trans hpos) span, if_pos ha]
    refine ⟨?_, .inr rfl⟩
    have hrounds := sub_rounds hzero (isFinite_neg hextent)
    rw [hvzero, value_neg hextent, zero_sub, neg_neg] at hrounds
    obtain ⟨hfinite, hvalue⟩ := hrounds.exact (representable_value _) (abs_value_lt _)
    exact (beq_iff hfinite hextent).2 hvalue

/-- **A range may be entered the wrong way round.** For any finite default span, increment and precision: a range with
both ends on one side of the origin, these ends, infinity or an end at the origin included, is normalized to the same
range as with its ends swapped. A range around the origin is not, but the swapped one is anchored with the same length
and has an end at the origin. -/
theorem Range.normalize_swap (hspan : span.isFinite = true) (hi : i.isFinite = true) (hp : p.isFinite = true)
    (a b : Float) :
    ((0 ≤ a ∧ 0 ≤ b ∨ a ≤ 0 ∧ b ≤ 0) →
      ((⟨a, b⟩ : Range Float).normalize span i p).same ((⟨b, a⟩ : Range Float).normalize span i p) = true) ∧
    (a < 0 ∧ 0 < b →
      Scalar.eq (anchor span ⟨b, a⟩).extent (anchor span ⟨a, b⟩).extent = true ∧
        (Scalar.eq ((⟨b, a⟩ : Range Float).normalize span i p).min 0 ||
          Scalar.eq ((⟨b, a⟩ : Range Float).normalize span i p).max 0) = true) := by
  obtain ⟨hzero, hvzero⟩ := value_zero
  have hsnap : Scalar.eq (snap i p 0) 0 = true := by
    rw [snap_of_zero hi hp hzero hvzero, eq_zero_iff hzero, hvzero]
  refine ⟨fun h => ?_, fun ⟨ha, hb⟩ => ?_⟩
  · obtain ⟨⟨⟨hmin, hmax⟩, hmin', hmax'⟩, hvmin, hvmax⟩ := alike_anchor_swap hspan h
    rw [Range.same, Bool.and_eq_true]
    exact ⟨snap_eq_snap hi hp hmin hmin' hvmin, snap_eq_snap hi hp hmax hmax' hvmax⟩
  · obtain ⟨hextent, hend⟩ := anchor_swap_around hspan ha hb
    refine ⟨hextent, Bool.or_eq_true_iff.2 ?_⟩
    rcases hend with hend | hend
    · left
      show Scalar.eq (snap i p (anchor span ⟨b, a⟩).min) 0 = true
      rw [hend, hsnap]
    · right
      show Scalar.eq (snap i p (anchor span ⟨b, a⟩).max) 0 = true
      rw [hend, hsnap]

/-- A range below zero that begins at infinity, and one around the origin. -/
theorem Range.normalize_swap_metric :
    ((300 : Float).isFinite = true ∧ (20 : Float).isFinite = true ∧ (1 : Float).isFinite = true) ∧
    (((-1 / 0 : Float) ≤ 0 ∧ (-50 : Float) ≤ 0) ∧
      ((⟨-1 / 0, -50⟩ : Range Float).normalize 300 20 1).same
        ((⟨-50, -1 / 0⟩ : Range Float).normalize 300 20 1) = true) ∧
    ((-13 : Float) < 0 ∧ (0 : Float) < 77) ∧
      Scalar.eq (anchor (300 : Float) ⟨77, -13⟩).extent (anchor (300 : Float) ⟨-13, 77⟩).extent = true ∧
      (Scalar.eq ((⟨77, -13⟩ : Range Float).normalize 300 20 1).min 0 ||
        Scalar.eq ((⟨77, -13⟩ : Range Float).normalize 300 20 1).max 0) = true := by
  have hfinite : (300 : Float).isFinite = true ∧ (20 : Float).isFinite = true ∧ (1 : Float).isFinite = true := by
    decide +kernel
  have hbelow : (-1 / 0 : Float) ≤ 0 ∧ (-50 : Float) ≤ 0 := by decide +kernel
  have haround : (-13 : Float) < 0 ∧ (0 : Float) < 77 := by decide +kernel
  obtain ⟨hspan, hi, hp⟩ := hfinite
  exact ⟨⟨hspan, hi, hp⟩, ⟨hbelow, (Range.normalize_swap hspan hi hp (-1 / 0) (-50)).1 (.inr hbelow)⟩, haround,
    (Range.normalize_swap hspan hi hp (-13) 77).2 haround⟩

end Ranges

end Overlay
end SolidScript
