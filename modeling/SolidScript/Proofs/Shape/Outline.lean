import SolidScript.Proofs.Double.Overflow
import SolidScript.Proofs.Double.Whole
import SolidScript.Proofs.Shape.Footprint

/-!
# Outlines of arcs

* Over every scalar the outline of an arc goes along the outer rim and comes back along the inner one, by the same
  angles, or through the origin where there is no inner rim (`Arc.Follows`, `Arc.follows_outline`).
* The number of segments is between 1 and 4096 whatever double the sweep is (`Arc.segments_bounds`). Over the rationals
  it is the share of the resolution, rounded up, within these bounds (`Arc.segments_exact`), and the angles are evenly
  spaced from the start to the end (`Arc.EvenlySpaced`).
-/

namespace SolidScript
namespace Arc

/-! ## Points -/

section Points

variable {α : Type} [Angular α]

/-- The point of a circle about the origin at an angle in radians. -/
def onCircle (radius angle : α) : Vec2 α := ⟨radius * Angular.cos angle, radius * Angular.sin angle⟩

/-- The points along a circle at the angles 0 to `n`. -/
def rim (n : Nat) (angle : Nat → α) (radius : α) : List (Vec2 α) :=
  (List.range (n + 1)).map fun i => onCircle radius (angle i)

/-- Points along the outer rim at the angles 0 to `n`, and back along the inner rim at the same angles. Without an inner
rim there is only the origin behind the outer one. -/
structure Follows (points : List (Vec2 α)) (n : Nat) (outer inner : α) (angle : Nat → α) : Prop where
  outward : ∀ i ≤ n, points[i]? = some (onCircle outer (angle i))
  back : 0 < inner → points.length = 2 * (n + 1) ∧ ∀ i ≤ n, points[2 * n + 1 - i]? = some (onCircle inner (angle i))
  closed : ¬ 0 < inner → points.length = n + 2 ∧ points[n + 1]? = some ⟨0, 0⟩

variable {n i : Nat} {angle : Nat → α} {outer inner : α}

theorem length_rim (n : Nat) (angle : Nat → α) (radius : α) : (rim n angle radius).length = n + 1 := by
  rw [rim, List.length_map, List.length_range]

theorem getElem?_rim (h : i ≤ n) (radius : α) : (rim n angle radius)[i]? = some (onCircle radius (angle i)) := by
  rw [rim, List.getElem?_map, List.getElem?_range (by omega)]
  rfl

/-- From the end of the outer rim, the reversed inner rim is met at the last angle first. -/
theorem getElem?_back (h : i ≤ n) :
    (rim n angle outer ++ (rim n angle inner).reverse)[2 * n + 1 - i]? = some (onCircle inner (angle i)) := by
  have hlength := length_rim n angle inner
  rw [List.getElem?_append_right (by rw [length_rim]; omega), length_rim,
    List.getElem?_reverse (by rw [hlength]; omega), hlength]
  have hindex : n + 1 - 1 - (2 * n + 1 - i - (n + 1)) = i := by omega
  rw [hindex]
  exact getElem?_rim h inner

/-- An outline is the outer rim, and the inner one reversed or the origin. -/
theorem outline_eq (r start stop width : α) (resolution : UInt32) {n : Nat}
    (hn : n = segments (stop - start) resolution) {inner : α} (hinner : inner = Scalar.nonNegative (r - width / 2)) :
    outline r start stop width resolution =
      rim n (fun i => radians (angleAt start (stop - start) n i)) (r + width / 2) ++
        (if 0 < inner then (rim n (fun i => radians (angleAt start (stop - start) n i)) inner).reverse
          else [⟨0, 0⟩]) := by
  rw [hn, hinner]
  rfl

/-- **An outline follows its rims.** -/
theorem follows_outline (r start stop width : α) (resolution : UInt32) :
    Follows (outline r start stop width resolution) (segments (stop - start) resolution) (r + width / 2)
      (Scalar.nonNegative (r - width / 2))
      fun i => radians (angleAt start (stop - start) (segments (stop - start) resolution) i) := by
  obtain ⟨n, hn⟩ : ∃ n, n = segments (stop - start) resolution := ⟨_, rfl⟩
  obtain ⟨inner, hinner⟩ : ∃ inner, inner = Scalar.nonNegative (r - width / 2) := ⟨_, rfl⟩
  rw [outline_eq r start stop width resolution hn hinner, ← hn, ← hinner]
  refine ⟨fun i hi => ?_, fun hpos => ?_, fun hpos => ?_⟩
  · rw [List.getElem?_append_left (by rw [length_rim]; omega)]
    exact getElem?_rim hi _
  · rw [if_pos hpos]
    refine ⟨?_, fun i hi => getElem?_back hi⟩
    rw [List.length_append, List.length_reverse, length_rim, length_rim]
    omega
  · rw [if_neg hpos]
    refine ⟨?_, ?_⟩
    · rw [List.length_append, length_rim]
      rfl
    · rw [List.getElem?_append_right (by rw [length_rim]), length_rim, Nat.sub_self]
      rfl

end Points

/-! ## Segments -/

/-- A double that is kept between 1 and 4096 is a number between them; what is no number becomes 1. -/
theorem clamped_bounds (x : Float) :
    (Scalar.least (Scalar.greatest x 1) (Scalar.ofNat maxSegments)).isFinite = true ∧
      1 ≤ Double.value (Scalar.least (Scalar.greatest x 1) (Scalar.ofNat maxSegments)) ∧
      Double.value (Scalar.least (Scalar.greatest x 1) (Scalar.ofNat maxSegments)) ≤ 4096 := by
  have hone : (1 : Float).isFinite = true ∧ Double.value 1 = 1 := by decide +kernel
  have hmost : (Scalar.ofNat maxSegments : Float).isFinite = true ∧ Double.value (Scalar.ofNat maxSegments) = 4096 := by
    decide +kernel
  cases hx : x.isFinite with
  | true =>
    obtain ⟨hraised, hgreatest⟩ := Double.reading.greatest hx hone.1
    obtain ⟨hfinite, hleast⟩ := Double.reading.least hraised hmost.1
    have hvalue : Double.value (Scalar.least (Scalar.greatest x 1) (Scalar.ofNat maxSegments)) =
        min (max (Double.value x) (Double.value 1)) (Double.value (Scalar.ofNat maxSegments)) :=
      hleast.trans (congrArg (min · _) hgreatest)
    rw [hvalue, hone.2, hmost.2]
    exact ⟨hfinite, le_min (le_max_right _ _) (by norm_num), min_le_right _ _⟩
  | false =>
    rcases Double.eq_nan_or_infinity hx with rfl | ⟨s, rfl⟩
    · decide +kernel
    · cases s <;> decide +kernel

theorem segments_bounds (sweep : Float) (resolution : UInt32) :
    1 ≤ segments sweep resolution ∧ segments sweep resolution ≤ 4096 := by
  obtain ⟨hfinite, hlow, hhigh⟩ := clamped_bounds
    (Scalar.ceil (Scalar.ofNat (max resolution.toNat 1) * Scalar.abs sweep / 360))
  have hcount : segments sweep resolution = _ := Double.toNat_of_lt hfinite (by linarith) (by linarith)
  have hfloor := Rat.le_floor_iff.2 (by exact_mod_cast hlow : ((1 : Int) : Rat) ≤ _)
  have hceiling := (Rat.floor_le _).trans (by exact_mod_cast hhigh : _ ≤ ((4096 : Int) : Rat))
  rw [Int.cast_le] at hceiling
  omega

/-- A whole rational is kept between two whole ones. -/
theorem clamped_exact (n low high : Int) : Scalar.least (Scalar.greatest (n : Rat) low) high =
    (min (max n low) high : Int) := by
  have hgreatest : Scalar.greatest (n : Rat) low = max (n : Rat) low := (Rational.reading.greatest trivial trivial).2
  have hleast : Scalar.least (max (n : Rat) low) high = min (max (n : Rat) low) high :=
    (Rational.reading.least trivial trivial).2
  rw [hgreatest, hleast]
  push_cast
  rfl

/-- Over the rationals the share of the resolution is rounded up and kept within the bounds. -/
theorem segments_exact (sweep : Rat) (resolution : UInt32) : (segments sweep resolution : Int) =
    min (max ((max resolution.toNat 1 : Nat) * |sweep| / 360 : Rat).ceil 1) 4096 := by
  obtain ⟨share, hshare⟩ : ∃ share, share = ((max resolution.toNat 1 : Nat) * |sweep| / 360 : Rat).ceil := ⟨_, rfl⟩
  have hcount : segments sweep resolution = (min (max share 1) 4096).toNat := by
    rw [hshare, ← Rational.abs_eq, ← Rat.floor_intCast (min (max _ 1) 4096), ← clamped_exact]
    rfl
  rw [hcount, ← hshare]
  omega

/-! ## Angles -/

/-- Angles that go from the start to the end in `n` equal steps. -/
structure EvenlySpaced (start stop : Rat) (n : Nat) (angle : Nat → Rat) : Prop where
  first : angle 0 = start
  last : angle n = stop
  step : ∀ i, angle (i + 1) - angle i = (stop - start) / n

theorem evenlySpaced_angleAt (start stop : Rat) {n : Nat} (hn : 0 < n) :
    EvenlySpaced start stop n (angleAt start (stop - start) n) := by
  have hcast : (n : Rat) ≠ 0 := by exact_mod_cast hn.ne'
  have hangle (i : Nat) : angleAt start (stop - start) n i = start + (stop - start) * i / n := rfl
  refine ⟨?_, ?_, fun i => ?_⟩
  · rw [hangle, Nat.cast_zero, mul_zero, zero_div, add_zero]
  · rw [hangle, mul_div_cancel_right₀ _ hcast]
    ring
  · rw [hangle, hangle]
    push_cast
    ring

end Arc

/-- **An arc is drawn as a closed outline of at most 4096 segments.** It is a polygon of one path along the outer rim,
half of the width beyond the radius, and back along the inner one, or through the origin. This holds of all doubles,
also where the sweep is infinite or no number. Over the rationals the number of segments is the share of the resolution
that the sweep takes of the full circle, rounded up, and the angles go evenly from the start to the end. -/
theorem expansion?_arc :
    (∀ (r start stop width : Float) (resolution : UInt32), ∃ points n,
      Node.expansion? (.leaf (.derived (.curve (.arc r start stop width) resolution))) =
        some (Node.drawn (.polygon points none 10)) ∧
      1 ≤ n ∧ n ≤ 4096 ∧
      Arc.Follows points n (r + width / 2) (Scalar.nonNegative (r - width / 2))
        fun i => radians (start + (stop - start) * Float.ofNat i / Float.ofNat n)) ∧
    (∀ (pi : Rat) (sin cos : Rat → Rat) (r start stop width : Rat) (resolution : UInt32),
      letI := Rational.angular pi sin cos
      ∃ (points : List (Vec2 Rat)) (n : Nat) (degrees : Nat → Rat),
        Node.expansion? (.leaf (.derived (.curve (.arc r start stop width) resolution))) =
          some (Node.drawn (.polygon points none 10)) ∧
        (n : Int) = min (max ((max resolution.toNat 1 : Nat) * |stop - start| / 360 : Rat).ceil 1) 4096 ∧
        Arc.Follows points n (r + width / 2) (max (r - width / 2) 0) (fun i => radians (degrees i)) ∧
        Arc.EvenlySpaced start stop n degrees) := by
  refine ⟨fun r start stop width resolution => ?_, fun pi sin cos r start stop width resolution => ?_⟩
  · obtain ⟨hlow, hhigh⟩ := Arc.segments_bounds (stop - start) resolution
    exact ⟨_, _, rfl, hlow, hhigh, Arc.follows_outline r start stop width resolution⟩
  · let _ := Rational.angular pi sin cos
    have hcount := Arc.segments_exact (stop - start) resolution
    have hfollows := Arc.follows_outline r start stop width resolution
    rw [nonNegative_eq] at hfollows
    exact ⟨_, _, _, rfl, hcount, hfollows, Arc.evenlySpaced_angleAt start stop (by omega)⟩

end SolidScript
