import Mathlib.Order.Bounds.Defs
import SolidScript.Proofs.Double.Order
import SolidScript.Proofs.Geometry.Box

/-!
# The least box

The bounding box of doubles, infinities and coordinates that are no numbers included.

* `Side`: the lower and the upper side of boxes are treated alike. A side is moved to a number that is further out and
  stays where it is otherwise (`Side.pick_kept`, `Side.pick_taken`).
* `Outermost`: a side of the box of some coordinates. It is where a box begins to grow (`Outermost.nil`), every
  coordinate that it grows by keeps it so (`Outermost.concat`), hence a list does (`Side.outermost_foldl`).
* `ofPoints?_reaches`: a bounding box is the least box, in whatever order and however often its points are given.
-/

namespace SolidScript.Box

open Double

/-! ## Sides -/

section Choice

variable {a b : Float} (ha : a.isNaN = false)
include ha

theorem least_of_number (b : Float) : Scalar.least a b = if b < a then b else a :=
  if_pos (beq_self_of_isNaN ha)

theorem greatest_of_number (b : Float) : Scalar.greatest a b = if a < b then b else a :=
  if_pos (beq_self_of_isNaN ha)

theorem least_eq_left (h : b.isNaN = false → a ≤ b) : Scalar.least a b = a := by
  rw [least_of_number ha, if_neg]
  intro hlt
  have hb := (isNaN_of_lt hlt).1
  exact (lt_iff_not_le hb ha).1 hlt (h hb)

theorem greatest_eq_left (h : b.isNaN = false → b ≤ a) : Scalar.greatest a b = a := by
  rw [greatest_of_number ha, if_neg]
  intro hlt
  have hb := (isNaN_of_lt hlt).2
  exact (lt_iff_not_le ha hb).1 hlt (h hb)

theorem least_eq_right (hb : b.isNaN = false) (h : ¬ a ≤ b) : Scalar.least a b = b ∧ b ≤ a := by
  have hlt := (lt_iff_not_le hb ha).2 h
  rw [least_of_number ha, if_pos hlt]
  exact ⟨rfl, le_of_lt_of_numbers hlt⟩

theorem greatest_eq_right (hb : b.isNaN = false) (h : ¬ b ≤ a) : Scalar.greatest a b = b ∧ a ≤ b := by
  have hlt := (lt_iff_not_le ha hb).2 h
  rw [greatest_of_number ha, if_pos hlt]
  exact ⟨rfl, le_of_lt_of_numbers hlt⟩

end Choice

/-- A side that boxes have along every axis. Further out are the lesser numbers for the lower side, and the greater ones
for the upper side. -/
structure Side where
  /-- The corner on the side. -/
  corner : Box Float → Vec3 Float
  /-- Whether a number is at least as far out as another. -/
  beyond : Float → Float → Prop
  /-- Where the side is moved for a coordinate. -/
  pick : Float → Float → Float
  /-- Where the empty box has the side. No number is further in. -/
  start : Float
  corner_empty : corner empty = Vec3.all start
  corner_grow : ∀ box p, corner (box.grow p) = Vec3.zipWith pick (corner box) p
  start_number : start.isNaN = false
  eq_start : ∀ {a}, beyond start a → a = start
  trans : ∀ {a b c}, beyond a b → beyond b c → beyond a c
  beq : ∀ {a b}, beyond a b → beyond b a → (a == b) = true
  pick_kept : ∀ {a b}, a.isNaN = false → (b.isNaN = false → beyond a b) → pick a b = a
  pick_taken : ∀ {a b}, a.isNaN = false → b.isNaN = false → ¬ beyond a b → pick a b = b ∧ beyond b a

namespace Side

/-- The lower side. -/
def lower : Side where
  corner := Box.min
  beyond a b := a ≤ b
  pick := Scalar.least
  start := infinity .positive
  corner_empty := rfl
  corner_grow _ _ := rfl
  start_number := rfl
  eq_start := eq_of_infinity_le
  trans := Double.le_trans
  beq := beq_of_le_of_le
  pick_kept := least_eq_left
  pick_taken := least_eq_right

/-- The upper side. -/
def upper : Side where
  corner := Box.max
  beyond a b := b ≤ a
  pick := Scalar.greatest
  start := infinity .negative
  corner_empty := rfl
  corner_grow _ _ := rfl
  start_number := rfl
  eq_start := eq_of_le_infinity
  trans h h' := Double.le_trans h' h
  beq h h' := beq_of_le_of_le h' h
  pick_kept := greatest_eq_left
  pick_taken := greatest_eq_right

variable (side : Side)

theorem beyond_self {a : Float} (ha : a.isNaN = false) : side.beyond a a := by
  by_contra h
  exact h (side.pick_taken ha ha h).2

theorem beyond_start {a : Float} (ha : a.isNaN = false) : side.beyond a side.start := by
  by_contra h
  obtain rfl := side.eq_start (side.pick_taken ha side.start_number h).2
  exact h (side.beyond_self ha)

/-- A side that is moved from the empty box stands at the coordinate, if that is a number. -/
theorem pick_start (a : Float) : side.pick side.start a = if a.isNaN then side.start else a := by
  cases ha : a.isNaN with
  | true => exact side.pick_kept side.start_number fun hnumber => absurd hnumber (by rw [ha]; exact Bool.noConfusion)
  | false =>
    by_cases h : side.beyond side.start a
    · rw [side.pick_kept side.start_number fun _ => h]
      exact (side.eq_start h).symm
    · exact (side.pick_taken side.start_number ha h).1

/-! ## Outermost numbers -/

/-- The outermost of the numbers among some coordinates; if there are none, where a box begins to grow. -/
structure Outermost (xs : List Float) (m : Float) : Prop where
  number : m.isNaN = false
  beyond : ∀ x ∈ xs, x.isNaN = false → side.beyond m x
  attained : m ∈ xs ∨ m = side.start ∧ ∀ x ∈ xs, x.isNaN = true

variable {side}

namespace Outermost

variable {xs ys : List Float} {m m' : Float}

theorem nil : side.Outermost [] side.start :=
  ⟨side.start_number, fun _ h => absurd h List.not_mem_nil, .inr ⟨rfl, fun _ h => absurd h List.not_mem_nil⟩⟩

/-- A coordinate more. -/
theorem concat (h : side.Outermost xs m) (x : Float) : side.Outermost (xs ++ [x]) (side.pick m x) := by
  by_cases hkept : x.isNaN = false → side.beyond m x
  · rw [side.pick_kept h.number hkept]
    refine ⟨h.number, ?_, ?_⟩
    · simp only [List.forall_mem_append, List.forall_mem_singleton]
      exact ⟨h.beyond, hkept⟩
    · rcases h.attained with hmem | ⟨rfl, hnone⟩
      · exact .inl (List.mem_append_left _ hmem)
      · cases hx : x.isNaN with
        | false => exact .inl (by simp [side.eq_start (hkept hx)])
        | true =>
          refine .inr ⟨rfl, ?_⟩
          simp only [List.forall_mem_append, List.forall_mem_singleton]
          exact ⟨hnone, hx⟩
  · obtain ⟨hx, hnot⟩ := Classical.not_imp.1 hkept
    obtain ⟨htaken, hbeyond⟩ := side.pick_taken h.number hx hnot
    rw [htaken]
    refine ⟨hx, ?_, .inl (by simp)⟩
    simp only [List.forall_mem_append, List.forall_mem_singleton]
    exact ⟨fun y hy hnumber => side.trans hbeyond (h.beyond y hy hnumber), fun _ => side.beyond_self hx⟩

theorem foldl (h : side.Outermost xs m) : side.Outermost (xs ++ ys) (ys.foldl side.pick m) := by
  induction ys generalizing xs m with
  | nil => rwa [List.append_nil]
  | cons y ys ih =>
    have hmore := ih (h.concat y)
    rwa [List.append_assoc] at hmore

/-- Among more coordinates the outermost one is further out. -/
theorem mono (h : side.Outermost xs m) (h' : side.Outermost ys m') (hsub : ∀ x ∈ xs, x ∈ ys) : side.beyond m' m := by
  rcases h.attained with hmem | ⟨rfl, -⟩
  · exact h'.beyond m (hsub m hmem) h.number
  · exact side.beyond_start h'.number

end Outermost

/-! ## Boxes -/

variable (side)

theorem outermost_foldl (c : Coordinate Float) (points : List (Vec3 Float)) :
    side.Outermost (points.map c.entry) (c.entry (side.corner (points.foldl grow empty))) := by
  have hfold : c.entry (side.corner (points.foldl grow empty)) = (points.map c.entry).foldl side.pick side.start := by
    rw [← c.entry_all side.start, ← side.corner_empty]
    generalize empty = box
    induction points generalizing box with
    | nil => rfl
    | cons p rest ih =>
      rw [List.foldl_cons, ih, List.map_cons, List.foldl_cons, side.corner_grow, c.zipWith]
  rw [hfold]
  exact Outermost.nil.foldl

/-- A side is not moved by a coordinate that is no further out. -/
theorem entry_corner_grow (c : Coordinate Float) {points : List (Vec3 Float)} {p : Vec3 Float}
    (h : (c.entry p).isNaN = false → side.beyond (c.entry (side.corner (points.foldl grow empty))) (c.entry p)) :
    c.entry (side.corner ((points.foldl grow empty).grow p)) = c.entry (side.corner (points.foldl grow empty)) := by
  rw [side.corner_grow, c.zipWith]
  exact side.pick_kept (side.outermost_foldl c points).number h

theorem corner_grow_empty (p : Vec3 Float) :
    side.corner (empty.grow p) = p.map fun a => if a.isNaN then side.start else a := by
  rw [side.corner_grow, side.corner_empty]
  simp only [Vec3.zipWith, Vec3.all, Vec3.map, pick_start]

end Side

/-- Numbers are what equals itself. -/
theorem eq_self_eq (a : Float) : Scalar.eq a a = !a.isNaN := by
  show (a == a) = !a.isNaN
  rw [Bool.eq_iff_iff, Float.beq_self_iff, Float.isNaN_eq_decide_eq_nan, Bool.not_eq_true', decide_eq_false_iff_not]

theorem eq_of_corners {α : Type} {box box' : Box α} (hmin : box.min = box'.min) (hmax : box.max = box'.max) :
    box = box' := by
  cases box
  cases hmin
  cases hmax
  rfl

/-- The box of one point is the empty box that has grown to hold it. -/
theorem single_eq_grow (p : Vec3 Float) : single p = empty.grow p := by
  have hside (side : Side) (a : Float) :
      (if Scalar.eq a a then a else side.start) = if a.isNaN then side.start else a := by
    rw [eq_self_eq]
    cases a.isNaN <;> rfl
  have hmin : (single p).min = Side.lower.corner (empty.grow p) := by
    rw [Side.corner_grow_empty]
    exact congrArg (p.map ·) (funext (hside .lower))
  have hmax : (single p).max = Side.upper.corner (empty.grow p) := by
    rw [Side.corner_grow_empty]
    exact congrArg (p.map ·) (funext (hside .upper))
  exact eq_of_corners hmin hmax

/-- The box of a list of points is the empty box that has grown to hold all of them. -/
theorem ofPoints?_eq_foldl {points : List (Vec3 Float)} (h : points ≠ []) :
    ofPoints? points = some (points.foldl grow empty) := by
  cases points with
  | nil => exact absurd rfl h
  | cons p rest => rw [ofPoints?, List.foldl_cons, single_eq_grow]

/-- How far coordinates reach: to the least and the greatest number among them, or nowhere. -/
structure Reaches (xs : List Float) (lo hi : Float) : Prop where
  least : IsLeast {x | x ∈ xs ∧ x.isNaN = false} lo ∨ lo = 1.0 / 0.0 ∧ ∀ x ∈ xs, x.isNaN = true
  greatest : IsGreatest {x | x ∈ xs ∧ x.isNaN = false} hi ∨ hi = -1.0 / 0.0 ∧ ∀ x ∈ xs, x.isNaN = true

/-- Whether a point is within a box along every axis in which it has a number. -/
def Holds (box : Box Float) (p : Vec3 Float) : Prop :=
  ∀ c : Coordinate Float, (c.entry p).isNaN = false → c.entry box.min ≤ c.entry p ∧ c.entry p ≤ c.entry box.max

theorem reaches_foldl (c : Coordinate Float) (points : List (Vec3 Float)) :
    Reaches (points.map c.entry) (c.entry (points.foldl grow empty).min) (c.entry (points.foldl grow empty).max) := by
  have hlower := Side.lower.outermost_foldl c points
  have hupper := Side.upper.outermost_foldl c points
  constructor
  · exact hlower.attained.imp (fun hmem => ⟨⟨hmem, hlower.number⟩, fun x hx => hlower.beyond x hx.1 hx.2⟩) id
  · exact hupper.attained.imp (fun hmem => ⟨⟨hmem, hupper.number⟩, fun x hx => hupper.beyond x hx.1 hx.2⟩) id

theorem holds_of_mem {points : List (Vec3 Float)} {p : Vec3 Float} (hp : p ∈ points) :
    (points.foldl grow empty).Holds p := by
  intro c hnumber
  have hmem := List.mem_map_of_mem (f := c.entry) hp
  exact ⟨(Side.lower.outermost_foldl c points).beyond _ hmem hnumber,
    (Side.upper.outermost_foldl c points).beyond _ hmem hnumber⟩

/-- A box does not grow by what it holds. -/
theorem grow_of_holds {points : List (Vec3 Float)} {p : Vec3 Float} (h : (points.foldl grow empty).Holds p) :
    (points.foldl grow empty).grow p = points.foldl grow empty := by
  have hmin : ((points.foldl grow empty).grow p).min = (points.foldl grow empty).min :=
    Coordinate.eq_of_entries fun c => Side.lower.entry_corner_grow c fun hnumber => (h c hnumber).1
  have hmax : ((points.foldl grow empty).grow p).max = (points.foldl grow empty).max :=
    Coordinate.eq_of_entries fun c => Side.upper.entry_corner_grow c fun hnumber => (h c hnumber).2
  exact eq_of_corners hmin hmax

/-- Which points there are tells the box, up to the signs of zeros. -/
theorem beq_foldl {points others : List (Vec3 Float)} (h : ∀ p, p ∈ others ↔ p ∈ points) (c : Coordinate Float)
    (side : Side) :
    (c.entry (side.corner (others.foldl grow empty)) == c.entry (side.corner (points.foldl grow empty))) = true := by
  have hsub {first second : List (Vec3 Float)} (h : ∀ p ∈ first, p ∈ second) :
      ∀ x ∈ first.map c.entry, x ∈ second.map c.entry := fun x hx => List.map_subset c.entry h hx
  have hothers := side.outermost_foldl c others
  have hpoints := side.outermost_foldl c points
  exact side.beq (hpoints.mono hothers (hsub fun p => (h p).2)) (hothers.mono hpoints (hsub fun p => (h p).1))

/-- **The bounding box is the least box, whatever the order of the points.** It is the empty box grown by all points,
and along every axis it reaches from the least number among the coordinates to the greatest. It holds all points, it
does not grow by what it holds, and it is numerically the same for every list of the same points. -/
theorem ofPoints?_reaches {points : List (Vec3 Float)} (h : points ≠ []) :
    ∃ box, ofPoints? points = some box ∧ box = points.foldl grow empty ∧
      (∀ c : Coordinate Float, Reaches (points.map c.entry) (c.entry box.min) (c.entry box.max)) ∧
      (∀ p ∈ points, box.Holds p) ∧ (∀ p, box.Holds p → box.grow p = box) ∧
      ∀ others, (∀ p, p ∈ others ↔ p ∈ points) → ∃ box', ofPoints? others = some box' ∧ ∀ c : Coordinate Float,
        (c.entry box'.min == c.entry box.min) = true ∧ (c.entry box'.max == c.entry box.max) = true := by
  refine ⟨_, ofPoints?_eq_foldl h, rfl, fun c => reaches_foldl c points, fun p hp => holds_of_mem hp,
    fun p hp => grow_of_holds hp, fun others hsame => ?_⟩
  have hothers : others ≠ [] := by
    rintro rfl
    obtain ⟨p, hp⟩ := List.exists_mem_of_ne_nil points h
    exact absurd ((hsame p).2 hp) List.not_mem_nil
  exact ⟨_, ofPoints?_eq_foldl hothers, fun c => ⟨beq_foldl hsame c .lower, beq_foldl hsame c .upper⟩⟩

/-- Points with infinities, both zeros and a coordinate that is no number. -/
def mixedPoints : List (Vec3 Float) := [⟨0 / 0, 0, -1 / 0⟩, ⟨2, -0, 0 / 0⟩, ⟨-3, 1, 1 / 0⟩]

theorem ofPoints?_reaches_mixed :
    mixedPoints ≠ [] ∧ ∃ box, ofPoints? mixedPoints = some box ∧
      (∀ c : Coordinate Float, Reaches (mixedPoints.map c.entry) (c.entry box.min) (c.entry box.max)) ∧
      (∀ p ∈ mixedPoints, box.Holds p) ∧
      ∃ box', ofPoints? mixedPoints.reverse = some box' ∧ ∀ c : Coordinate Float,
        (c.entry box'.min == c.entry box.min) = true ∧ (c.entry box'.max == c.entry box.max) = true := by
  have h : mixedPoints ≠ [] := List.cons_ne_nil _ _
  obtain ⟨box, hbox, -, hreaches, hholds, -, hsame⟩ := ofPoints?_reaches h
  exact ⟨h, box, hbox, hreaches, hholds, hsame mixedPoints.reverse fun p => List.mem_reverse⟩

end SolidScript.Box
