import SolidScript.Geometry.Box
import SolidScript.Proofs.Scalar.Order

/-!
# What bounding boxes bound

Along each axis a bounding box reaches from the least coordinate of its points to the greatest one, over the rationals
and over the finite doubles alike.

* `Spans xs lo hi`: the least and the greatest of the numbers `xs` are `lo` and `hi`. A monotone function takes the
  least to the least and the greatest to the greatest (`Spans.map`), and numbers are added one by one (`Spans.concat`).
* `Box.Fits`: a box that spans its points along one axis. The box of one point does (`Box.fits_single`), each point
  that the box grows by keeps it so (`Box.Fits.grow`), hence the box of a list does (`Box.fits_ofPoints?`).
-/

namespace SolidScript

/-! ## Spans -/

/-- The least and the greatest of some numbers. -/
structure Spans (xs : List Rat) (lo hi : Rat) : Prop where
  lo_mem : lo ∈ xs
  hi_mem : hi ∈ xs
  lo_le : ∀ x ∈ xs, lo ≤ x
  le_hi : ∀ x ∈ xs, x ≤ hi

theorem spans_singleton (x : Rat) : Spans [x] x x := by
  constructor <;> simp

namespace Spans

variable {xs : List Rat} {lo hi : Rat} (h : Spans xs lo hi)
include h

theorem le : lo ≤ hi := h.lo_le hi h.hi_mem

theorem concat (x : Rat) : Spans (xs ++ [x]) (min lo x) (max hi x) := by
  refine ⟨?_, ?_, ?_, ?_⟩
  · rcases min_choice lo x with hmin | hmin
    · rw [hmin]
      exact List.mem_append_left _ h.lo_mem
    · simp [hmin]
  · rcases max_choice hi x with hmax | hmax
    · rw [hmax]
      exact List.mem_append_left _ h.hi_mem
    · simp [hmax]
  · simp only [List.forall_mem_append, List.forall_mem_singleton]
    exact ⟨fun y hy => (min_le_left lo x).trans (h.lo_le y hy), min_le_right lo x⟩
  · simp only [List.forall_mem_append, List.forall_mem_singleton]
    exact ⟨fun y hy => (h.le_hi y hy).trans (le_max_left hi x), le_max_right hi x⟩

theorem map {f : Rat → Rat} (hf : Monotone f) : Spans (xs.map f) (f lo) (f hi) := by
  refine ⟨List.mem_map_of_mem h.lo_mem, List.mem_map_of_mem h.hi_mem, ?_, ?_⟩
  · simp only [List.forall_mem_map]
    exact fun x hx => hf (h.lo_le x hx)
  · simp only [List.forall_mem_map]
    exact fun x hx => hf (h.le_hi x hx)

end Spans

/-! ## Coordinates -/

/-- The entry of a vector along one axis. Vectors are mapped and put together entry by entry. -/
structure Coordinate (α : Type) where
  entry : Vec3 α → α
  map : ∀ (f : α → α) v, entry (v.map f) = f (entry v)
  zipWith : ∀ (f : α → α → α) v w, entry (Vec3.zipWith f v w) = f (entry v) (entry w)

namespace Coordinate

variable {α : Type}

/-- The coordinate along X. -/
def x : Coordinate α := ⟨Vec3.x, fun _ _ => rfl, fun _ _ _ => rfl⟩

/-- The coordinate along Y. -/
def y : Coordinate α := ⟨Vec3.y, fun _ _ => rfl, fun _ _ _ => rfl⟩

/-- The coordinate along Z. -/
def z : Coordinate α := ⟨Vec3.z, fun _ _ => rfl, fun _ _ _ => rfl⟩

theorem entry_all (c : Coordinate α) (a : α) : c.entry (Vec3.all a) = a :=
  c.map (fun _ => a) (Vec3.all a)

/-- Vectors are equal if they are along every axis. -/
theorem eq_of_entries {v w : Vec3 α} (h : ∀ c : Coordinate α, c.entry v = c.entry w) : v = w := by
  obtain ⟨vx, vy, vz⟩ := v
  obtain ⟨wx, wy, wz⟩ := w
  obtain rfl : vx = wx := h x
  obtain rfl : vy = wy := h y
  obtain rfl : vz = wz := h z
  rfl

end Coordinate

/-! ## Boxes -/

namespace Box

variable {α : Type} [Scalar α] (r : Reading α) (c : Coordinate α)

/-- A box that spans points along an axis, with numbers at both ends. -/
structure Fits (points : List (Vec3 α)) (box : Box α) : Prop where
  min : r.IsNumber (c.entry box.min)
  max : r.IsNumber (c.entry box.max)
  spans : Spans (points.map fun p => r.value (c.entry p)) (r.value (c.entry box.min)) (r.value (c.entry box.max))

variable {r c}

theorem fits_single {p : Vec3 α} (hp : r.IsNumber (c.entry p)) : Fits r c [p] (single p) := by
  have hmin : c.entry (single p).min = c.entry p := by
    rw [single, c.map, if_pos (r.eq_self hp)]
  have hmax : c.entry (single p).max = c.entry p := by
    rw [single, c.map, if_pos (r.eq_self hp)]
  refine ⟨?_, ?_, ?_⟩
  · rwa [hmin]
  · rwa [hmax]
  · rw [hmin, hmax]
    exact spans_singleton _

theorem Fits.grow {points : List (Vec3 α)} {box : Box α} (h : Fits r c points box) {p : Vec3 α}
    (hp : r.IsNumber (c.entry p)) : Fits r c (points ++ [p]) (box.grow p) := by
  obtain ⟨hmin, hminvalue⟩ := r.least h.min hp
  obtain ⟨hmax, hmaxvalue⟩ := r.greatest h.max hp
  have hleast : c.entry (box.grow p).min = Scalar.least (c.entry box.min) (c.entry p) := c.zipWith _ _ _
  have hgreatest : c.entry (box.grow p).max = Scalar.greatest (c.entry box.max) (c.entry p) := c.zipWith _ _ _
  refine ⟨?_, ?_, ?_⟩
  · rwa [hleast]
  · rwa [hgreatest]
  · rw [hleast, hgreatest, hminvalue, hmaxvalue, List.map_append, List.map_singleton]
    exact h.spans.concat _

theorem Fits.foldl {points rest : List (Vec3 α)} {box : Box α} (h : Fits r c points box)
    (hrest : ∀ p ∈ rest, r.IsNumber (c.entry p)) : Fits r c (points ++ rest) (rest.foldl Box.grow box) := by
  induction rest generalizing points box with
  | nil => rwa [List.append_nil]
  | cons p rest ih =>
    obtain ⟨hp, hrest⟩ := List.forall_mem_cons.1 hrest
    have hgrown := ih (h.grow hp) hrest
    rwa [List.append_assoc] at hgrown

/-- **The bounding box of points spans them along every axis.** -/
theorem fits_ofPoints? {points : List (Vec3 α)} {box : Box α} (h : ofPoints? points = some box)
    (hpoints : ∀ p ∈ points, r.IsNumber (c.entry p)) : Fits r c points box := by
  cases points with
  | nil => cases h
  | cons p rest =>
    cases h
    obtain ⟨hp, hrest⟩ := List.forall_mem_cons.1 hpoints
    exact (fits_single hp).foldl hrest

theorem ofPoints?_eq_none {points : List (Vec3 α)} : ofPoints? points = none ↔ points = [] := by
  cases points <;> simp [ofPoints?]

end Box
end SolidScript
