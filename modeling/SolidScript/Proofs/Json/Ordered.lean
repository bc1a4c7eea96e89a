import Mathlib.Data.String.Basic
import SolidScript.Proofs.Json.Readable

/-!
# Values with ordered fields

Where the fields of every object stand in the order of their keys, each key once, a value is `Ordered`. Every canonical
form is (`ordered_canonical`), and so is everything that is read from a text (`ordered_read?`).
-/

namespace SolidScript.Json

/-- The fields of every object of a value stand in the order of their keys, each key once. -/
inductive Ordered : Json → Prop where
  | null : Ordered .null
  | bool (b : Bool) : Ordered (.bool b)
  | number (n : Number) : Ordered (.number n)
  | string (s : String) : Ordered (.string s)
  | array {items : List Json} : (∀ item ∈ items, Ordered item) → Ordered (.array items)
  | object {fields : List (String × Json)} : (fields.map Prod.fst).Pairwise (· < ·) →
    (∀ field ∈ fields, Ordered field.2) → Ordered (.object fields)
  | unreadable : Ordered .unreadable

theorem ordered_array {items : List Json} (h : Ordered (.array items)) : ∀ item ∈ items, Ordered item := by
  cases h with
  | array h => exact h

theorem ordered_object {fields : List (String × Json)} (h : Ordered (.object fields)) :
    (fields.map Prod.fst).Pairwise (· < ·) ∧ ∀ field ∈ fields, Ordered field.2 := by
  cases h with
  | object hkeys hvalues => exact ⟨hkeys, hvalues⟩

/-- A field that is put into ordered fields takes its place among them. -/
theorem pairwise_putField (key : String) (value : Json) {fields : List (String × Json)}
    (h : (fields.map Prod.fst).Pairwise (· < ·)) : ((putField key value fields).map Prod.fst).Pairwise (· < ·) := by
  induction fields with
  | nil => exact List.pairwise_singleton _ _
  | cons field rest ih =>
    obtain ⟨k, v⟩ := field
    rw [List.map_cons, List.pairwise_cons] at h
    obtain ⟨hfirst, hrest⟩ := h
    rw [putField]
    split_ifs with heq hlt
    · subst heq
      exact List.pairwise_cons.2 ⟨hfirst, hrest⟩
    · refine List.pairwise_cons.2 ⟨?_, List.pairwise_cons.2 ⟨hfirst, hrest⟩⟩
      exact List.forall_mem_cons.2 ⟨hlt, fun other hother => lt_trans hlt (hfirst other hother)⟩
    · refine List.pairwise_cons.2 ⟨fun other hother => ?_, ih hrest⟩
      obtain ⟨field, hfield, rfl⟩ := List.mem_map.1 hother
      rcases mem_putField hfield with rfl | hheld
      · exact lt_of_le_of_ne (not_lt.1 hlt) (Ne.symm heq)
      · exact hfirst _ (List.mem_map_of_mem hheld)

theorem pairwise_putFields {fields start : List (String × Json)} (h : (start.map Prod.fst).Pairwise (· < ·)) :
    ((fields.foldl (fun sorted (key, value) => putField key value sorted) start).map Prod.fst).Pairwise (· < ·) := by
  induction fields generalizing start with
  | nil => exact h
  | cons field rest ih => exact ih (pairwise_putField field.1 field.2 h)

theorem pairwise_sortFields (fields : List (String × Json)) : ((sortFields fields).map Prod.fst).Pairwise (· < ·) :=
  pairwise_putFields List.Pairwise.nil

/-- **A canonical form is ordered**, at every depth. -/
theorem ordered_canonical : ∀ value : Json, value.canonical.Ordered
  | .null => .null
  | .bool b => .bool b
  | .number n => .number n
  | .string s => .string s
  | .array items => by
    rw [canonical, canonicalItems_eq_map]
    refine .array (List.forall_mem_map.2 fun item hitem => ?_)
    have hsize := List.sizeOf_lt_of_mem hitem
    exact ordered_canonical item
  | .object fields => by
    rw [canonical, canonicalFields_eq_map]
    refine .object (pairwise_sortFields _) fun field hfield => ?_
    obtain ⟨source, hsource, rfl⟩ := List.mem_map.1 (mem_sortFields hfield)
    have hsize := List.sizeOf_lt_of_mem hsource
    exact ordered_canonical source.2
  | .unreadable => .unreadable
termination_by value => sizeOf value
decreasing_by
  · simp only [Json.array.sizeOf_spec]
    omega
  · obtain ⟨key, value⟩ := source
    simp only [Json.object.sizeOf_spec, Prod.mk.sizeOf_spec] at hsize ⊢
    omega

/-- Whatever is read from a text is ordered. -/
theorem ordered_read? {text : String} {value : Json} (h : read? text = some value) : value.Ordered := by
  unfold read? at h
  split at h
  · next parsed _ =>
    split at h
    · cases h
      exact ordered_canonical parsed
    · cases h
  · cases h

end SolidScript.Json
