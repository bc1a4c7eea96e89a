import SolidScript.Proofs.Json.Text

/-!
# What is read

Whatever a text says, a value that is read from it and has no unreadable part is `Exact` (`exact_parse?`): its integers
have 64 bits and its doubles are finite. Putting the value into canonical form keeps that (`exact_canonical`) and does
not make it nest deeper (`depth_canonical_le`). Whatever is `Exact` and does not nest too deep is read from its text
(`read?_compact`).
-/

namespace SolidScript.Json

/-! ## Numbers -/

theorem wholeNumber_exact {negative : Bool} {n : Nat} {i : Int} (h : wholeNumber negative n = .integer i) :
    Number.Exact (.integer i) := by
  have hreach : Decimal.Digits.signedReach = 2 ^ 63 := rfl
  have hsize : UInt64.size = 2 ^ 64 := rfl
  unfold wholeNumber at h
  split_ifs at h
  · cases h
    constructor <;> omega
  · cases h
    constructor <;> omega

theorem exact_ofNumber {n : Number} (hn : ∀ i, n = .integer i → Number.Exact (.integer i))
    (h : (ofNumber n).isReadable = true) : Exact (ofNumber n) := by
  cases n with
  | integer i => exact .number (hn i rfl)
  | double x =>
    by_cases hfinite : x.isFinite = true
    · rw [ofNumber, if_pos hfinite]
      exact .number hfinite
    · rw [ofNumber, if_neg hfinite] at h
      cases h

theorem exact_magnitude? {negative : Bool} {text rest : List Char} {v : Json}
    (h : magnitude? negative text = some (v, rest)) (hv : v.isReadable = true) : Exact v := by
  unfold magnitude? at h
  simp only at h
  split at h
  · cases h
  · obtain ⟨⟨fraction, behind⟩, -, h⟩ := Option.bind_eq_some_iff.1 h
    obtain ⟨⟨exponent, behind⟩, -, h⟩ := Option.bind_eq_some_iff.1 h
    cases h
    refine exact_ofNumber (fun i hi => ?_) hv
    split at hi
    · exact wholeNumber_exact hi
    · cases hi

theorem exact_number? {text rest : List Char} {v : Json} (h : number? text = some (v, rest))
    (hv : v.isReadable = true) : Exact v := by
  unfold number? at h
  split at h <;> exact exact_magnitude? h hv

/-! ## Values -/

theorem within_readable {room : Nat} {v : Json} (h : (within room v).isReadable = true) :
    within room v = v ∧ v.isReadable = true := by
  unfold within at h ⊢
  split at h
  · cases h
  · next hroom =>
    rw [if_neg hroom]
    exact ⟨rfl, h⟩

mutual

/-- A value that is read and readable is exact. -/
theorem exact_value? : ∀ {steps room : Nat} {text rest : List Char} {v : Json},
    value? steps room text = some (v, rest) → v.isReadable = true → Exact v
  | 0, _, _, _, _, h, _ => by cases h
  | steps + 1, room, text, rest, v, h, hv => by
    unfold value? at h
    split at h
    · cases h
      exact .null
    · cases h
      exact .bool true
    · cases h
      exact .bool false
    · obtain ⟨⟨s, behind⟩, -, h⟩ := Option.map_eq_some_iff.1 h
      cases h
      cases s with
      | some s => exact .string s
      | none => cases hv
    · split at h
      · cases h
        rw [(within_readable hv).1]
        exact .array nofun
      · obtain ⟨⟨items, behind⟩, hitems, h⟩ := Option.map_eq_some_iff.1 h
        cases h
        obtain ⟨hwithin, hreadable⟩ := within_readable hv
        rw [hwithin]
        exact .array (exact_items? hitems hreadable)
    · split at h
      · cases h
        rw [(within_readable hv).1]
        exact .object nofun
      · obtain ⟨⟨fields, behind⟩, hfields, h⟩ := Option.map_eq_some_iff.1 h
        cases h
        obtain ⟨hwithin, hreadable⟩ := within_readable hv
        rw [hwithin]
        cases fields with
        | none => cases hreadable
        | some fields => exact .object (exact_fields? hfields hreadable)
    · exact exact_number? h hv

theorem exact_items? : ∀ {steps room : Nat} {text rest : List Char} {items : List Json},
    items? steps room text = some (items, rest) → areReadable items = true → ∀ item ∈ items, Exact item
  | 0, _, _, _, _, h, _ => by cases h
  | steps + 1, room, text, rest, items, h, hitems => by
    unfold items? at h
    obtain ⟨⟨item, behind⟩, hitem, h⟩ := Option.bind_eq_some_iff.1 h
    simp only at h
    split at h
    · obtain ⟨⟨others, behind⟩, hothers, h⟩ := Option.map_eq_some_iff.1 h
      cases h
      obtain ⟨hfirst, hrest⟩ := Bool.and_eq_true_iff.1 hitems
      exact List.forall_mem_cons.2 ⟨exact_value? hitem hfirst, exact_items? hothers hrest⟩
    · cases h
      obtain ⟨hfirst, -⟩ := Bool.and_eq_true_iff.1 hitems
      exact List.forall_mem_singleton.2 (exact_value? hitem hfirst)
    · cases h

theorem exact_fields? : ∀ {steps room : Nat} {text rest : List Char} {fields : List (String × Json)},
    fields? steps room text = some (some fields, rest) → fieldsReadable fields = true →
      ∀ field ∈ fields, Exact field.2
  | 0, _, _, _, _, h, _ => by cases h
  | steps + 1, room, text, rest, fields, h, hfields => by
    unfold fields? at h
    split at h
    · obtain ⟨⟨key, behind⟩, -, h⟩ := Option.bind_eq_some_iff.1 h
      simp only at h
      split at h
      · obtain ⟨⟨value, behind⟩, hvalue, h⟩ := Option.bind_eq_some_iff.1 h
        simp only at h
        split at h
        · obtain ⟨⟨others, behind⟩, hothers, h⟩ := Option.map_eq_some_iff.1 h
          obtain ⟨hread, -⟩ := Prod.mk.inj h
          obtain ⟨key, -, hread⟩ := Option.bind_eq_some_iff.1 hread
          obtain ⟨others, rfl, hread⟩ := Option.bind_eq_some_iff.1 hread
          cases hread
          obtain ⟨hfirst, hrest⟩ := Bool.and_eq_true_iff.1 hfields
          exact List.forall_mem_cons.2 ⟨exact_value? hvalue hfirst, exact_fields? hothers hrest⟩
        · obtain ⟨hread, -⟩ := Prod.mk.inj (Option.some.inj h)
          obtain ⟨key, -, rfl⟩ := Option.map_eq_some_iff.1 hread
          obtain ⟨hfirst, -⟩ := Bool.and_eq_true_iff.1 hfields
          exact List.forall_mem_singleton.2 (exact_value? hvalue hfirst)
        · cases h
      · cases h
    · cases h

end

/-- **What is read from a text is exact**, if all of it is readable. -/
theorem exact_parse? {text : String} {v : Json} (h : parse? text = some v) (hv : v.isReadable = true) : Exact v := by
  unfold parse? parseWithin? at h
  split at h
  · next hread =>
    split at h
    · cases h
      exact exact_value? hread hv
    · cases h
  · cases h

theorem areReadable_iff {items : List Json} : areReadable items = true ↔ ∀ item ∈ items, item.isReadable = true := by
  induction items with
  | nil => simp [areReadable]
  | cons item rest ih => simp [areReadable, ih]

theorem fieldsReadable_iff {fields : List (String × Json)} :
    fieldsReadable fields = true ↔ ∀ field ∈ fields, field.2.isReadable = true := by
  induction fields with
  | nil => simp [fieldsReadable]
  | cons field rest ih => simp [fieldsReadable, ih]

/-- Whatever a text can hold is readable. -/
theorem isReadable_of_exact {v : Json} (h : Exact v) : v.isReadable = true := by
  induction h with
  | null | bool _ | number _ | string _ => rfl
  | array _ ih => rwa [isReadable, areReadable_iff]
  | object _ ih => rwa [isReadable, fieldsReadable_iff]

/-! ## Canonical form -/

theorem mem_putField {key : String} {value : Json} {fields : List (String × Json)} {field : String × Json}
    (h : field ∈ putField key value fields) : field = (key, value) ∨ field ∈ fields := by
  induction fields with
  | nil => exact .inl (List.mem_singleton.1 h)
  | cons first rest ih =>
    unfold putField at h
    split_ifs at h
    · grind
    · grind
    · grind

theorem mem_putFields {fields start : List (String × Json)} {field : String × Json}
    (h : field ∈ fields.foldl (fun sorted (key, value) => putField key value sorted) start) :
    field ∈ start ∨ field ∈ fields := by
  induction fields generalizing start with
  | nil => exact .inl h
  | cons first rest ih =>
    rcases ih h with hput | hrest
    · rcases mem_putField hput with rfl | hstart
      · exact .inr List.mem_cons_self
      · exact .inl hstart
    · exact .inr (List.mem_cons_of_mem _ hrest)

/-- Sorting adds no field. -/
theorem mem_sortFields {fields : List (String × Json)} {field : String × Json} (h : field ∈ sortFields fields) :
    field ∈ fields :=
  (mem_putFields h).resolve_left List.not_mem_nil

theorem canonicalItems_eq_map (items : List Json) : canonicalItems items = items.map canonical := by
  induction items with
  | nil => rfl
  | cons item rest ih => rw [canonicalItems, List.map_cons, ih]

theorem canonicalFields_eq_map (fields : List (String × Json)) :
    canonicalFields fields = fields.map fun (key, value) => (key, value.canonical) := by
  induction fields with
  | nil => rfl
  | cons field rest ih => rw [canonicalFields, List.map_cons, ih]

/-- The canonical form of a value that a text can hold can be held by a text. -/
theorem exact_canonical {v : Json} (h : Exact v) : Exact v.canonical := by
  induction h with
  | null => exact .null
  | bool b => exact .bool b
  | number hn => exact .number hn
  | string s => exact .string s
  | array _ ih =>
    rw [canonical, canonicalItems_eq_map]
    exact .array (List.forall_mem_map.2 ih)
  | object _ ih =>
    rw [canonical, canonicalFields_eq_map]
    refine .object fun field hfield => ?_
    obtain ⟨source, hsource, rfl⟩ := List.mem_map.1 (mem_sortFields hfield)
    exact ih source hsource

/-- The canonical form does not nest deeper. -/
theorem depth_canonical_le {v : Json} (h : Exact v) : v.canonical.depth ≤ v.depth := by
  induction h with
  | null | bool _ | number _ | string _ => exact Nat.le_refl _
  | @array items _ ih =>
    rw [canonical, canonicalItems_eq_map, depth, depth, Nat.add_le_add_iff_right, depthItems_le_iff,
      List.forall_mem_map]
    exact fun item hitem => (ih item hitem).trans (depthItems_le_iff.1 le_rfl item hitem)
  | @object fields _ ih =>
    rw [canonical, canonicalFields_eq_map, depth, depth, Nat.add_le_add_iff_right, depthFields_le_iff]
    intro field hfield
    obtain ⟨source, hsource, rfl⟩ := List.mem_map.1 (mem_sortFields hfield)
    exact (ih source hsource).trans (depthFields_le_iff.1 le_rfl source hsource)

/-- What is written and nests no deeper than is read is read in its canonical form. -/
theorem read?_compact {v : Json} (h : Exact v) (hdepth : v.depth ≤ depthLimit) :
    read? v.compact = some v.canonical := by
  rw [read?, parse?_compact h, cut_of_depth_le hdepth]
  exact if_pos (isReadable_of_exact h)

end SolidScript.Json
