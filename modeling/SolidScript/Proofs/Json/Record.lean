import SolidScript.Json.Record
import SolidScript.Proofs.Json.Text

/-!
# Records are read back

A reader `Restores` a value from the form that it is stored in if it gives the value back wherever the form nests no
deeper than can be read, and nothing else. The law holds of plain values and lifts through lists, vectors and
absent values; the fields of a record are read under their own names (`asRecord?_cut`, `need?_cut`).
-/

namespace SolidScript.Json

/-- The reader gives a value back from its form, unless the form nests too deep to be read. -/
abbrev Restores {α : Type} (read : Json → Option α) (form : Json) (a : α) : Prop :=
  ∀ room, read (form.cut room) = if form.depth ≤ room then some a else none

section Lifting

variable {α β : Type} {read : Json → Option α} {form : Json} {a : α}

/-- What has no container is read at any depth. -/
theorem Restores.plain (hdepth : form.depth = 0) (h : read form = some a) : Restores read form a := by
  intro room
  rw [hdepth, if_pos (Nat.zero_le room), cut_of_depth_le (by omega), h]

/-- The law of a reader that is made of another one and a check. -/
theorem Restores.bind (h : Restores read form a) {f : α → Option β} {b : β} (hf : f a = some b) :
    Restores (fun value => (read value).bind f) form b := by
  intro room
  simp only [h room]
  split
  · exact hf
  · rfl

end Lifting

/-! ## Plain values -/

@[simp] theorem depth_ofDouble (x : Float) : (ofDouble x).depth = 0 := rfl

@[simp] theorem depth_bool (b : Bool) : (Json.bool b).depth = 0 := rfl

@[simp] theorem depth_string (s : String) : (Json.string s).depth = 0 := rfl

@[simp] theorem depth_ofWord32 (n : UInt32) : (ofWord32 n).depth = 0 := rfl

theorem restores_double (x : Float) : Restores asDouble? (ofDouble x) x := .plain rfl rfl

theorem restores_bool (b : Bool) : Restores asBool? (.bool b) b := .plain rfl rfl

theorem restores_string (s : String) : Restores asString? (.string s) s := .plain rfl rfl

theorem asCount?_ofNat {bound n : Nat} (h : n < bound) : asCount? bound (ofNat n) = some n := by
  rw [ofNat, asCount?, if_pos (by omega), Int.toNat_natCast]

theorem restores_word32 (n : UInt32) : Restores asWord32? (ofWord32 n) n := by
  refine .plain rfl ?_
  rw [asWord32?, ofWord32, asCount?_ofNat n.toNat_lt, Option.map_some, UInt32.ofNat_toNat]

theorem restores_word64 (n : UInt64) : Restores asWord64? (ofNat n.toNat) n := by
  refine .plain rfl ?_
  rw [asWord64?, asCount?_ofNat n.toNat_lt, Option.map_some, UInt64.ofNat_toNat]

/-! ## Lists -/

section Lists

variable {α : Type} {read : Json → Option α} {form : α → Json}

theorem mapM_cutItems {as : List α} (h : ∀ a ∈ as, Restores read (form a) a) (room : Nat) :
    (cutItems room (as.map form)).mapM read = if depthItems (as.map form) ≤ room then some as else none := by
  induction as with
  | nil => rfl
  | cons a as ih =>
    rw [List.map_cons, cutItems, depthItems, List.mapM_cons, h a List.mem_cons_self room,
      ih fun b hb => h b (List.mem_cons_of_mem _ hb)]
    by_cases hhead : (form a).depth ≤ room
    · by_cases hrest : depthItems (as.map form) ≤ room
      · simp [hhead, hrest]
      · simp [hhead, hrest]
    · simp [hhead]

/-- **A list is read back if its items are.** -/
theorem restores_list {as : List α} (h : ∀ a ∈ as, Restores read (form a) a) :
    Restores (asList? read) (.array (as.map form)) as := by
  rintro (_ | room)
  · rfl
  · show (cutItems room (as.map form)).mapM read = _
    rw [mapM_cutItems h, depth]
    simp only [Nat.add_le_add_iff_right]

theorem restores_vec2 (h : ∀ a, Restores read (form a) a) (v : Vec2 α) :
    Restores (asVec2? read) (.array (v.toList.map form)) v :=
  (restores_list fun a _ => h a).bind (Vec2.ofList?_toList v)

theorem restores_vec3 (h : ∀ a, Restores read (form a) a) (v : Vec3 α) :
    Restores (asVec3? read) (.array (v.toList.map form)) v :=
  (restores_list fun a _ => h a).bind (Vec3.ofList?_toList v)

theorem restores_indices (lists : List (List UInt64)) : Restores asIndices? (ofIndices lists) lists :=
  restores_list fun _ _ => restores_list fun i _ => restores_word64 i

end Lists

/-! ## Absent values -/

theorem restores_absent {α : Type} (read : Json → Option α) : Restores (asOptional? read) .null none := .plain rfl rfl

theorem restores_present {α : Type} {read : Json → Option α} {items : List Json} {a : α}
    (h : Restores read (.array items) a) : Restores (asOptional? read) (.array items) (some a) := by
  intro room
  have hpresent : asOptional? read (cut room (.array items)) = (read (cut room (.array items))).map some := by
    cases room <;> rfl
  rw [hpresent, h room]
  split <;> rfl

/-! ## Fields -/

theorem occurrences_cutFields (room : Nat) (name : String) (fields : List (String × Json)) :
    occurrences name (cutFields room fields) = occurrences name fields := by
  induction fields with
  | nil => rfl
  | cons field rest ih =>
    unfold occurrences at ih ⊢
    rw [cutFields, List.countP_cons, List.countP_cons, ih]

theorem mem_of_field? {key : String} {value : Json} {fields : List (String × Json)}
    (h : field? key fields = some value) : (key, value) ∈ fields := by
  induction fields with
  | nil => cases h
  | cons field rest ih =>
    unfold field? at h
    split at h
    · next hkey =>
      cases h
      rw [← hkey]
      exact List.mem_cons_self
    · exact List.mem_cons_of_mem _ (ih h)

theorem field?_cutFields (room : Nat) (name : String) (fields : List (String × Json)) :
    field? name (cutFields room fields) = (field? name fields).map (cut room) := by
  induction fields with
  | nil => rfl
  | cons field rest ih =>
    rw [cutFields, field?, field?, ih]
    split <;> rfl

/-- The record of fields whose values are cut. -/
def cutRecord (room : Nat) (fields : List (String × Json)) : Record := fun name => (field? name fields).map (cut room)

section Picking

variable {α : Type} (room : Nat) (name : String) (form : Json) (fields : List (String × Json)) (read : Json → Option α)

theorem need?_self : (cutRecord room ((name, form) :: fields)).need? name read = read (form.cut room) := by
  rw [Record.need?, cutRecord, field?, if_pos rfl, Option.map_some, Option.bind_some]

theorem need?_of_ne {key : String} (h : key ≠ name) :
    (cutRecord room ((key, form) :: fields)).need? name read = (cutRecord room fields).need? name read := by
  rw [Record.need?, Record.need?, cutRecord, field?, if_neg h, cutRecord]

theorem may?_self : (cutRecord room ((name, form) :: fields)).may? name read = asOptional? read (form.cut room) := by
  rw [Record.may?, cutRecord, field?, if_pos rfl, Option.map_some, Option.getD_some]

theorem may?_of_ne {key : String} (h : key ≠ name) :
    (cutRecord room ((key, form) :: fields)).may? name read = (cutRecord room fields).may? name read := by
  rw [Record.may?, Record.may?, cutRecord, field?, if_neg h, cutRecord]

end Picking

/-- What is read on after a value that may nest too deep. -/
theorem bind_restored {α β : Type} {p : Prop} [Decidable p] (a : α) (next : α → Option β) :
    (if p then some a else none).bind next = if p then next a else none := by
  split <;> rfl

theorem occurrences_le_one {fields : List (String × Json)} (h : (fields.map Prod.fst).Nodup) (name : String) :
    occurrences name fields ≤ 1 := by
  have hcount : occurrences name fields = (fields.map Prod.fst).count name := by
    rw [List.count, List.countP_map]
    rfl
  rw [hcount]
  exact List.nodup_iff_count_le_one.1 h name

/-- A record whose fields have different names is opened. -/
theorem asRecord?_cut (names : List String) {fields : List (String × Json)} (h : (fields.map Prod.fst).Nodup)
    (room : Nat) : asRecord? names ((object fields).cut (room + 1)) = some (cutRecord room fields) := by
  have hnames : (names.all fun name => decide (occurrences name (cutFields room fields) ≤ 1)) = true := by
    simp [occurrences_cutFields, occurrences_le_one h]
  show (if (names.all fun name => decide (occurrences name (cutFields room fields) ≤ 1)) = true
    then some fun name => field? name (cutFields room fields) else none) = _
  rw [if_pos hnames]
  simp only [field?_cutFields]
  rfl

end SolidScript.Json
