import Mathlib.Data.List.Forall2
import SolidScript.Proofs.Config.Keys

/-!
# Documents that hold a part of a configuration

* `Key.Says`, `HoldsOnly`: what it means that a value of a document says the value of a key, and that a document says a
  configuration for some of the keys and nothing for the others.
* `ofToml?_of_holdsOnly`: such a document is read as the configuration for these keys and the standard settings for the
  others, whatever else it has.
-/

namespace SolidScript.Config

open Overlay (Style Tick)
open Toml (lookup? Entries)

/-! ## What a document says -/

/-- A value says a double: as such, or as an integer. -/
inductive SaysDouble : Toml → Float → Prop where
  | float (x : Float) : SaysDouble (.float x) x
  | count (n : Nat) : SaysDouble (.integer n) (Float.ofNat n)
  | negative (n : Nat) (h : 0 < n) : SaysDouble (.integer (-n)) (-(Float.ofNat n))

/-- A table says the size of a tick mark. -/
def SaysTick (value : Toml) (t : Tick) : Prop :=
  ∃ origin entries length thickness, value = .table origin entries ∧ lookup? "length" entries = some length ∧
    SaysDouble length t.length ∧ lookup? "thickness" entries = some thickness ∧ SaysDouble thickness t.thickness

/-- A table says a style. -/
def SaysStyle (value : Toml) (s : Style) : Prop :=
  ∃ origin entries ticks items size offset, value = .table origin entries ∧ lookup? "ticks" entries = some ticks ∧
    ticks.items? = some items ∧ List.Forall₂ SaysTick items s.ticks.toList ∧
    lookup? "label_size" entries = some size ∧ SaysDouble size s.labelSize ∧
    lookup? "label_offset" entries = some offset ∧ SaysDouble offset s.labelOffset

/-- A value says the value of a key. -/
def Key.Says : (k : Key) → Toml → k.Value → Prop
  | .resolution, value, n => value = .integer (UInt32.toNat n)
  | .toolHeight, value, x => SaysDouble value x
  | .unitSystem, value, u => value = .string (Overlay.UnitSystem.name u)
  | .theme, value, t => value = .string (Overlay.Theme.name t)
  | .defaultSpan, value, x => SaysDouble value x
  | .metricStyle, value, s => SaysStyle value s
  | .imperialStyle, value, s => SaysStyle value s

/-- A document says the configuration for the chosen keys and has nothing for the other keys. What else it has does not
matter. -/
structure HoldsOnly (chosen : Key → Bool) (c : Config) (document : Toml) : Prop where
  tables : ∃ origin entries, document = .table origin entries ∧ ∀ table : Table, ∃ fields : Entries,
    (lookup? table.name entries = none ∧ fields = [] ∨
      ∃ origin, lookup? table.name entries = some (.table origin fields)) ∧
    ∀ k : Key, k.table = table →
      if chosen k then ∃ value, lookup? k.name fields = some value ∧ k.Says value (k.get c)
      else lookup? k.name fields = none

/-- A configuration for the chosen keys, and the standard settings for the others. -/
def only (chosen : Key → Bool) (c : Config) : Config := ofKeys fun k => if chosen k then k.get c else k.get .standard

theorem only_all (c : Config) : c.only (fun _ => true) = c := ofKeys_get c

section Reading

variable {value : Toml} {x : Float} {t : Tick} {s : Style} {chosen : Key → Bool} {c : Config} {document : Toml}

theorem SaysDouble.asDouble? (h : SaysDouble value x) : value.asDouble? = some x := by
  cases h with
  | float => rfl
  | count n => rw [Toml.asDouble?, if_neg (Int.not_lt.2 (Int.natCast_nonneg n)), Int.natAbs_natCast]
  | negative n h => rw [Toml.asDouble?, if_pos (Int.neg_neg_of_pos (Int.natCast_pos.2 h)), Int.natAbs_neg,
      Int.natAbs_natCast]

theorem asWord32?_toNat (n : UInt32) : (Toml.integer n.toNat).asWord32? = some n := by
  have hbound : (0 : Int) ≤ n.toNat ∧ (n.toNat : Int) < UInt32.size :=
    ⟨Int.natCast_nonneg _, Int.ofNat_lt.2 n.toNat_lt_size⟩
  rw [Toml.asWord32?, if_pos hbound, Int.toNat_natCast, UInt32.ofNat_toNat]

theorem SaysTick.read? (h : SaysTick value t) : readTick? value = some t := by
  obtain ⟨origin, entries, length, thickness, rfl, hlength, hsays, hthickness, hsays'⟩ := h
  simp only [readTick?, Toml.asRecord?, hlength, hthickness, hsays.asDouble?, hsays'.asDouble?, Option.bind_eq_bind,
    Option.bind_some]

theorem mapM_eq_some {α β : Type} {read : α → Option β} {l : List α} {l' : List β}
    (h : List.Forall₂ (fun a b => read a = some b) l l') : l.mapM read = some l' := by
  induction h with
  | nil => rfl
  | cons h _ ih => rw [List.mapM_cons, h, ih]; rfl

theorem SaysStyle.read? (h : SaysStyle value s) : readStyle? value = some s := by
  obtain ⟨origin, entries, ticks, items, size, offset, rfl, hticks, hitems, hsays, hsize, hsays', hoffset, hsays''⟩ := h
  have hread : readTicks? ticks = some s.ticks := by
    have hlength : items.length = 4 := hsays.length_eq
    have htake : items.take 4 = items := by rw [← hlength, List.take_length]
    have hmap : items.mapM readTick? = some s.ticks.toList :=
      mapM_eq_some (List.Forall₂.imp (fun _ _ h => SaysTick.read? h) hsays)
    simp only [readTicks?, hitems, htake, hmap, Option.bind_eq_bind, Option.bind_some, Overlay.Tiers.ofList?_toList]
  simp only [readStyle?, Toml.asRecord?, hticks, hread, hsize, hoffset, hsays'.asDouble?, hsays''.asDouble?,
    Option.bind_eq_bind, Option.bind_some]

/-- A value that says the value of a key is read as that. -/
theorem Key.Says.ofToml? {k : Key} {v : k.Value} (h : k.Says value v) : k.ofToml? value = some v := by
  cases k with
  | resolution =>
    obtain rfl : value = .integer (UInt32.toNat v) := h
    exact asWord32?_toNat v
  | toolHeight => exact SaysDouble.asDouble? h
  | unitSystem =>
    obtain rfl : value = .string (Overlay.UnitSystem.name v) := h
    cases v <;> rfl
  | theme =>
    obtain rfl : value = .string (Overlay.Theme.name v) := h
    cases v <;> rfl
  | defaultSpan => exact SaysDouble.asDouble? h
  | metricStyle => exact SaysStyle.read? h
  | imperialStyle => exact SaysStyle.read? h

/-- **A document that holds a configuration for some keys** is read as the configuration for these and the standard
settings for the others. -/
theorem ofToml?_of_holdsOnly (h : HoldsOnly chosen c document) : ofToml? document = some (c.only chosen) := by
  obtain ⟨origin, entries, rfl, htables⟩ := h.tables
  -- A table that is absent is like one without fields.
  have hfields : ∀ table : Table, ∃ fields : Entries,
      table.fields? (.table origin entries) = some (fun name => lookup? name fields) ∧
        ∀ k : Key, k.table = table →
          if chosen k then ∃ value, lookup? k.name fields = some value ∧ k.Says value (k.get c)
          else lookup? k.name fields = none := by
    intro table
    obtain ⟨fields, hfound, hkeys⟩ := htables table
    refine ⟨fields, ?_, hkeys⟩
    show table.fieldsOf? (lookup? table.name entries) = _
    rcases hfound with ⟨habsent, rfl⟩ | ⟨origin', hfound⟩
    · rw [habsent]
      rfl
    · rw [hfound]
      rfl
  refine ofToml?_eq_some_iff.2 ⟨fun table => ?_, fun k => ?_⟩
  · obtain ⟨fields, hfields, -⟩ := hfields table
    rw [hfields, Option.isSome_some]
  · obtain ⟨fields, hfields, hkeys⟩ := hfields k.table
    have hkey := hkeys k rfl
    rw [Key.held?, hfields, Option.bind_some, only, get_ofKeys]
    show k.Means (lookup? k.name fields) _
    cases hchosen : chosen k with
    | true =>
      rw [hchosen, if_pos rfl] at hkey
      obtain ⟨value, hvalue, hsays⟩ := hkey
      rw [hvalue, if_pos rfl]
      exact hsays.ofToml?
    | false =>
      rw [hchosen, if_neg Bool.false_ne_true] at hkey
      rw [hkey, if_neg Bool.false_ne_true]
      rfl

end Reading

end SolidScript.Config
