import SolidScript.Json.Record
import SolidScript.Proofs.Double.Count

/-!
# Encoding values

`encode` writes the value of a parameter as the plainest JSON value that is coerced to it: a measure as a number, a
vector as a list, a matrix as four rows. Only an index can be too large for that, since coercion stops at 32 bits.

* `value?_encode`: a value whose indices fit is coerced to itself.
-/

namespace SolidScript

/-- Whether a 64-bit index is a 32-bit one. -/
def IndexFits (i : UInt64) : Prop := i.toNat ≤ 4294967295

/-- Whether all indices of lists fit. -/
def IndicesFit (lists : List (List UInt64)) : Prop := ∀ list ∈ lists, ∀ i ∈ list, IndexFits i

instance (i : UInt64) : Decidable (IndexFits i) := Nat.decLe _ _

instance (lists : List (List UInt64)) : Decidable (IndicesFit lists) :=
  @List.decidableBAll _ (fun list => ∀ i ∈ list, IndexFits i) (fun list => List.decidableBAll IndexFits list) lists

/-- Whether the indices that a value holds fit. -/
def Value.Fits : Value → Prop
  | ⟨.indices, lists⟩ => IndicesFit lists
  | _ => True

namespace Json

/-- A rotation angle, or three. -/
def ofTurn : Turn → Json
  | .single degrees => ofDouble degrees
  | .euler angles => ofVec3 angles

/-- A value of a parameter; the nodes of a list are given as documents. -/
def encode (documents : List Json) : Value → Json
  | ⟨.number, x⟩ => ofDouble x
  | ⟨.integer, n⟩ => ofWord32 n
  | ⟨.boolean, b⟩ => .bool b
  | ⟨.text, s⟩ => .string s
  | ⟨.vector2, v⟩ => ofVec2 v
  | ⟨.vector3, v⟩ => ofVec3 v
  | ⟨.flags3, v⟩ => .array (v.toList.map Json.bool)
  | ⟨.angle, turn⟩ => ofTurn turn
  | ⟨.points2, points⟩ => .array (points.map ofVec2)
  | ⟨.points3, points⟩ => .array (points.map ofVec3)
  | ⟨.indices, lists⟩ => ofIndices lists
  | ⟨.matrix, m⟩ => .array (m.rows.map fun row => .array (row.map ofDouble))
  | ⟨.nodes, _⟩ => .array documents

end Json

namespace Coerce

open Json (ofDouble ofVec2 ofVec3 ofWord32 ofTurn ofIndices encode)

/-- Items that are each read back make a list that is. -/
theorem mapM_map_eq_some {α β : Type} {write : α → β} {read? : β → Option α} {items : List α}
    (h : ∀ a ∈ items, read? (write a) = some a) : (items.map write).mapM read? = some items := by
  induction items with
  | nil => rfl
  | cons a rest ih =>
    have hrest := ih fun b hb => h b (List.mem_cons_of_mem _ hb)
    rw [List.map_cons, List.mapM_cons, h a List.mem_cons_self, hrest]
    rfl

theorem number?_ofDouble (x : Float) : number? (ofDouble x) = some x := rfl

theorem integer?_ofWord32 (n : UInt32) : integer? (ofWord32 n) = some n := integer?_ofNat n

theorem numbers?_ofDouble (xs : List Float) : numbers? (.array (xs.map ofDouble)) = some xs :=
  mapM_map_eq_some fun x _ => number?_ofDouble x

theorem point2?_ofVec2 (v : Vec2 Float) : point2? (ofVec2 v) = some v := by
  rw [point2?, ofVec2, numbers?_ofDouble]
  rfl

theorem point3?_ofVec3 (v : Vec3 Float) : point3? (ofVec3 v) = some v := by
  rw [point3?, ofVec3, numbers?_ofDouble]
  rfl

/-- A list is no number, so it does not stand for all entries of a vector. -/
theorem vector2?_ofVec2 (v : Vec2 Float) : vector2? (ofVec2 v) = some v := by
  rw [vector2?, point2?_ofVec2]
  rfl

theorem vector3?_ofVec3 (v : Vec3 Float) : vector3? (ofVec3 v) = some v := by
  rw [vector3?, point3?_ofVec3]
  rfl

theorem flags3?_bools (v : Vec3 Bool) : flags3? (.array (v.toList.map Json.bool)) = some v := rfl

theorem turn?_ofTurn : ∀ turn : Turn, turn? (ofTurn turn) = some turn
  | .single _ => rfl
  | .euler angles => by
    rw [turn?, ofTurn, point3?_ofVec3]
    rfl

/-- An index that fits is coerced through 32 bits and back. -/
theorem index?_ofNat {i : UInt64} (h : IndexFits i) : (integer? (.ofNat i.toNat)).map UInt32.toUInt64 = some i := by
  have hlt : i.toNat < UInt32.size := Nat.lt_succ_of_le h
  have hword : i.toUInt32.toNat = i.toNat := by
    rw [UInt64.toNat_toUInt32, Nat.mod_eq_of_lt hlt]
  rw [← hword, integer?_ofNat, Option.map_some]
  refine congrArg some (UInt64.toNat_inj.1 ?_)
  rw [UInt32.toNat_toUInt64, hword]

theorem indices?_ofIndices {lists : List (List UInt64)} (h : IndicesFit lists) :
    indices? (ofIndices lists) = some lists :=
  mapM_map_eq_some fun list hlist => mapM_map_eq_some fun i hi => index?_ofNat (h list hlist i hi)

theorem row?_row (m : Matrix4 Float) (r : Fin 4) :
    row? (.array ((m.row r).map ofDouble)) = some (m.cell r) := by
  rw [row?, numbers?_ofDouble]
  refine congrArg some (funext fun c => ?_)
  match c with
  | 0 | 1 | 2 | 3 => rfl

theorem matrix?_rows (m : Matrix4 Float) :
    matrix? (.array (m.rows.map fun row => .array (row.map ofDouble))) = some m := by
  have hrows : (m.rows.map fun row => Json.array (row.map ofDouble)).mapM row? =
      some [m.cell 0, m.cell 1, m.cell 2, m.cell 3] := by
    show [Json.array ((m.row 0).map ofDouble), Json.array ((m.row 1).map ofDouble),
      Json.array ((m.row 2).map ofDouble), Json.array ((m.row 3).map ofDouble)].mapM row? = _
    simp only [List.mapM_cons, row?_row]
    rfl
  show ((m.rows.map fun row => Json.array (row.map ofDouble)).mapM row?).bind Matrix4.ofRows? = some m
  rw [hrows]
  refine congrArg (some ∘ Matrix4.mk) (funext fun r => ?_)
  match r with
  | 0 | 1 | 2 | 3 => rfl

/-- **A value is coerced to itself** if its indices fit. -/
theorem value?_encode (documents : List Json) : ∀ {t : ParamType} {content : t.Carrier}, t ≠ .nodes →
    Value.Fits ⟨t, content⟩ → value? t (encode documents ⟨t, content⟩) = some content
  | .number, x, _, _ => number?_ofDouble x
  | .integer, n, _, _ => integer?_ofWord32 n
  | .boolean, _, _, _ => rfl
  | .text, _, _, _ => rfl
  | .vector2, v, _, _ => vector2?_ofVec2 v
  | .vector3, v, _, _ => vector3?_ofVec3 v
  | .flags3, v, _, _ => flags3?_bools v
  | .angle, turn, _, _ => turn?_ofTurn turn
  | .points2, _, _, _ => mapM_map_eq_some fun v _ => point2?_ofVec2 v
  | .points3, _, _, _ => mapM_map_eq_some fun v _ => point3?_ofVec3 v
  | .indices, _, _, h => indices?_ofIndices h
  | .matrix, m, _, _ => matrix?_rows m
  | .nodes, _, h, _ => absurd rfl h

end Coerce
end SolidScript
