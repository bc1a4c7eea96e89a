import SolidScript.Proofs.Double.Whole

/-!
# Signs of doubles

A value tells all of a finite double but the sign of a zero. `HasSign` gives a finite double its sign, so that sign and
value together tell all of it (`HasSign.eq_of_value_eq`).

* A magnitude is positive (`hasSign_abs`), a product has the product of the signs and a quotient their quotient
  (`HasSign.mul`, `HasSign.div`), also where the result is a zero.
* So a factor or a divisor of one changes nothing (`HasSign.mul_ofNat_one`, `HasSign.div_ofNat_one`).
* Rounding to a whole number keeps the sign, also of what becomes a zero (`HasSign.round`).
-/

namespace SolidScript.Double

open Float.Model (Format UnpackedFloat)
open Float.Model.UnpackedFloat

/-- A finite double with a sign, which zeros have too. -/
def HasSign (s : Sign) (x : Float) : Prop := ∃ n t, Canonical n t ∧ t ≤ 971 ∧ x.toModel.unpack = assemble s n t

theorem hasSign_packed (s : Sign) {n : Nat} {t : Int} (h : Canonical n t) (ht : t ≤ 971) :
    HasSign s (packed (assemble s n t)) :=
  ⟨n, t, h, ht, unpack_pack_assemble s h ht⟩

/-- The magnitude of a finite double has its parts, but for the sign. -/
theorem abs_eq_packed {x : Float} (hx : x.isFinite = true) : ∃ s n t, Canonical n t ∧ t ≤ 971 ∧
    x.toModel.unpack = assemble s n t ∧ x.abs = packed (assemble .positive n t) := by
  obtain ⟨s, n, t, h, ht, hux⟩ := exists_assemble hx
  refine ⟨s, n, t, h, ht, hux, ?_⟩
  show packed x.toModel.unpack.abs = _
  rw [hux]
  congr 1
  unfold assemble
  split <;> rfl

theorem hasSign_abs {x : Float} (hx : x.isFinite = true) : HasSign .positive x.abs := by
  obtain ⟨-, n, t, h, ht, -, habs⟩ := abs_eq_packed hx
  rw [habs]
  exact hasSign_packed .positive h ht

theorem value_abs {x : Float} (hx : x.isFinite = true) : value x.abs = |value x| := by
  obtain ⟨s, n, t, h, ht, hux, habs⟩ := abs_eq_packed hx
  rw [habs, value_packed _ h ht, value, hux, unpackedValue_assemble, abs_factor_mul, factor, one_mul]

/-- The double of a count is positive, and so is its zero. -/
theorem hasSign_ofNat {n : Nat} (h : n < 2 ^ 53) : HasSign .positive (Float.ofNat n) := by
  rcases Nat.eq_zero_or_pos n with rfl | h0
  · exact ⟨0, -1074, .zero, by decide, ofNat_zero⟩
  · have hnormal := normal_count h0 h
    refine ⟨n * 2 ^ lift n, -(lift n : Int), ⟨hnormal.upper, hnormal.least, .inl hnormal.lower⟩, by omega, ?_⟩
    rw [unpack_ofNat h0 h, assemble_pos .positive _ hnormal.pos]

namespace HasSign

variable {s s' : Sign} {x y : Float}

theorem isFinite (h : HasSign s x) : x.isFinite = true := by
  obtain ⟨n, t, hcanonical, ht, hux⟩ := h
  rw [← packed_unpack x, hux, isFinite_packed s hcanonical, decide_eq_true ht]

/-- Sign and value tell all of a finite double. -/
theorem eq_of_value_eq (hx : HasSign s x) (hy : HasSign s y) (h : value x = value y) : x = y := by
  obtain ⟨m, t, hm, -, hux⟩ := hx
  obtain ⟨n, u, hn, -, huy⟩ := hy
  rw [value, value, hux, huy, unpackedValue_assemble, unpackedValue_assemble] at h
  have hmagnitude : m * unit t = n * unit u := by rw [← factor_mul_self s (m * unit t), h, factor_mul_self]
  obtain ⟨rfl, rfl⟩ := hm.eq_of_eq hn hmagnitude
  rw [← packed_unpack x, ← packed_unpack y, hux, huy]

/-! ## Products and quotients -/

theorem mul (hx : HasSign s x) (hy : HasSign s' y) (hfinite : (x * y).isFinite = true) : HasSign (s * s') (x * y) := by
  obtain ⟨m, t, hm, -, hux⟩ := hx
  obtain ⟨n, u, hn, -, huy⟩ := hy
  obtain ⟨k, v, hrounded, hproduct⟩ := mul_assemble hm hn
  have hresult : x * y = packed (assemble (s * s') k v) := by
    rw [← hproduct, ← hux, ← huy]
    rfl
  rw [hresult, isFinite_packed _ hrounded.canonical] at hfinite
  rw [hresult]
  exact hasSign_packed _ hrounded.canonical (of_decide_eq_true hfinite)

theorem div (hx : HasSign s x) (hy : HasSign s' y) (h0 : value y ≠ 0) (hfinite : (x / y).isFinite = true) :
    HasSign (s / s') (x / y) := by
  obtain ⟨m, t, -, -, hux⟩ := hx
  obtain ⟨n, u, -, -, huy⟩ := hy
  have hpos : 0 < n := by
    refine Nat.pos_of_ne_zero ?_
    rintro rfl
    rw [value, huy, unpackedValue_assemble] at h0
    simp at h0
  obtain ⟨k, v, hrounded, hquotient⟩ := @div_assemble m n t u hpos
  have hresult : x / y = packed (assemble (s / s') k v) := by
    rw [← hquotient, ← hux, ← huy]
    rfl
  rw [hresult, isFinite_packed _ hrounded.canonical] at hfinite
  rw [hresult]
  exact hasSign_packed _ hrounded.canonical (of_decide_eq_true hfinite)

theorem mul_ofNat_one (hx : HasSign s x) : x * Float.ofNat 1 = x := by
  have hone : HasSign .positive (Float.ofNat 1) := hasSign_ofNat (by decide)
  have hrounds := mul_rounds hx.isFinite hone.isFinite
  rw [value_ofNat (by decide), Nat.cast_one, mul_one] at hrounds
  obtain ⟨hfinite, hvalue⟩ := hrounds.exact (representable_value x) (abs_value_lt x)
  have hsign := hx.mul hone hfinite
  rw [show s * .positive = s by cases s <;> rfl] at hsign
  exact hsign.eq_of_value_eq hx hvalue

theorem div_ofNat_one (hx : HasSign s x) : x / Float.ofNat 1 = x := by
  have hone : HasSign .positive (Float.ofNat 1) := hasSign_ofNat (by decide)
  have hvone : value (Float.ofNat 1) = 1 := value_ofNat (by decide)
  have h0 : value (Float.ofNat 1) ≠ 0 := by rw [hvone]; exact one_ne_zero
  have hrounds := div_rounds hx.isFinite hone.isFinite h0
  rw [hvone, div_one] at hrounds
  obtain ⟨hfinite, hvalue⟩ := hrounds.exact (representable_value x) (abs_value_lt x)
  have hsign := hx.div hone h0 hfinite
  rw [show s / .positive = s by cases s <;> rfl] at hsign
  exact hsign.eq_of_value_eq hx hvalue

/-! ## Whole numbers -/

theorem roundWith (rule : Bool → Nat → Nat → Bool) (hx : HasSign s x) : HasSign s (roundWith rule x) := by
  obtain ⟨m, t, hm, ht, hux⟩ := hx
  rcases roundWith_of_unpack rule hm hux with ⟨hkeep, -⟩ | ⟨k, n, -, -, hle, -, hround⟩
  · rw [hkeep]
    exact ⟨m, t, hm, ht, hux⟩
  · obtain ⟨hrepresentable, hlt⟩ := representable_count hle
    obtain ⟨c, u, hc, hu, -, hpacked⟩ := ofScaled_eq_packed (isNegative s) hrepresentable hlt
    rw [hround, hpacked, signOf_isNegative]
    exact hasSign_packed s hc hu

theorem round (hx : HasSign s x) : HasSign s (Double.round x) := hx.roundWith _

end HasSign

end SolidScript.Double
