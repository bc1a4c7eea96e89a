import SolidScript.Proofs.Double.Rounding

/-!
# Values of doubles

A finite double has a rational value (`value`).

* A finite double is unpacked to the canonical significand and exponent of its value (`exists_assemble`), which are
  packed to the same bits again (`unpack_pack_assemble`).
* A canonical significand and exponent that are nearest to a value are packed to the double that the value is rounded
  to (`RoundsTo`, `roundsTo_packed`); `RoundsEven` tells also which of two nearest values it is.
* The order and the equality of finite doubles are those of their values (`lt_iff`, `beq_iff`), and only zero is the
  value of two doubles (`eq_of_value_eq`).
* The values that are rounded to finite doubles are those below a limit (`RoundsEven.isFinite_iff`).
-/

namespace SolidScript.Double

open Float.Model (Format UnpackedFloat totalExponent)
open Float.Model.UnpackedFloat

/-! ## Values -/

/-- One, with a sign. -/
def factor : Sign → Rat
  | .positive => 1
  | .negative => -1

theorem abs_factor (s : Sign) : |factor s| = 1 := by
  cases s <;> norm_num [factor]

theorem abs_factor_mul (s : Sign) (n : Nat) (t : Int) : |factor s * (n * unit t)| = n * unit t := by
  rw [abs_mul, abs_factor, one_mul, abs_of_nonneg (mul_nonneg (Nat.cast_nonneg n) (unit_pos t).le)]

theorem factor_mul (s₁ s₂ : Sign) : factor (s₁ * s₂) = factor s₁ * factor s₂ := by
  cases s₁ <;> cases s₂ <;> decide +kernel

theorem factor_div (s₁ s₂ : Sign) : factor (s₁ / s₂) = factor s₁ / factor s₂ := by
  cases s₁ <;> cases s₂ <;> decide +kernel

theorem factor_neg (s : Sign) : factor (-s) = -factor s := by
  cases s <;> decide +kernel

theorem factor_mul_self (s : Sign) (q : Rat) : factor s * (factor s * q) = q := by
  cases s <;> simp [factor]

theorem Nearest.factor_mul {v w : Rat} (h : Nearest v w) (s : Sign) : Nearest (factor s * v) (factor s * w) := by
  cases s with
  | positive => simpa [factor] using h
  | negative => simpa [factor] using h.neg

/-- The value of an unpacked double; zero for what is not finite. -/
def unpackedValue : UnpackedFloat → Rat
  | .finite sign m e _ => factor sign * (m * unit e)
  | _ => 0

/-- The value of a double; zero for what is not finite. -/
def value (x : Float) : Rat := unpackedValue x.toModel.unpack

theorem unpackedValue_assemble (s : Sign) (n : Nat) (t : Int) :
    unpackedValue (assemble s n t) = factor s * (n * unit t) := by
  unfold assemble
  split
  · next h => simp [h, unpackedValue]
  · rfl

theorem assemble_zero (s : Sign) (t : Int) : assemble s 0 t = .zero s := rfl

theorem assemble_pos (s : Sign) {n : Nat} (t : Int) (h : 0 < n) : assemble s n t = .finite s n t h :=
  dif_neg (Nat.ne_of_gt h)

/-! ## Bits of canonical values -/

theorem Canonical.zero : Canonical 0 (-1074) := ⟨by decide, le_rfl, .inr rfl⟩

theorem Canonical.representable {n : Nat} {t : Int} (h : Canonical n t) : Representable (n * unit t) := by
  have hn : |(n : Int)| ≤ 2 ^ 53 := by
    have hupper := h.upper
    rw [abs_of_nonneg (by omega)]
    omega
  exact_mod_cast Representable.mk hn h.least

/-- A canonical value is rounded to itself. -/
theorem Canonical.rounded {n : Nat} {t : Int} (h : Canonical n t) : Rounded (n * unit t) n t := by
  refine ⟨h, .self h.representable, fun f _ hne hle => absurd ?_ hne⟩
  rw [sub_self, abs_zero] at hle
  exact sub_eq_zero.1 (abs_nonpos_iff.1 hle)

theorem Rounded.zero : Rounded 0 0 (-1074) := by
  have hzero := Canonical.zero.rounded
  rwa [Nat.cast_zero, zero_mul] at hzero

theorem Canonical.isNormal {n : Nat} {t : Int} (h : Canonical n t) (hn : 2 ^ 52 ≤ n) (ht : t ≤ 971) : Normal n t :=
  ⟨hn, h.upper, h.least, ht⟩

/-- Packing a short significand at the least exponent and unpacking the bits gives it back. -/
theorem unpack_pack_short (s : Sign) {n : Nat} (h0 : 0 < n) (hn : n < 2 ^ 52) :
    unpack Format.binary64 (pack Format.binary64 (.finite s n (-1074) h0)) = .finite s n (-1074) h0 := by
  have hlog : n.log2 < 52 := (Nat.log2_lt (Nat.ne_of_gt h0)).2 hn
  have hbits : (BitVec.ofNat 52 n).toNat = n := by
    rw [BitVec.toNat_ofNat]
    omega
  have hmantissa : BitVec.ofNat 52 n ≠ 0#52 := by
    intro hzero
    rw [hzero] at hbits
    exact absurd hbits (by simpa using Nat.ne_of_lt h0)
  have hlength : ¬ n.log2 + 1 = Format.mantissaBits Format.binary64 := by
    show ¬ n.log2 + 1 = 53
    omega
  have hpacked : pack Format.binary64 (.finite s n (-1074) h0) =
      packComponents Format.binary64 s 0#11 (BitVec.ofNat 52 n) := by
    simp only [pack, if_neg hlength]
    rfl
  have hzero : (0#11 : BitVec 11) ≠ -1#11 := by decide
  rw [hpacked, unpack]
  simp only [unpackExponent_packComponents, unpackMantissa_packComponents, unpackSign_packComponents,
    Sign.ofBitVec_toBitVec, if_neg hzero, if_true, dif_neg hmantissa]
  congr 1

/-- Packing a canonical value within the range and unpacking the bits gives it back. -/
theorem unpack_pack_assemble (s : Sign) {n : Nat} {t : Int} (h : Canonical n t) (ht : t ≤ 971) :
    unpack Format.binary64 (pack Format.binary64 (assemble s n t)) = assemble s n t := by
  rcases Nat.eq_zero_or_pos n with rfl | h0
  · obtain rfl := h.lower.resolve_left (by decide)
    cases s <;> rfl
  · rw [assemble, dif_neg (Nat.ne_of_gt h0)]
    rcases Nat.lt_or_ge n (2 ^ 52) with hshort | hlong
    · obtain rfl := h.lower.resolve_left (by omega)
      exact unpack_pack_short s h0 hshort
    · exact (h.isNormal hlong ht).unpack_pack s

/-- A canonical value beyond the range is packed as an infinity. -/
theorem unpack_pack_overflow (s : Sign) {n : Nat} {t : Int} (h : Canonical n t) (ht : 971 < t) :
    unpack Format.binary64 (pack Format.binary64 (assemble s n t)) = .infinity s := by
  have h0 : n ≠ 0 := by
    rintro rfl
    have := h.lower
    omega
  have hout : 2 ^ 11 ≤ (t + (Format.binary64.exponentBias : Int) + (52 : Nat)).toNat + 1 := by
    show 2 ^ 11 ≤ (t + 1023 + 52).toNat + 1
    omega
  have hpacked : pack Format.binary64 (assemble s n t) = packedInfinity Format.binary64 s := by
    rw [assemble, dif_neg h0]
    exact if_pos hout
  rw [hpacked]
  cases s <;> rfl

/-- Unpacked bits are canonical, and within the range if they are finite. -/
theorem canonical_unpack (b : BitVec Format.binary64.numBits) (h : (unpack Format.binary64 b).isFinite = true) :
    ∃ s n t, Canonical n t ∧ t ≤ 971 ∧ unpack Format.binary64 b = assemble s n t := by
  obtain ⟨s, hs⟩ : ∃ s, Sign.ofBitVec (unpackSign b) = s := ⟨_, rfl⟩
  obtain ⟨m, hm⟩ : ∃ m : BitVec Format.binary64.mantissaBitsWithoutImplicit, unpackMantissa b = m := ⟨_, rfl⟩
  obtain ⟨e, he⟩ : ∃ e : BitVec Format.binary64.exponentBits, unpackExponent b = e := ⟨_, rfl⟩
  have hmlt : m.toNat < 2 ^ 52 := m.isLt
  have helt : e.toNat < 2 ^ 11 := e.isLt
  simp only [unpack, hs, hm, he] at h ⊢
  by_cases hones : e = -1#11
  · rw [if_pos hones] at h
    split at h <;> cases h
  · rw [if_neg hones]
    by_cases hzero : e = 0#11
    · rw [if_pos hzero]
      by_cases hm0 : m = 0#52
      · exact ⟨s, 0, -1074, .zero, by decide, by rw [dif_pos hm0]; rfl⟩
      · have hpos : m.toNat ≠ 0 := fun h0 => hm0 (BitVec.eq_of_toNat_eq h0)
        refine ⟨s, m.toNat, -1074, ⟨by omega, le_rfl, .inr rfl⟩, by decide, ?_⟩
        rw [dif_neg hm0, assemble, dif_neg hpos, hzero]
        rfl
    · rw [if_neg hzero]
      have he0 : e.toNat ≠ 0 := fun h0 => hzero (BitVec.eq_of_toNat_eq h0)
      have he1 : e.toNat ≠ 2047 := fun h1 => hones (BitVec.eq_of_toNat_eq h1)
      have happend : (1#1 ++ m).toNat = 2 ^ 52 + m.toNat := by
        rw [BitVec.toNat_append, ← Nat.shiftLeft_add_eq_or_of_lt hmlt]
        rfl
      refine ⟨s, (1#1 ++ m).toNat, e.toNat - 1075, ⟨by omega, by omega, .inl (by omega)⟩, by omega, ?_⟩
      rw [assemble, dif_neg (by omega)]
      rfl

/-- What a finite double is unpacked to. -/
theorem exists_assemble {x : Float} (h : x.isFinite = true) :
    ∃ s n t, Canonical n t ∧ t ≤ 971 ∧ x.toModel.unpack = assemble s n t :=
  canonical_unpack _ h

theorem exists_assemble_of_ne_zero {x : Float} (hx : x.isFinite = true) (h0 : value x ≠ 0) :
    ∃ s n t, 0 < n ∧ x.toModel.unpack = assemble s n t := by
  obtain ⟨s, n, t, -, -, hux⟩ := exists_assemble hx
  refine ⟨s, n, t, Nat.pos_of_ne_zero ?_, hux⟩
  rintro rfl
  rw [value, hux, unpackedValue_assemble] at h0
  simp at h0

/-! ## Rounding -/

/-- The double `x` is what the value `v` is rounded to; it is not finite if that is beyond the range. -/
def RoundsTo (v : Rat) (x : Float) : Prop :=
  ∃ w, Nearest v w ∧ if |w| < unit 1024 then x.isFinite = true ∧ value x = w else x.isFinite = false

/-- A canonical value is within the range just when its exponent is. -/
theorem Canonical.lt_limit_iff {n : Nat} {t : Int} (h : Canonical n t) : n * unit t < unit 1024 ↔ t ≤ 971 := by
  constructor
  · intro hlt
    by_contra ht
    have hn : (2 ^ 52 : Rat) ≤ n := by
      have hn := h.lower.resolve_right (by omega)
      exact_mod_cast hn
    have hbig : unit 1024 ≤ n * unit t := by
      calc unit 1024 = 2 ^ 52 * unit 972 := by rw [← unit_natCast, ← unit_add]; norm_num
        _ ≤ 2 ^ 52 * unit t := mul_le_mul_of_nonneg_left (unit_le_unit (by omega)) (by norm_num)
        _ ≤ n * unit t := mul_le_mul_of_nonneg_right hn (unit_pos t).le
    exact absurd hlt (not_lt.2 hbig)
  · intro ht
    have hn : (n : Rat) < 2 ^ 53 := by exact_mod_cast h.upper
    calc n * unit t < 2 ^ 53 * unit t := mul_lt_mul_of_pos_right hn (unit_pos t)
      _ ≤ 2 ^ 53 * unit 971 := mul_le_mul_of_nonneg_left (unit_le_unit ht) (by norm_num)
      _ = unit 1024 := by rw [← unit_natCast, ← unit_add]; norm_num

/-- The packed form of an unpacked double. -/
def packed (u : UnpackedFloat) : Float := Float.ofModel (Float.Model.pack u)

section Packed

variable {n : Nat} {t : Int} (s : Sign) (h : Canonical n t)
include h

theorem isFinite_packed : (packed (assemble s n t)).isFinite = decide (t ≤ 971) := by
  show (unpack Format.binary64 (pack Format.binary64 (assemble s n t))).isFinite = _
  by_cases ht : t ≤ 971
  · rw [unpack_pack_assemble s h ht, decide_eq_true ht, assemble]
    split <;> rfl
  · rw [unpack_pack_overflow s h (not_le.1 ht), decide_eq_false ht]
    rfl

theorem value_packed (ht : t ≤ 971) : value (packed (assemble s n t)) = factor s * (n * unit t) := by
  show unpackedValue (unpack Format.binary64 (pack Format.binary64 (assemble s n t))) = _
  rw [unpack_pack_assemble s h ht, unpackedValue_assemble]

theorem roundsTo_packed {v : Rat} (hv : Nearest v (factor s * (n * unit t))) :
    RoundsTo v (packed (assemble s n t)) := by
  refine ⟨_, hv, ?_⟩
  rw [abs_factor_mul, isFinite_packed s h]
  by_cases ht : t ≤ 971
  · rw [if_pos (h.lt_limit_iff.2 ht), decide_eq_true ht]
    exact ⟨rfl, value_packed s h ht⟩
  · rw [if_neg (mt h.lt_limit_iff.1 ht), decide_eq_false ht]

end Packed

/-- The double `x` is what the value `v` is rounded to, with its sign. Of two nearest values it has the one with an even
significand, so `v` tells all of it but the sign of a zero. -/
def RoundsEven (v : Rat) (x : Float) : Prop :=
  ∃ s n t, v = factor s * |v| ∧ Rounded |v| n t ∧ x = packed (assemble s n t)

theorem RoundsEven.mk {q : Rat} {n : Nat} {t : Int} (s : Sign) (hq : 0 ≤ q) (h : Rounded q n t) :
    RoundsEven (factor s * q) (packed (assemble s n t)) := by
  have habs : |factor s * q| = q := by rw [abs_mul, abs_factor, one_mul, abs_of_nonneg hq]
  refine ⟨s, n, t, ?_, ?_, rfl⟩
  · rw [habs]
  · rwa [habs]

theorem RoundsEven.roundsTo {v : Rat} {x : Float} (h : RoundsEven v x) : RoundsTo v x := by
  obtain ⟨s, n, t, hv, hrounded, rfl⟩ := h
  have hnearest := hrounded.nearest.factor_mul s
  rw [← hv] at hnearest
  exact roundsTo_packed s hrounded.canonical hnearest

/-! ## The range of the doubles -/

theorem representable_value (x : Float) : Representable (value x) := by
  by_cases hx : x.isFinite = true
  · obtain ⟨s, n, t, h, -, hux⟩ := exists_assemble hx
    have hself := (Nearest.self h.representable).factor_mul s
    rw [value, hux, unpackedValue_assemble]
    exact hself.representable
  · have hzero : value x = 0 := by
      have hnot : x.toModel.unpack.isFinite ≠ true := hx
      unfold value
      cases hux : x.toModel.unpack with
      | finite s n t h => rw [hux] at hnot; exact absurd rfl hnot
      | _ => rfl
    rw [hzero]
    exact .zero

/-- The values of doubles are within the range. -/
theorem abs_value_lt (x : Float) : |value x| < unit 1024 := by
  unfold value
  cases hux : x.toModel.unpack with
  | finite s n t h =>
    have hx : x.isFinite = true := by
      show x.toModel.unpack.isFinite = true
      rw [hux]
      rfl
    obtain ⟨s', n', t', h', ht', hux'⟩ := exists_assemble hx
    have hvalue := unpackedValue_assemble s' n' t'
    rw [← hux', hux] at hvalue
    rw [hvalue, abs_factor_mul]
    exact h'.lt_limit_iff.2 ht'
  | _ => simpa [unpackedValue] using unit_pos 1024

/-- The greatest value of a double. -/
def greatest : Rat := (2 ^ 53 - 1) * unit 971

theorem representable_greatest : Representable greatest :=
  ⟨2 ^ 53 - 1, 971, by norm_num, by norm_num, by norm_num [greatest]⟩

theorem greatest_add : greatest + unit 971 = unit 1024 := by
  have hunit : unit 1024 = unit 971 * unit 53 := by
    rw [← unit_add]
    norm_num
  have h53 : unit 53 = 2 ^ 53 := unit_natCast 53
  rw [greatest, hunit, h53]
  ring

theorem Canonical.le_greatest {n : Nat} {t : Int} (h : Canonical n t) (ht : t ≤ 971) : n * unit t ≤ greatest := by
  have hn : (n : Rat) ≤ 2 ^ 53 - 1 := by
    have hupper : n ≤ 2 ^ 53 - 1 := Nat.le_sub_one_of_lt h.upper
    have hcast : (n : Rat) ≤ ((2 ^ 53 - 1 : Nat) : Rat) := by exact_mod_cast hupper
    norm_num at hcast ⊢
    exact hcast
  calc n * unit t ≤ n * unit 971 := mul_le_mul_of_nonneg_left (unit_le_unit ht) (Nat.cast_nonneg n)
    _ ≤ greatest := mul_le_mul_of_nonneg_right hn (unit_pos 971).le

theorem abs_value_le_greatest {x : Float} (hx : x.isFinite = true) : |value x| ≤ greatest := by
  obtain ⟨s, n, t, h, ht, hux⟩ := exists_assemble hx
  rw [value, hux, unpackedValue_assemble, abs_factor_mul]
  exact h.le_greatest ht

namespace RoundsTo

variable {v : Rat} {x : Float}

theorem nearest (h : RoundsTo v x) (hx : x.isFinite = true) : Nearest v (value x) := by
  obtain ⟨w, hw, hcase⟩ := h
  by_cases hlt : |w| < unit 1024
  · rw [if_pos hlt] at hcase
    rwa [hcase.2]
  · rw [if_neg hlt, hx] at hcase
    cases hcase

/-- What is not greater than a value within the range is rounded to a finite double. -/
theorem isFinite_of_le {f : Rat} (h : RoundsTo v x) (hf : Representable f) (hlt : f < unit 1024) (hle : |v| ≤ f) :
    x.isFinite = true := by
  obtain ⟨w, hw, hcase⟩ := h
  rw [if_pos (lt_of_le_of_lt (hw.abs_le_of_le hf hle) hlt)] at hcase
  exact hcase.1

/-- What is not greater than a power of two within the range is rounded to a finite double that is not either. -/
theorem within {k : Int} (h : RoundsTo v x) (hlow : -1074 ≤ k) (hhigh : k ≤ 1023) (hle : |v| ≤ unit k) :
    x.isFinite = true ∧ |value x| ≤ unit k := by
  have hpower : Representable (unit k) := .of_unit hlow
  have hx := h.isFinite_of_le hpower (unit_lt_unit (by omega)) hle
  exact ⟨hx, (h.nearest hx).abs_le_of_le hpower hle⟩

/-- What is beyond the greatest value by less than half of its last place is rounded to a finite double. -/
theorem isFinite_of_le_add (h : RoundsTo v x) {δ : Rat} (hδ : 2 * δ < unit 971) (hle : |v| ≤ greatest + δ) :
    x.isFinite = true := by
  obtain ⟨w, hw, hcase⟩ := h
  have hlt : |w| < unit 1024 := by
    have hlimit := greatest_add
    have hunit := unit_pos 971
    rcases le_or_gt |v| greatest with hsmall | hlarge
    · have hle' := hw.abs_le_of_le representable_greatest hsmall
      linarith
    · have hnear := hw.abs_sub_le_of_le representable_greatest hlarge.le
      have htriangle : |w| - |v| ≤ |w - v| := abs_sub_abs_le_abs_sub w v
      linarith
  rw [if_pos hlt] at hcase
  exact hcase.1

/-- A representable value within the range is kept. -/
theorem exact (h : RoundsTo v x) (hv : Representable v) (hlt : |v| < unit 1024) : x.isFinite = true ∧ value x = v := by
  obtain ⟨w, hw, hcase⟩ := h
  obtain rfl := hw.eq_self hv
  rwa [if_pos hlt] at hcase

end RoundsTo

/-! ## Order -/

/-- A greater exponent makes a greater value. -/
theorem Canonical.lt_of_lt {n₁ n₂ : Nat} {t₁ t₂ : Int} (h₁ : Canonical n₁ t₁) (h₂ : Canonical n₂ t₂) (h : t₁ < t₂) :
    n₁ * unit t₁ < n₂ * unit t₂ := by
  have hleast := h₁.least
  have hn₁ : (n₁ : Rat) < 2 ^ 53 := by exact_mod_cast h₁.upper
  have hn₂ : (2 ^ 52 : Rat) ≤ n₂ := by
    have hn₂ := h₂.lower.resolve_right (by omega)
    exact_mod_cast hn₂
  have hunit : 2 * unit t₁ ≤ unit t₂ := by
    rw [← unit_succ]
    exact unit_le_unit (by omega)
  calc n₁ * unit t₁ < 2 ^ 53 * unit t₁ := mul_lt_mul_of_pos_right hn₁ (unit_pos t₁)
    _ = 2 ^ 52 * (2 * unit t₁) := by ring
    _ ≤ 2 ^ 52 * unit t₂ := mul_le_mul_of_nonneg_left hunit (by norm_num)
    _ ≤ n₂ * unit t₂ := mul_le_mul_of_nonneg_right hn₂ (unit_pos t₂).le

/-- Magnitudes are compared by the exponent, and then by the significand. -/
theorem compare_magnitudes {n₁ n₂ : Nat} {t₁ t₂ : Int} (h₁ : Canonical n₁ t₁) (h₂ : Canonical n₂ t₂) :
    (compare t₁ t₂).then (compare n₁ n₂) = cmp (n₁ * unit t₁) (n₂ * unit t₂) := by
  rcases lt_trichotomy t₁ t₂ with hlt | rfl | hgt
  · rw [Int.compare_eq_lt.2 hlt, (cmp_eq_lt_iff _ _).2 (h₁.lt_of_lt h₂ hlt)]
    rfl
  · rw [Int.compare_eq_eq.2 rfl, Ordering.eq_then]
    have hpos := unit_pos t₁
    rcases Nat.lt_trichotomy n₁ n₂ with hn | rfl | hn
    · have hcast : (n₁ : Rat) < n₂ := by exact_mod_cast hn
      rw [Nat.compare_eq_lt.2 hn, (cmp_eq_lt_iff _ _).2 (mul_lt_mul_of_pos_right hcast hpos)]
    · rw [Nat.compare_eq_eq.2 rfl, (cmp_eq_eq_iff _ _).2 rfl]
    · have hcast : (n₂ : Rat) < n₁ := by exact_mod_cast hn
      rw [Nat.compare_eq_gt.2 hn, (cmp_eq_gt_iff _ _).2 (mul_lt_mul_of_pos_right hcast hpos)]
  · rw [Int.compare_eq_gt.2 hgt, (cmp_eq_gt_iff _ _).2 (h₂.lt_of_lt h₁ hgt)]
    rfl

/-- A canonical significand and exponent are known by their value. -/
theorem Canonical.eq_of_eq {n₁ n₂ : Nat} {t₁ t₂ : Int} (h₁ : Canonical n₁ t₁) (h₂ : Canonical n₂ t₂)
    (h : n₁ * unit t₁ = n₂ * unit t₂) : n₁ = n₂ ∧ t₁ = t₂ := by
  have ht : t₁ = t₂ := by
    rcases lt_trichotomy t₁ t₂ with hlt | heq | hgt
    · exact absurd h (h₁.lt_of_lt h₂ hlt).ne
    · exact heq
    · exact absurd h (h₂.lt_of_lt h₁ hgt).ne'
  rw [ht] at h
  exact ⟨by exact_mod_cast mul_right_cancel₀ (unit_pos t₂).ne' h, ht⟩

theorem magnitude_pos {n : Nat} (h : 0 < n) (t : Int) : 0 < n * unit t :=
  mul_pos (by exact_mod_cast h) (unit_pos t)

/-- What a positive double is unpacked to. -/
theorem exists_assemble_pos {y : Float} (hy : y.isFinite = true) (hpos : 0 < value y) :
    ∃ n t, Canonical n t ∧ 0 < n ∧ y.toModel.unpack = assemble .positive n t ∧ value y = n * unit t := by
  obtain ⟨s, n, t, h, -, huy⟩ := exists_assemble hy
  have hvalue : value y = factor s * (n * unit t) := by rw [value, huy, unpackedValue_assemble]
  have hn : 0 < n := by
    rcases Nat.eq_zero_or_pos n with rfl | hn
    · simp [hvalue] at hpos
    · exact hn
  cases s with
  | positive => exact ⟨n, t, h, hn, huy, by rw [hvalue, factor, one_mul]⟩
  | negative =>
    have hmagnitude := magnitude_pos hn t
    simp only [factor] at hvalue
    linarith

theorem compare_assemble {n₁ n₂ : Nat} {t₁ t₂ : Int} (h₁ : Canonical n₁ t₁) (h₂ : Canonical n₂ t₂) (s₁ s₂ : Sign) :
    UnpackedFloat.compare (assemble s₁ n₁ t₁) (assemble s₂ n₂ t₂) =
      some (cmp (factor s₁ * (n₁ * unit t₁)) (factor s₂ * (n₂ * unit t₂))) := by
  rcases Nat.eq_zero_or_pos n₁ with rfl | hpos₁
  · rcases Nat.eq_zero_or_pos n₂ with rfl | hpos₂
    · simp [assemble_zero, UnpackedFloat.compare]
    · have hvalue := magnitude_pos hpos₂ t₂
      rw [assemble_zero, assemble_pos s₂ t₂ hpos₂, Nat.cast_zero, zero_mul, mul_zero]
      cases s₂ with
      | positive => rw [(cmp_eq_lt_iff _ _).2 (by simpa [factor] using hvalue)]; rfl
      | negative => rw [(cmp_eq_gt_iff _ _).2 (by simpa [factor] using hvalue)]; rfl
  · have hvalue₁ := magnitude_pos hpos₁ t₁
    rcases Nat.eq_zero_or_pos n₂ with rfl | hpos₂
    · rw [assemble_zero, assemble_pos s₁ t₁ hpos₁, Nat.cast_zero, zero_mul, mul_zero]
      cases s₁ with
      | positive => rw [(cmp_eq_gt_iff _ _).2 (by simpa [factor] using hvalue₁)]; rfl
      | negative => rw [(cmp_eq_lt_iff _ _).2 (by simpa [factor] using hvalue₁)]; rfl
    · have hvalue₂ := magnitude_pos hpos₂ t₂
      have hmagnitudes := compare_magnitudes h₁ h₂
      rw [assemble_pos s₁ t₁ hpos₁, assemble_pos s₂ t₂ hpos₂]
      cases s₁ with
      | positive =>
        cases s₂ with
        | positive => simp only [UnpackedFloat.compare, hmagnitudes, factor, one_mul]
        | negative => rw [(cmp_eq_gt_iff _ _).2 (by simp only [factor]; linarith)]; rfl
      | negative =>
        cases s₂ with
        | positive => rw [(cmp_eq_lt_iff _ _).2 (by simp only [factor]; linarith)]; rfl
        | negative =>
          simp only [UnpackedFloat.compare, hmagnitudes, cmp_swap, factor, neg_one_mul]
          rcases lt_trichotomy (n₁ * unit t₁) (n₂ * unit t₂) with hlt | heq | hgt
          · rw [(cmp_eq_gt_iff _ _).2 hlt, (cmp_eq_gt_iff _ _).2 (neg_lt_neg hlt)]
          · rw [heq, (cmp_eq_eq_iff _ _).2 rfl, (cmp_eq_eq_iff _ _).2 rfl]
          · rw [(cmp_eq_lt_iff _ _).2 hgt, (cmp_eq_lt_iff _ _).2 (neg_lt_neg hgt)]

theorem lt_iff_unpack {x y : Float} : x < y ↔ x.toModel.unpack.lt y.toModel.unpack = true := by
  show decide (x.toModel < y.toModel) = true ↔ _
  rw [decide_eq_true_iff]
  rfl

section Order

variable {x y : Float} (hx : x.isFinite = true) (hy : y.isFinite = true)
include hx hy

theorem compare_eq_cmp : x.toModel.unpack.compare y.toModel.unpack = some (cmp (value x) (value y)) := by
  obtain ⟨s₁, n₁, t₁, h₁, -, hux⟩ := exists_assemble hx
  obtain ⟨s₂, n₂, t₂, h₂, -, huy⟩ := exists_assemble hy
  rw [value, value, hux, huy, unpackedValue_assemble, unpackedValue_assemble]
  exact compare_assemble h₁ h₂ s₁ s₂

theorem lt_iff : x < y ↔ value x < value y := by
  rw [lt_iff_unpack, UnpackedFloat.lt, compare_eq_cmp hx hy, beq_iff_eq, Option.some.injEq, cmp_eq_lt_iff]

theorem beq_iff : (x == y) = true ↔ value x = value y := by
  have hdef : (x == y) = x.toModel.unpack.beq y.toModel.unpack := rfl
  rw [hdef, UnpackedFloat.beq, compare_eq_cmp hx hy, beq_iff_eq, Option.some.injEq, cmp_eq_eq_iff]

end Order

/-! ## The limit of the range -/

/-- The least magnitude that is rounded beyond the range: it lies half way from the greatest value, which is odd, to the
power of two above. -/
def limit : Rat := greatest + unit 970

theorem limit_add : limit + unit 970 = unit 1024 := by
  have hunit : unit 971 = 2 * unit 970 := unit_succ 970
  rw [← greatest_add, hunit, limit]
  ring

theorem Canonical.odd_greatest {n : Nat} {t : Int} (h : Canonical n t) (hn : n * unit t = greatest) : n % 2 = 1 := by
  have hgreatest : Canonical (2 ^ 53 - 1) 971 := ⟨by decide, by decide, .inl (by decide)⟩
  obtain ⟨rfl, -⟩ := h.eq_of_eq hgreatest (by rw [hn, greatest]; norm_num)
  decide

namespace Rounded

variable {v : Rat} {n : Nat} {t : Int} (h : Rounded v n t)
include h

theorem lt_limit (ht : t ≤ 971) : v < limit := by
  by_contra hlarge
  rw [not_lt] at hlarge
  have hadd := limit_add
  have hlimit : limit = greatest + unit 970 := rfl
  have hunit := unit_pos 970
  have hle := h.canonical.le_greatest ht
  have hpower : Representable (unit 1024) := .of_unit (by decide)
  have hbest := h.nearest.le _ hpower
  rw [abs_of_nonpos (by linarith : n * unit t - v ≤ 0)] at hbest
  rcases le_or_gt v (unit 1024) with hv | hv
  · -- Only the limit itself is as near to the greatest value as to the power of two, and it goes to the even one.
    rw [abs_of_nonneg (by linarith)] at hbest
    have hgreatest : n * unit t = greatest := le_antisymm hle (by linarith)
    have heven := h.even _ hpower (by linarith) <| by
      rw [abs_of_nonneg (by linarith), abs_of_nonpos (by linarith)]
      linarith
    have hodd := h.canonical.odd_greatest hgreatest
    omega
  · rw [abs_of_neg (by linarith)] at hbest
    linarith

theorem le_of_lt_limit (hv : v < limit) : t ≤ 971 := by
  refine h.canonical.lt_limit_iff.1 ?_
  have hadd := limit_add
  have hlimit : limit = greatest + unit 970 := rfl
  have hunit := unit_pos 970
  rcases le_or_gt v greatest with hsmall | hlarge
  · have hle := h.nearest.ge_of_ge representable_greatest hsmall
    linarith
  · have hbest := h.nearest.le _ representable_greatest
    rw [abs_sub_comm greatest, abs_of_pos (sub_pos.2 hlarge)] at hbest
    have hupper := (abs_le.1 hbest).2
    linarith

end Rounded

/-- **The values that are rounded to finite doubles are those within the limit.** -/
theorem RoundsEven.isFinite_iff {v : Rat} {x : Float} (h : RoundsEven v x) : x.isFinite = true ↔ |v| < limit := by
  obtain ⟨s, n, t, -, hrounded, rfl⟩ := h
  rw [isFinite_packed s hrounded.canonical, decide_eq_true_iff]
  exact ⟨hrounded.lt_limit, hrounded.le_of_lt_limit⟩

/-! ## One double for each value -/

/-- A double is the packed form of what it is unpacked to. -/
theorem packed_unpack (x : Float) : packed x.toModel.unpack = x := by
  obtain ⟨⟨bits, hvalid⟩⟩ := x
  have hpack : pack Format.binary64 (unpack Format.binary64 bits.toBitVec) = bits.toBitVec := by
    rw [pack_unpack]
    split
    · next hnan =>
      obtain ⟨hexponent, hmantissa⟩ := of_decide_eq_true hnan
      exact (hvalid.eq_packedNaN hexponent hmantissa).symm
    · rfl
  show Float.ofModel ⟨⟨pack Format.binary64 (unpack Format.binary64 bits.toBitVec)⟩, _⟩ = Float.ofModel ⟨bits, hvalid⟩
  congr 2
  rw [hpack]

/-- Finite doubles of one value are the same, but for the sign of zero. -/
theorem eq_of_value_eq {x y : Float} (hx : x.isFinite = true) (hy : y.isFinite = true) (h : value x = value y)
    (h0 : value x ≠ 0) : x = y := by
  obtain ⟨s₁, n₁, t₁, h₁, -, hux⟩ := exists_assemble hx
  obtain ⟨s₂, n₂, t₂, h₂, -, huy⟩ := exists_assemble hy
  have hvaluex : value x = factor s₁ * (n₁ * unit t₁) := by rw [value, hux, unpackedValue_assemble]
  have hvaluey : value y = factor s₂ * (n₂ * unit t₂) := by rw [value, huy, unpackedValue_assemble]
  have hmagnitude : (n₁ : Rat) * unit t₁ = n₂ * unit t₂ := by
    have habs : |value x| = |value y| := by rw [h]
    rwa [hvaluex, hvaluey, abs_factor_mul, abs_factor_mul] at habs
  obtain ⟨hn, ht⟩ := h₁.eq_of_eq h₂ hmagnitude
  have hs : s₁ = s₂ := by
    rw [hvaluex] at h0
    rw [hvaluex, hvaluey, hmagnitude] at h
    have hfactor : factor s₁ = factor s₂ := by
      refine mul_right_cancel₀ ?_ h
      rw [← hmagnitude]
      exact right_ne_zero_of_mul h0
    cases s₁ <;> cases s₂ <;> first | rfl | exact absurd hfactor (by norm_num [factor])
  rw [← packed_unpack x, ← packed_unpack y, hux, huy, hs, hn, ht]

end SolidScript.Double
