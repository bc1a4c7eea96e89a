import SolidScript.Proofs.Decimal.Shortest

/-!
# The places of shortest decimals

The search for a shortest decimal misses nothing: a grid with a multiple in the rounding interval has a candidate
(`isSome_candidate?`), and the first grid with one is taken (`shortest_first`). So a double that a decimal of at most
six places is rounded to is written with no more places than that decimal has, and does not end in a zero behind the
point (`shortest_places`).
-/

namespace SolidScript.Decimal

open Double (unit unit_pos gap gap_pos Holds Canonical)

/-! ## Candidates -/

theorem gridScale_pos (q k : Int) : 0 < gridScale q k :=
  Nat.mul_pos (Nat.two_pow_pos _) (Nat.pow_pos (by decide))

theorem quarterScale_pos (q k : Int) : 0 < quarterScale q k :=
  Nat.mul_pos (Nat.two_pow_pos _) (Nat.pow_pos (by decide))

section Candidates

variable {tie : Tie} {m : Nat} {q k : Int} {b c : Nat}

/-- What lies between an admitted multiple and the value, on either side, is admitted. -/
theorem Admits.toward (h : Admits m q k c) (hm : 0 < m)
    (hbetween : c ≤ b ∧ b * gridScale q k ≤ 4 * m * quarterScale q k ∨
      b ≤ c ∧ 4 * m * quarterScale q k ≤ b * gridScale q k) : Admits m q k b := by
  have hquarter := quarterScale_pos q k
  have hlow : lowerEnd m q * quarterScale q k < 4 * m * quarterScale q k := by
    refine Nat.mul_lt_mul_of_pos_right ?_ hquarter
    unfold lowerEnd
    split <;> omega
  have hhigh : 4 * m * quarterScale q k < upperEnd m * quarterScale q k := by
    refine Nat.mul_lt_mul_of_pos_right ?_ hquarter
    unfold upperEnd
    omega
  have hpoint : c * gridScale q k ≤ b * gridScale q k ∧ b * gridScale q k ≤ 4 * m * quarterScale q k ∨
      b * gridScale q k ≤ c * gridScale q k ∧ 4 * m * quarterScale q k ≤ b * gridScale q k :=
    hbetween.imp (And.imp_left (Nat.mul_le_mul_right _)) (And.imp_left (Nat.mul_le_mul_right _))
  unfold Admits at h ⊢
  split at h
  · next heven =>
    rw [if_pos heven]
    omega
  · next hodd =>
    rw [if_neg hodd]
    omega

/-- **A grid with an admitted multiple has a candidate.** -/
theorem isSome_candidate? (h : Admits m q k c) (hm : 0 < m) : (candidate? tie m q k).isSome := by
  obtain ⟨below, hbelow⟩ : ∃ below, 4 * m * quarterScale q k / gridScale q k = below := ⟨_, rfl⟩
  have hle : below * gridScale q k ≤ 4 * m * quarterScale q k := by
    rw [← hbelow]
    exact Nat.div_mul_le_self _ _
  have hlt : 4 * m * quarterScale q k ≤ (below + 1) * gridScale q k := by
    have hnext := Nat.lt_mul_div_succ (4 * m * quarterScale q k) (gridScale_pos q k)
    rw [hbelow, Nat.mul_comm (gridScale q k)] at hnext
    exact hnext.le
  have hadmitted : Admits m q k below ∨ Admits m q k (below + 1) := by
    rcases Nat.lt_or_ge below c with hc | hc
    · exact .inr (h.toward hm (.inr ⟨hc, hlt⟩))
    · exact .inl (h.toward hm (.inl ⟨hc, hle⟩))
  simp only [candidate?, hbelow]
  split
  · split <;> rfl
  · rfl
  · rfl
  · next hno hno' => exact absurd hadmitted (not_or.2 ⟨of_decide_eq_false hno, of_decide_eq_false hno'⟩)

end Candidates

/-! ## The first grid with a candidate -/

/-- The first of some counts that has a value. -/
theorem findSome?_range {α : Type} {f : Nat → Option α} {a : α} : ∀ {n : Nat},
    (List.range n).findSome? f = some a → ∃ i < n, f i = some a ∧ ∀ j < i, f j = none
  | 0, h => nomatch h
  | n + 1, h => by
    rw [List.range_succ, List.findSome?_append] at h
    cases hrest : (List.range n).findSome? f with
    | some b =>
      rw [hrest] at h
      cases h
      obtain ⟨i, hi, hfound, hbefore⟩ := findSome?_range hrest
      exact ⟨i, Nat.lt_succ_of_lt hi, hfound, hbefore⟩
    | none =>
      rw [hrest, Option.none_or, List.findSome?_singleton] at h
      exact ⟨n, Nat.lt_succ_self n, h, fun j hj => List.findSome?_eq_none_iff.1 hrest j (List.mem_range.2 hj)⟩

/-- The decimal on a grid that is tried. -/
def tried (tie : Tie) (m : Nat) (q : Int) (i : Nat) : Option Decimal :=
  (candidate? tie m q (coarsest m q - i)).map (Decimal.mk · (coarsest m q - i))

theorem shortest_eq (tie : Tie) (m : Nat) (q : Int) :
    shortest tie m q = ((List.range gridCount).findSome? (tried tie m q)).getD (exact m q) := rfl

theorem exponent_of_tried {tie : Tie} {m : Nat} {q : Int} {i : Nat} {d : Decimal} (h : tried tie m q i = some d) :
    d.exponent = coarsest m q - i := by
  obtain ⟨_, -, rfl⟩ := Option.map_eq_some_iff.1 h
  rfl

section First

variable (tie : Tie) {m : Nat} (hm : 0 < m) {q k : Int} {c : Nat}

/-- The grid of a shortest decimal is one that is tried, unless it is the exact value. -/
theorem shortest_exponent (m : Nat) (q : Int) :
    (∃ i < gridCount, (shortest tie m q).exponent = coarsest m q - i) ∨ shortest tie m q = exact m q := by
  rw [shortest_eq]
  cases hhit : (List.range gridCount).findSome? (tried tie m q) with
  | none => exact .inr rfl
  | some d =>
    obtain ⟨i, hi, htried, -⟩ := findSome?_range hhit
    exact .inl ⟨i, hi, exponent_of_tried htried⟩

include hm

/-- **The first grid with a hit is taken**: one that is no finer than any that is tried and has a multiple in the
interval, while no coarser one that is tried has any. -/
theorem shortest_first (hhigh : k ≤ coarsest m q) (hlow : coarsest m q < k + gridCount) (h : Holds m q (c * 10 ^ k)) :
    k ≤ (shortest tie m q).exponent ∧ (shortest tie m q).exponent ≤ coarsest m q ∧
      ∀ j, (shortest tie m q).exponent < j → j ≤ coarsest m q → ∀ b : Nat, ¬ Holds m q (b * 10 ^ j) := by
  have hheld : ∀ {j : Int} {b : Nat} (i : Nat), j = coarsest m q - i → Holds m q (b * 10 ^ j) →
      (tried tie m q i).isSome := by
    rintro _ b i rfl hb
    rw [tried, Option.isSome_map]
    exact isSome_candidate? ((admits_iff hm).2 hb) hm
  obtain ⟨i, hi⟩ : ∃ i : Nat, k = coarsest m q - i := ⟨(coarsest m q - k).toNat, by omega⟩
  have hsome := hheld i hi h
  have hfound : ((List.range gridCount).findSome? (tried tie m q)).isSome :=
    List.findSome?_isSome_iff.2 ⟨i, List.mem_range.2 (by omega), hsome⟩
  obtain ⟨d, hd⟩ := Option.isSome_iff_exists.1 hfound
  obtain ⟨first, -, hfirst, hfront⟩ := findSome?_range hd
  rw [shortest_eq, hd, Option.getD_some, exponent_of_tried hfirst]
  refine ⟨?_, by omega, fun j hj hjhigh b hb => ?_⟩
  · by_contra hlt
    rw [hfront i (by omega)] at hsome
    cases hsome
  · have hmissed := hheld (coarsest m q - j).toNat (by omega) hb
    rw [hfront _ (by omega)] at hmissed
    cases hmissed

end First

/-! ## Places -/

/-- Sixteen is more than ten. -/
theorem unit_neg_le (p : Nat) : unit (-(4 * p : Nat)) ≤ 10 ^ (-(p : Int)) := by
  have hpow : (10 : Rat) ^ p ≤ 2 ^ (4 * p) := by
    rw [pow_mul]
    exact pow_le_pow_left₀ (by norm_num) (by norm_num) p
  rw [unit, zpow_neg, zpow_neg, zpow_natCast, zpow_natCast]
  exact inv_anti₀ (by positivity) hpow

section Magnitude

variable {m : Nat} {q : Int} {v : Rat}

/-- What is in the interval of a value is below the power of two above it. -/
theorem lt_unit_of_holds (h : Holds m q v) : v < unit (m.log2 + q + 1) := by
  have hunit := unit_pos q
  have hlog : m + 1 ≤ 2 ^ (m.log2 + 1) := Nat.lt_log2_self
  have hcast : (m : Rat) + 1 ≤ 2 ^ (m.log2 + 1) := by exact_mod_cast hlog
  have hmul := mul_le_mul_of_nonneg_right hcast hunit.le
  have hexponent : unit (m.log2 + q + 1) = 2 ^ (m.log2 + 1) * unit q := by
    rw [← Double.unit_add_natCast]
    congr 1
    push_cast
    ring
  have hupper := h.bounds.2
  rw [hexponent]
  linarith

variable (hm : 0 < m)
include hm

/-- A multiple of a power of ten in the interval is not zero. -/
theorem multiple_pos {k : Int} {c : Nat} (h : Holds m q (c * 10 ^ k)) : 0 < c :=
  coefficient_pos (d := ⟨c, k⟩) hm h

/-- A power of ten that has a multiple in the interval is below the power of two above it. -/
theorem pow_lt_unit {k : Int} {c : Nat} (h : Holds m q (c * 10 ^ k)) : (10 : Rat) ^ k < unit (m.log2 + q + 1) := by
  have hone : (1 : Rat) ≤ c := by exact_mod_cast multiple_pos hm h
  have hmul := mul_le_mul_of_nonneg_right hone (zpow_pos (by norm_num : (0 : Rat) < 10) k).le
  linarith [lt_unit_of_holds h]

/-- A multiple of so many places is not below the same number of hexadecimal ones. -/
theorem log2_bound {p c : Nat} (h : Holds m q (c * 10 ^ (-(p : Int)))) : -(4 * p : Nat) < (m.log2 + q + 1 : Int) := by
  by_contra hle
  exact absurd ((unit_neg_le p).trans_lt (pow_lt_unit hm h)) (not_lt.2 (Double.unit_le_unit (not_lt.1 hle)))

end Magnitude

/-- A whole number is a decimal of any number of places. -/
theorem holds_of_nonneg (m : Nat) {q : Int} (hq : 0 ≤ q) (p : Nat) :
    ∃ c : Nat, Holds m q (c * 10 ^ (-(p : Int))) := by
  obtain ⟨k, rfl⟩ := Int.eq_ofNat_of_zero_le hq
  have hvalue : ((m * 2 ^ k * 10 ^ p : Nat) : Rat) * 10 ^ (-(p : Int)) = m * unit k := by
    rw [zpow_neg, zpow_natCast, unit, zpow_natCast]
    push_cast
    field_simp
  refine ⟨m * 2 ^ k * 10 ^ p, ?_⟩
  rw [hvalue]
  exact Holds.self m k

section Places

variable (tie : Tie) {m : Nat} {q : Int} (h : Canonical m q) (hm : 0 < m)
include h hm

/-- A whole number is written without a fraction. -/
theorem shortest_of_nonneg (hq : 0 ≤ q) : 0 ≤ (shortest tie m q).exponent := by
  have hlog : 52 ≤ m.log2 := (Nat.le_log2 (by omega)).2 (h.lower.resolve_right (by omega))
  have hcoarsest : coarsest m q = ((m.log2 : Int) + q + 1) * 30103 / 100000 + 1 := rfl
  have hcount : (gridCount : Int) = 22 := rfl
  by_cases hnear : coarsest m q < 22
  · obtain ⟨c, hc⟩ := holds_of_nonneg m hq 0
    exact (shortest_first tie hm (by omega) (by omega) hc).1
  · rcases shortest_exponent tie m q with ⟨i, hi, hexponent⟩ | hexact
    · have hi' : i < 22 := hi
      omega
    · rw [hexact, exact, if_pos hq]

omit h hm in
/-- The exact value of a fraction, as a multiple of a power of ten. -/
theorem holds_exact (hq : q < 0) : Holds m q ((m * 5 ^ q.natAbs : Nat) * 10 ^ q) := by
  have hvalue := value_exact m q
  rw [exact, if_neg (not_le.2 hq)] at hvalue
  have hself := Holds.self m q
  rwa [← hvalue] at hself

/-- A fraction that a decimal of so many places is rounded to has a multiple on a grid that is tried. -/
theorem exists_grid {p c : Nat} (hp : p ≤ 6) (hq : q < 0) (hc : Holds m q (c * 10 ^ (-(p : Int)))) :
    ∃ (k : Int) (b : Nat), -(p : Int) ≤ k ∧ k ≤ coarsest m q ∧ coarsest m q < k + gridCount ∧
      Holds m q (b * 10 ^ k) := by
  have hcoarsest : coarsest m q = ((m.log2 : Int) + q + 1) * 30103 / 100000 + 1 := rfl
  have hcount : (gridCount : Int) = 22 := rfl
  have hlog : m.log2 ≤ 52 := Nat.lt_succ_iff.1 (Nat.log2_lt (by omega) |>.2 h.upper)
  by_cases hfine : q < -(p : Int)
  · have hbound := log2_bound hm hc
    exact ⟨-p, c, le_rfl, by omega, by omega, hc⟩
  · have hlong : 52 ≤ m.log2 := (Nat.le_log2 (by omega)).2 (h.lower.resolve_right (by omega))
    exact ⟨q, _, by omega, by omega, by omega, holds_exact hq⟩

omit h in
/-- The digits of a fraction do not end in a zero: without it there would be a hit on a coarser grid, and the coarsest
one is too coarse for two digits. -/
theorem last_digit_ne_zero (hneg : (shortest tie m q).exponent < 0) (hplaces : -6 ≤ (shortest tie m q).exponent)
    (hle : (shortest tie m q).exponent ≤ coarsest m q)
    (hnone : ∀ j, (shortest tie m q).exponent < j → j ≤ coarsest m q → ∀ b : Nat, ¬ Holds m q (b * 10 ^ j)) :
    (shortest tie m q).coefficient % 10 ≠ 0 := by
  intro hzero
  have hheld := shortest_holds tie hm q
  obtain ⟨e, he⟩ : ∃ e, (shortest tie m q).exponent = e := ⟨_, rfl⟩
  obtain ⟨b, hb⟩ := Nat.dvd_of_mod_eq_zero hzero
  have hvalue : (shortest tie m q).value = b * 10 ^ (e + 1) := by
    rw [value, hb, he, zpow_add_one₀ (by norm_num)]
    push_cast
    ring
  rw [he] at hneg hplaces hle hnone
  rw [hvalue] at hheld
  by_cases hcoarse : e + 1 ≤ coarsest m q
  · exact hnone _ (by omega) hcoarse b hheld
  · have hcoarsest : coarsest m q = ((m.log2 : Int) + q + 1) * 30103 / 100000 + 1 := rfl
    obtain ⟨p, hp⟩ : ∃ p : Nat, e + 1 = -p := ⟨(-(e + 1)).toNat, by omega⟩
    rw [hp] at hheld
    have hbound := log2_bound hm hheld
    omega

/-- **A double that a decimal of at most six places is rounded to is written with no more places**, and its digits do
not end in a zero behind the point. -/
theorem shortest_places {p c : Nat} (hp : p ≤ 6) (hc : Holds m q (c * 10 ^ (-(p : Int)))) :
    -(p : Int) ≤ (shortest tie m q).exponent ∧
      ((shortest tie m q).exponent < 0 → (shortest tie m q).coefficient % 10 ≠ 0) := by
  rcases le_or_gt 0 q with hq | hq
  · have hnonneg := shortest_of_nonneg tie h hm hq
    exact ⟨by omega, fun hneg => absurd hneg (by omega)⟩
  · obtain ⟨k, b, hk, hhigh, hlow, hb⟩ := exists_grid h hm hp hq hc
    obtain ⟨hge, hle, hnone⟩ := shortest_first tie hm hhigh hlow hb
    exact ⟨hk.trans hge, fun hneg => last_digit_ne_zero tie hm hneg (by omega) hle hnone⟩

end Places

end SolidScript.Decimal
