import SolidScript.Decimal.Read
import Mathlib.Data.List.TakeDrop
import Mathlib.Tactic.Ring

/-!
# Runs of digits

The digits of a count are read as the count (`value_toDigits`), zeros behind a run multiply its value by powers of ten
and zeros in front of it do not change it. A run is cut off a text up to the first character that is no digit
(`split_append`).
-/

namespace SolidScript.Decimal.Digits

/-- A character of a class is none that is not in the class. -/
theorem ne_of_class {p : Char → Bool} {c d : Char} (hc : p c = true) (hd : p d = false) : c ≠ d := by
  rintro rfl
  exact Bool.false_ne_true (hd.symm.trans hc)

theorem isDigit_toDigits (n : Nat) : ∀ c ∈ Nat.toDigits 10 n, c.isDigit = true :=
  fun _ hc => Nat.isDigit_of_mem_toDigits (by decide) (by decide) hc

theorem isDigit_zeros (n : Nat) : ∀ c ∈ List.replicate n '0', c.isDigit = true := by
  intro c hc
  rw [List.eq_of_mem_replicate hc]
  decide

theorem isDigit_append {ds ds' : List Char} (h : ∀ c ∈ ds, c.isDigit = true) (h' : ∀ c ∈ ds', c.isDigit = true) :
    ∀ c ∈ ds ++ ds', c.isDigit = true := by
  intro c hc
  exact (List.mem_append.1 hc).elim (h c) (h' c)

/-! ## Values -/

theorem valueFrom_eq (ds : List Char) (start : Nat) : valueFrom start ds = Nat.ofDigitChars 10 ds start := by
  induction ds generalizing start with
  | nil => rfl
  | cons c rest ih => exact ih _

theorem valueFrom_append (ds ds' : List Char) (start : Nat) :
    valueFrom start (ds ++ ds') = valueFrom (valueFrom start ds) ds' := by
  simp only [valueFrom_eq, Nat.ofDigitChars_append]

theorem value_toDigits (n : Nat) : value (Nat.toDigits 10 n) = n := by
  rw [value, valueFrom_eq, Nat.ofDigitChars_ten_toDigits]

theorem valueFrom_zeros (start n : Nat) : valueFrom start (List.replicate n '0') = start * 10 ^ n := by
  induction n generalizing start with
  | zero => exact (Nat.mul_one start).symm
  | succ n ih =>
    rw [List.replicate_succ]
    show valueFrom (10 * start + 0) (List.replicate n '0') = _
    rw [ih]
    ring

theorem value_append_zeros (ds : List Char) (n : Nat) : value (ds ++ List.replicate n '0') = value ds * 10 ^ n := by
  rw [value, valueFrom_append, valueFrom_zeros]
  rfl

theorem value_zeros_append (n : Nat) (ds : List Char) : value (List.replicate n '0' ++ ds) = value ds := by
  rw [value, valueFrom_append, valueFrom_zeros, Nat.zero_mul]
  rfl

/-! ## Texts -/

/-- The digits of a positive count do not begin with a zero. -/
theorem head_toDigits {n : Nat} (h : 0 < n) : (Nat.toDigits 10 n).head? ≠ some '0' := by
  induction n using Nat.strongRecOn with
  | ind n ih =>
    rw [Nat.toDigits_eq_if (by decide)]
    split
    · next hlt =>
      have hdigits : ∀ d < 10, 0 < d → Nat.digitChar d ≠ '0' := by decide
      simpa using hdigits n hlt h
    · next hge =>
      have hfront := ih (n / 10) (Nat.div_lt_self h (by decide)) (Nat.div_pos (Nat.le_of_not_lt hge) (by decide))
      cases hdigits : Nat.toDigits 10 (n / 10) with
      | nil => exact absurd hdigits Nat.toDigits_ne_nil
      | cons c rest => rwa [hdigits] at hfront

/-- A run of characters with a property ends at the first without it. -/
theorem span_append {p : Char → Bool} {run rest : List Char} (hrun : ∀ c ∈ run, p c = true)
    (hrest : ∀ c ∈ rest.head?, p c = false) : (run ++ rest).span p = (run, rest) := by
  have hstop : rest.takeWhile p = [] ∧ rest.dropWhile p = rest := by
    cases rest with
    | nil => exact ⟨rfl, rfl⟩
    | cons c rest =>
      have hc : p c = false := hrest c rfl
      simp [hc]
  rw [List.span_eq_takeWhile_dropWhile, List.takeWhile_append_of_pos hrun, List.dropWhile_append_of_pos hrun,
    hstop.1, hstop.2, List.append_nil]

/-- A run ends at the first character that is no digit. -/
theorem split_append {ds rest : List Char} (hds : ∀ c ∈ ds, c.isDigit = true)
    (hrest : ∀ c ∈ rest.head?, c.isDigit = false) : split (ds ++ rest) = (ds, rest) :=
  span_append hds hrest

end SolidScript.Decimal.Digits
