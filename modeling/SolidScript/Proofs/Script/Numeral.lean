import SolidScript.Proofs.Decimal.Digits
import SolidScript.Proofs.Double.Whole
import SolidScript.Script.Number

/-!
# The text of measures

A measure is written with digits, a minus and a point, whatever the double is.

* `isFinite_rounded`: rounding to the places of a script does not leave the range of the doubles.
* `numerals_write`: so only finite doubles are laid out, and these have no other characters (`numerals_number`).
-/

namespace SolidScript.Script

open Double
open Decimal.Digits (isDigit_toDigits isDigit_zeros)

/-- Whether a character may stand in the text of a measure. -/
def isNumeral (c : Char) : Bool := c.isDigit || c == '-' || c == '.'

/-- A text of nothing but digits, minus and point. -/
def Numerals (text : String) : Prop := ∀ c ∈ text.toList, isNumeral c = true

namespace Numerals

theorem of_all {text : String} (h : text.toList.all isNumeral = true) : Numerals text := List.all_eq_true.1 h

theorem append {first second : String} (hfirst : Numerals first) (hsecond : Numerals second) :
    Numerals (first ++ second) := by
  intro c hc
  rw [String.toList_append, List.mem_append] at hc
  exact hc.elim (hfirst c) (hsecond c)

theorem ofList {chars : List Char} (h : ∀ c ∈ chars, c.isDigit = true) : Numerals (String.ofList chars) := by
  intro c hc
  rw [String.toList_ofList] at hc
  simp [isNumeral, h c hc]

theorem ite {p : Prop} [Decidable p] {first second : String} (hfirst : Numerals first) (hsecond : Numerals second) :
    Numerals (if p then first else second) := by
  split
  · exact hfirst
  · exact hsecond

end Numerals

/-! ## Layouts -/

theorem numerals_writePositional (wholeMark : Bool) (d : Decimal) : Numerals (Decimal.writePositional wholeMark d) := by
  have hdigits := isDigit_toDigits d.coefficient
  unfold Decimal.writePositional
  split
  · refine .append (.ofList fun c hc => ?_) (.ite (.of_all (by decide)) (.of_all (by decide)))
    exact (List.mem_append.1 hc).elim (hdigits c) (isDigit_zeros _ c)
  · refine .ite (.append (.append (.ofList fun c hc => ?_) (.of_all (by decide))) (.ofList fun c hc => ?_))
      (.append (.of_all (by decide)) (.ofList fun c hc => ?_))
    · exact hdigits c (List.mem_of_mem_take hc)
    · exact hdigits c (List.mem_of_mem_drop hc)
    · exact (List.mem_append.1 hc).elim (isDigit_zeros _ c) (hdigits c)

/-- A finite double is written without any word. -/
theorem numerals_write {x : Float} (hx : x.isFinite = true) : Numerals (Decimal.plain.write x) := by
  have hfinite : x.toModel.unpack.isFinite = true := hx
  have hsign : ∀ s, Numerals (if isNegative s then "-" else "") :=
    fun s => .ite (.of_all (by decide)) (.of_all (by decide))
  unfold Decimal.Layout.write
  split
  · rename_i h
    rw [h] at hfinite
    cases hfinite
  · rename_i h
    rw [h] at hfinite
    cases hfinite
  · exact .append (hsign _) (.of_all (by decide))
  · exact .append (hsign _) (numerals_writePositional _ _)

/-! ## Measures -/

theorem value_tenTo_places : (Scalar.tenTo places : Float).isFinite = true ∧
    value (Scalar.tenTo places) = 1000000 := by
  decide +kernel

/-- A finite double is written as a finite one. -/
theorem isFinite_rounded {x : Float} (hx : x.isFinite = true) : (rounded x).isFinite = true := by
  unfold rounded
  split
  · rename_i hscaled
    obtain ⟨hten, hvalue⟩ := value_tenTo_places
    have hround : (Double.round (x * Scalar.tenTo places)).isFinite = true := isFinite_roundWith hscaled _
    exact isFinite_div hround hten (by rw [hvalue]; norm_num)
  · exact hx

/-- **The text of a measure has digits, a minus and a point only.** -/
theorem numerals_number (x : Float) : Numerals (number x) := by
  unfold number
  split
  · rename_i hx
    exact .ite (.of_all (by decide)) (numerals_write (isFinite_rounded hx))
  · exact .of_all (by decide)

end SolidScript.Script
