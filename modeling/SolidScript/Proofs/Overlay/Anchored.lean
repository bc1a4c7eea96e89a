import SolidScript.Config.Text
import SolidScript.Proofs.Double.Count
import SolidScript.Proofs.Overlay.Idempotent

/-!
# Anchored ranges

An overlay is drawn for ranges that are finite and reach the origin (`Range.Anchored`). A range that has a length is
moved to the origin, whatever the default span (`anchor_of_length`), and neither of its ends is then moved beyond the
doubles or past the origin. A range without a length gets the default span, of which nothing is asked when a
configuration is read. So the ranges of an overlay are anchored just if that span is finite and not below zero wherever
it is used (`OverlayDefaults.anchored_iff`), and a configuration that is read may turn a range around
(`OverlayDefaults.exists_not_anchored`).
-/

namespace SolidScript

theorem Double.le_iff_value_le {x y : Float} (hx : x.isFinite = true) (hy : y.isFinite = true) :
    x ≤ y ↔ value x ≤ value y := by
  rw [le_iff, Float.Model.UnpackedFloat.le, compare_eq_cmp hx hy, Option.any_some, Ordering.isLE_iff_ne_gt,
    cmp_eq_gt_iff, not_lt]

namespace Overlay

open Double

/-- A range of finite doubles that reaches the origin. -/
structure Range.Anchored (r : Range Float) : Prop where
  finite : r.min.isFinite = true ∧ r.max.isFinite = true
  origin : r.min ≤ 0 ∧ 0 ≤ r.max

/-- Whether a range gets the default span: its ends are equal, or its length is not within the range of the doubles. -/
def Range.lacksLength (r : Range Float) : Bool := r.min == r.max || !(r.max - r.min).isFinite

section Ranges

variable {r : Range Float} {u : UnitSystem} {span x : Float}

theorem anchor_without_length (h : r.lacksLength = true) (span : Float) : anchor span r = ⟨0, span⟩ := if_pos h

/-- The default span does not matter to a range that has a length. -/
theorem anchor_of_length (h : r.lacksLength = false) (span : Float) : anchor span r = anchor defaultSpan r := by
  have hlength : ¬ r.lacksLength = true := Bool.eq_false_iff.1 h
  exact (if_neg hlength).trans (if_neg hlength).symm

/-- The ends of a range around the origin are moved to those of an anchored one. -/
theorem Around.anchored_snapped (h : Around r) (u : UnitSystem) :
    Range.Anchored ⟨snapped u r.min, snapped u r.max⟩ := by
  obtain ⟨hmin, hmax⟩ := h.finite
  obtain ⟨hle, hge⟩ := h.origin
  obtain ⟨hzero, hvzero⟩ := value_zero
  have hfmin : (snapped u r.min).isFinite = true := isFinite_snapped hmin
  have hfmax : (snapped u r.max).isFinite = true := isFinite_snapped hmax
  refine ⟨⟨hfmin, hfmax⟩, ?_, ?_⟩
  · rw [le_iff_value_le hfmin hzero, hvzero]
    exact snapped_nonpos hmin hle
  · rw [le_iff_value_le hzero hfmax, hvzero]
    exact snapped_nonneg hmax hge

/-- What is not finite is not moved. -/
theorem isFinite_of_isFinite_snapped (h : (snapped u x).isFinite = true) : x.isFinite = true := by
  by_contra hx
  have hscaled : (x * u.precision).isFinite = false :=
    Bool.eq_false_iff.2 fun hscaled => hx (isFinite_of_mul hscaled).1
  rw [snapped_eq, hscaled] at h
  exact hx h

/-- A span from the origin is moved to an anchored range just if it is finite and not below zero. -/
theorem anchored_span_iff : Range.Anchored ⟨snapped u 0, snapped u span⟩ ↔ span.isFinite = true ∧ 0 ≤ span := by
  obtain ⟨hzero, hvzero⟩ := value_zero
  constructor
  · intro h
    have hspan := isFinite_of_isFinite_snapped h.finite.2
    refine ⟨hspan, ?_⟩
    have hmax := (le_iff_value_le hzero h.finite.2).1 h.origin.2
    rw [le_iff_value_le hzero hspan, hvzero]
    rw [hvzero] at hmax
    obtain ⟨-, hdown, -⟩ := snapped_side (u := u) hspan
    by_contra hneg
    exact absurd hmax (not_le.2 (hdown (not_le.1 hneg)))
  · rintro ⟨hspan, hnonneg⟩
    have hvalue := (le_iff_value_le hzero hspan).1 hnonneg
    rw [hvzero] at hvalue
    have hfmin : (snapped u 0).isFinite = true := isFinite_snapped hzero
    have hfmax : (snapped u span).isFinite = true := isFinite_snapped hspan
    refine ⟨⟨hfmin, hfmax⟩, ?_, ?_⟩
    · rw [le_iff_value_le hfmin hzero, hvzero]
      exact snapped_nonpos hzero hvzero.le
    · rw [le_iff_value_le hzero hfmax, hvzero]
      exact snapped_nonneg hspan hvalue

/-- **A normalized range is anchored** just if the default span, where it is used, is finite and not below zero. -/
theorem Range.anchored_normalize_iff (u : UnitSystem) (span : Float) (r : Range Float) :
    (r.normalize span u.increment u.precision).Anchored ↔
      (r.lacksLength = true → span.isFinite = true ∧ 0 ≤ span) := by
  have hnormalize : r.normalize span u.increment u.precision =
      ⟨snapped u (anchor span r).min, snapped u (anchor span r).max⟩ := rfl
  rw [hnormalize]
  cases hlength : r.lacksLength with
  | true => rw [anchor_without_length hlength, anchored_span_iff, eq_self, true_imp_iff]
  | false =>
    rw [anchor_of_length hlength]
    exact iff_of_true ((around_anchor r).anchored_snapped u) nofun

end Ranges

end Overlay

namespace OverlayDefaults

open Overlay

/-- **The ranges of an overlay are anchored** wherever a length is given, and elsewhere just if the default span is
finite and not below zero. -/
theorem anchored_iff (d : OverlayDefaults) (b : Bounds Float) (u : UnitSystem) (theme : Theme) :
    ∃ n : Bounds Float, d.generate b u theme = render (d.style u) u theme n ∧ n = b.normalize d.defaultSpan u ∧
      (n.x.Anchored ↔ (b.x.lacksLength = true → d.defaultSpan.isFinite = true ∧ 0 ≤ d.defaultSpan)) ∧
      (n.y.Anchored ↔ (b.y.lacksLength = true → d.defaultSpan.isFinite = true ∧ 0 ≤ d.defaultSpan)) ∧
      (n.z.Anchored ↔ (b.z.lacksLength = true → d.defaultSpan.isFinite = true ∧ 0 ≤ d.defaultSpan)) :=
  ⟨b.normalize d.defaultSpan u, rfl, rfl, b.x.anchored_normalize_iff u _, b.y.anchored_normalize_iff u _,
    b.z.anchored_normalize_iff u _⟩

/-- A configuration with a span below zero is read, and draws a range without a length the wrong way round. -/
theorem exists_not_anchored : ¬ ∀ (text : String) (c : Config) (b : Bounds Float) (u : UnitSystem),
    Config.read? text = some c → (b.normalize c.overlay.defaultSpan u).x.Anchored := by
  intro h
  have hspan : (Config.read? "[axis]\ndefault_span = -100.0\n").map (fun c => c.overlay.defaultSpan) = some (-100) := by
    decide +kernel
  obtain ⟨c, hread, hc⟩ := Option.map_eq_some_iff.1 hspan
  have hanchored := h _ c ⟨⟨5, 5⟩, ⟨5, 5⟩, ⟨5, 5⟩⟩ .metric hread
  rw [hc] at hanchored
  have hrange : ((⟨⟨5, 5⟩, ⟨5, 5⟩, ⟨5, 5⟩⟩ : Bounds Float).normalize (-100) .metric).x = ⟨0, -100⟩ := by
    decide +kernel
  rw [hrange] at hanchored
  exact absurd hanchored.origin.2 (by decide +kernel)

end OverlayDefaults
end SolidScript
