import SolidScript.Json.Record
import SolidScript.Overlay.Render

/-!
# Stored overlays

Settings and results of overlays as JSON values. Names are the exact ones, and no field may be left out.
-/

namespace SolidScript.Overlay

open Json (ofDouble asDouble? asRecord? asName?)

/-- Everything that one overlay needs. -/
structure Settings where
  unitSystem : UnitSystem
  theme : Theme
  bounds : Bounds Float

/-- A stored range. -/
def Range.toJson (r : Range Float) : Json := .object [("min", ofDouble r.min), ("max", ofDouble r.max)]

/-- Stored bounds. -/
def Bounds.toJson (b : Bounds Float) : Json :=
  .object [("x", b.x.toJson), ("y", b.y.toJson), ("z", b.z.toJson)]

/-- Stored settings. -/
def Settings.toJson (s : Settings) : Json :=
  .object [("unit_system", .string s.unitSystem.name), ("theme", .string s.theme.name), ("bounds", s.bounds.toJson)]

/-- The range that a value stores. -/
def Range.ofJson? (value : Json) : Option (Range Float) := do
  let record ← asRecord? ["min", "max"] value
  some ⟨← record.need? "min" asDouble?, ← record.need? "max" asDouble?⟩

/-- The bounds that a value stores. -/
def Bounds.ofJson? (value : Json) : Option (Bounds Float) := do
  let record ← asRecord? ["x", "y", "z"] value
  some ⟨← record.need? "x" Range.ofJson?, ← record.need? "y" Range.ofJson?, ← record.need? "z" Range.ofJson?⟩

/-- The settings that a value stores. -/
def Settings.ofJson? (value : Json) : Option Settings := do
  let record ← asRecord? ["unit_system", "theme", "bounds"] value
  let unitSystem ← record.need? "unit_system" fun name => (asName? name).bind UnitSystem.ofExactName?
  let theme ← record.need? "theme" fun name => (asName? name).bind Theme.ofExactName?
  some ⟨unitSystem, theme, ← record.need? "bounds" Bounds.ofJson?⟩

/-- The overlay of normalized bounds in the dimensions that suit the unit system. -/
def Settings.generate (s : Settings) : Rendered :=
  render (Style.ofUnit s.unitSystem) s.unitSystem s.theme (s.bounds.normalize defaultSpan s.unitSystem)

/-- A stored result. -/
def Rendered.toJson (r : Rendered) : Json :=
  .object [("script", .string r.script), ("module_name", .string r.moduleName), ("invocation", .string r.invocation),
    ("volume_linear", ofDouble r.volumeLinear), ("volume_scaled", ofDouble r.volumeScaled)]

end SolidScript.Overlay
