import SolidScript.Document.Schema
import SolidScript.Overlay.Render

/-!
# Configuration

The settings that documents and overlays fall back on: the defaults of node parameters, and the unit system, theme,
default span and drawing dimensions of overlays. Named values from outside, such as environment variables, override
some of them one by one; a value that cannot be read changes nothing and gives a warning.
-/

namespace SolidScript

/-- What overlays fall back on. -/
structure OverlayDefaults where
  unitSystem : Overlay.UnitSystem
  theme : Overlay.Theme
  /-- The span of a range that has no length. -/
  defaultSpan : Float
  metricStyle : Overlay.Style
  imperialStyle : Overlay.Style

/-- The settings of a run. -/
structure Config where
  nodes : Options
  overlay : OverlayDefaults

namespace OverlayDefaults

/-- What holds without a configuration. -/
def standard : OverlayDefaults :=
  ⟨.metric, .light, Overlay.defaultSpan, .ofUnit .metric, .ofUnit .imperial⟩

/-- The drawing dimensions for a unit system. -/
def style (d : OverlayDefaults) : Overlay.UnitSystem → Overlay.Style
  | .metric => d.metricStyle
  | .imperial => d.imperialStyle

/-- The overlay of bounds, normalized. -/
def generate (d : OverlayDefaults) (b : Overlay.Bounds Float) (u : Overlay.UnitSystem) (theme : Overlay.Theme) :
    Overlay.Rendered :=
  Overlay.render (d.style u) u theme (b.normalize d.defaultSpan u)

end OverlayDefaults

namespace Config

/-- What holds without a configuration. -/
def standard : Config := ⟨Options.standard, OverlayDefaults.standard⟩

/-! ## Numeric equality -/

/-- Whether two styles have equal dimensions. -/
def sameStyle (s t : Overlay.Style) : Bool :=
  s.ticks.toList == t.ticks.toList && s.labelSize == t.labelSize && s.labelOffset == t.labelOffset

/-- Whether two configurations have equal settings; what is no number equals nothing. -/
def same (c d : Config) : Bool :=
  c.nodes.resolution == d.nodes.resolution && c.nodes.toolHeight == d.nodes.toolHeight
    && c.overlay.unitSystem == d.overlay.unitSystem && c.overlay.theme == d.overlay.theme
    && c.overlay.defaultSpan == d.overlay.defaultSpan && sameStyle c.overlay.metricStyle d.overlay.metricStyle
    && sameStyle c.overlay.imperialStyle d.overlay.imperialStyle

end Config
end SolidScript
