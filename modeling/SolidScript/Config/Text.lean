import SolidScript.Config.Basic
import SolidScript.Toml.Read

/-!
# Configuration files

A configuration is kept as a TOML document. `read?` takes what a document says and the standard settings for the rest;
unknown keys do not matter, but a drawing style has all of its dimensions or is refused. `write` says everything.
-/

namespace SolidScript.Config

/-- The decisions of the format about doubles: no exponent mark, and `.0` at the end of a whole number. -/
def numberLayout : Decimal.Layout := ⟨.up, none, true⟩

/-- The text of a double. -/
def writeDouble (x : Float) : String := if x.isNaN then "nan" else numberLayout.write x

/-! ## Writing -/

/-- A key and its value. -/
def entry (key value : String) : String := key ++ " = " ++ value ++ "\n"

/-- The lines of a style, as tables below its own. -/
def writeStyle (name : String) (s : Overlay.Style) : String :=
  "[axis." ++ name ++ "]\n" ++ entry "label_size" (writeDouble s.labelSize)
    ++ entry "label_offset" (writeDouble s.labelOffset)
    ++ String.join (s.ticks.toList.map fun tick =>
      "\n[[axis." ++ name ++ ".ticks]]\n" ++ entry "length" (writeDouble tick.length)
        ++ entry "thickness" (writeDouble tick.thickness))

/-- The document of a configuration. -/
def write (c : Config) : String :=
  "[nodes]\n" ++ entry "resolution" (Decimal.Digits.write c.nodes.resolution.toNat)
    ++ entry "tool_height" (writeDouble c.nodes.toolHeight)
    ++ "\n[axis]\n" ++ entry "unit_system" ("\"" ++ c.overlay.unitSystem.name ++ "\"")
    ++ entry "theme" ("\"" ++ c.overlay.theme.name ++ "\"")
    ++ entry "default_span" (writeDouble c.overlay.defaultSpan)
    ++ "\n" ++ writeStyle "metric_style" c.overlay.metricStyle
    ++ "\n" ++ writeStyle "imperial_style" c.overlay.imperialStyle

/-! ## Reading -/

/-- The value of a field, or what stands in for it if it is absent. -/
def orElse {α : Type} (field : Option Toml) (read : Toml → Option α) (standard : α) : Option α :=
  match field with
  | some value => read value
  | none => some standard

/-- The size of a tick mark. -/
def readTick? (value : Toml) : Option Overlay.Tick := do
  let field ← value.asRecord? ["length", "thickness"]
  some ⟨← (← field "length").asDouble?, ← (← field "thickness").asDouble?⟩

/-- The tick marks of the four grid spacings. What a list holds behind them does not matter. -/
def readTicks? (value : Toml) : Option (Overlay.Tiers Overlay.Tick) := do
  Overlay.Tiers.ofList? (← ((← value.items?).take 4).mapM readTick?)

/-- A style, with all of its dimensions. -/
def readStyle? (value : Toml) : Option Overlay.Style := do
  let field ← value.asRecord? ["ticks", "label_size", "label_offset"]
  some ⟨← readTicks? (← field "ticks"), ← (← field "label_size").asDouble?, ← (← field "label_offset").asDouble?⟩

/-- The defaults of node parameters. -/
def readNodes? (value : Toml) : Option Options := do
  let field ← value.asRecord? ["resolution", "tool_height"]
  some ⟨← orElse (field "resolution") Toml.asWord32? Options.standard.resolution,
    ← orElse (field "tool_height") Toml.asDouble? Options.standard.toolHeight⟩

/-- The defaults of overlays. -/
def readOverlay? (value : Toml) : Option OverlayDefaults := do
  let standard := OverlayDefaults.standard
  let field ← value.asRecord? ["unit_system", "theme", "default_span", "metric_style", "imperial_style"]
  some {
    unitSystem := ← orElse (field "unit_system") (fun v => v.asName?.bind Overlay.UnitSystem.ofExactName?)
      standard.unitSystem
    theme := ← orElse (field "theme") (fun v => v.asName?.bind Overlay.Theme.ofExactName?) standard.theme
    defaultSpan := ← orElse (field "default_span") Toml.asDouble? standard.defaultSpan
    metricStyle := ← orElse (field "metric_style") readStyle? standard.metricStyle
    imperialStyle := ← orElse (field "imperial_style") readStyle? standard.imperialStyle }

/-- The configuration that a document says. -/
def ofToml? (document : Toml) : Option Config := do
  let field ← document.asRecord? ["nodes", "axis"]
  some ⟨← orElse (field "nodes") readNodes? Options.standard,
    ← orElse (field "axis") readOverlay? OverlayDefaults.standard⟩

/-- The configuration of a text. -/
def read? (text : String) : Option Config := (Toml.read? text).bind ofToml?

end SolidScript.Config
