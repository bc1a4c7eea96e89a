import SolidScript.Config.Basic
import SolidScript.Decimal.Read

/-!
# Overrides

The environment variables that override settings, in the order in which they are examined.
-/

namespace SolidScript.Config

/-- A variable whose value cannot be read. -/
inductive Warning where
  | unit (error : Overlay.NameError)
  | theme (error : Overlay.NameError)
  | toolHeight (value : String)
  | resolution (value : String)
deriving DecidableEq, Repr

/-- The variable for the unit system. -/
def unitVariable : String := "SCADGEN_UNIT"

/-- The variable for the theme. -/
def themeVariable : String := "SCADGEN_THEME"

/-- The variable for the tool height. -/
def toolHeightVariable : String := "SCADGEN_TOOL_HEIGHT"

/-- The variable for the resolution. -/
def resolutionVariable : String := "SCADGEN_RESOLUTION"

/-- The text of a warning. -/
def Warning.message : Warning → String
  | .unit error => unitVariable ++ ": " ++ error.message
  | .theme error => themeVariable ++ ": " ++ error.message
  | .toolHeight value => toolHeightVariable ++ ": not a number: " ++ value
  | .resolution value => resolutionVariable ++ ": not an integer: " ++ value

/-- One setting overridden by the value of a variable, if it has one. -/
def overrideWith {ε α : Type} (value : Option String) (read : String → Except ε α) (set : α → Config → Config)
    (warning : ε → Warning) (c : Config) : Config × List Warning :=
  match value.map read with
  | none => (c, [])
  | some (.ok a) => (set a c, [])
  | some (.error e) => (c, [warning e])

/-- The value that a reader finds in a text, or the text itself. -/
def orText {α : Type} (read : String → Option α) (text : String) : Except String α :=
  match read text with
  | some a => .ok a
  | none => .error text

/-- The settings overridden by the variables that `lookup` finds, and a warning for each that cannot be read. -/
def override (lookup : String → Option String) (c : Config) : Config × List Warning :=
  let (c, w₁) := overrideWith (lookup unitVariable) Overlay.UnitSystem.ofName
    (fun u c => { c with overlay := { c.overlay with unitSystem := u } }) .unit c
  let (c, w₂) := overrideWith (lookup themeVariable) Overlay.Theme.ofName
    (fun t c => { c with overlay := { c.overlay with theme := t } }) .theme c
  let (c, w₃) := overrideWith (lookup toolHeightVariable) (orText Decimal.float?)
    (fun h c => { c with nodes := { c.nodes with toolHeight := h } }) .toolHeight c
  let (c, w₄) := overrideWith (lookup resolutionVariable) (orText (Decimal.natural? UInt32.size))
    (fun n c => { c with nodes := { c.nodes with resolution := UInt32.ofNat n } }) .resolution c
  (c, w₁ ++ w₂ ++ w₃ ++ w₄)

end SolidScript.Config
