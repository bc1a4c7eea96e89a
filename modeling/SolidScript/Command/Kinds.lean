import SolidScript.Document.Schema
import SolidScript.Json.Write

/-!
# Listing kinds

The table of all kinds with their categories, and the table of the parameters of one kind.
-/

namespace SolidScript

/-- The text of a list: items between square brackets. -/
def listText (items : List String) : String := "[" ++ ", ".intercalate items ++ "]"

namespace Default

/-- The value in a table of parameters. -/
def describe {t : ParamType} : Default t → String
  | .number x => "Number(" ++ Json.numberLayout.write x ++ ")"
  | .integer n => "Integer(" ++ Decimal.Digits.write n.toNat ++ ")"
  | .boolean b => "Boolean(" ++ (if b then "true" else "false") ++ ")"
  | .text s => "Text(" ++ Json.writeString s ++ ")"
  | .vector3 v => "Vector3(" ++ listText (v.toList.map Json.numberLayout.write) ++ ")"
  | .flags3 v => "Flags3(" ++ listText (v.toList.map fun b => if b then "true" else "false") ++ ")"
  | .noNodes => "NoNodes"
  | .resolution => "Resolution"
  | .toolHeight => "ToolHeight"

end Default

/-- What stands in for a parameter, in a table of parameters. -/
def Presence.describe {t : ParamType} : Presence t → String
  | .required => "required"
  | .optional => "optional"
  | .default d => "default " ++ d.describe

namespace Command

/-- A text filled up with spaces to a width. -/
def padded (width : Nat) (text : String) : String :=
  text ++ String.ofList (List.replicate (width - text.length) ' ')

/-- The table of all kinds. -/
def kindTable : String :=
  String.join (Kind.all.map fun kind => "  " ++ padded 20 kind.tag ++ " " ++ kind.category.name ++ "\n")

/-- All kinds as JSON. -/
def kindList : Json := .array (Kind.all.map fun kind => .string kind.tag)

/-- The table of the parameters of a kind. -/
def parameterTable (kind : Kind) : String :=
  kind.tag ++ "\n"
    ++ String.join ((schema kind).map fun p =>
      "  " ++ padded 14 p.name ++ " " ++ padded 32 p.type.describe ++ " " ++ p.presence.describe ++ "\n")

end Command
end SolidScript
