/-!
# Statements

A script is a tree of statements: a call, or a block with a header and the statements it governs. It is laid out in
one of two ways. `compact` is a single line, with a space behind each statement of a block; `indented` has one
statement a line, four spaces deeper for each open block.
-/

namespace SolidScript.Script

/-- A statement of a script. -/
inductive Statement where
  | call (text : String)
  | block (header : String) (body : List Statement)

/-- How statements are laid out. -/
inductive Style where
  | compact
  | indented
deriving DecidableEq, Repr

namespace Statement

mutual

/-- The statement on a single line. -/
def compact : Statement → String
  | .call text => text ++ ";"
  | .block header body => header ++ " \x7b " ++ compactBody body ++ "\x7d;"

/-- The statements of a block on a single line. -/
def compactBody : List Statement → String
  | [] => ""
  | statement :: rest => compact statement ++ " " ++ compactBody rest

end

/-- The indentation of a depth. -/
def indent (depth : Nat) : String := String.ofList (List.replicate (4 * depth) ' ')

mutual

/-- The statement inside `depth` open blocks, one statement a line. -/
def indentedAt (depth : Nat) : Statement → String
  | .call text => indent depth ++ text ++ ";\n"
  | .block header [] => indent depth ++ header ++ " \x7b \x7d;\n"
  | .block header (first :: rest) =>
    indent depth ++ header ++ " \x7b\n" ++ indentedAt (depth + 1) first ++ indentedBody (depth + 1) rest
      ++ indent depth ++ "\x7d;\n"

/-- The statements of a block, one a line. -/
def indentedBody (depth : Nat) : List Statement → String
  | [] => ""
  | statement :: rest => indentedAt depth statement ++ indentedBody depth rest

end

/-- The text of a statement. -/
def layout : Style → Statement → String
  | .compact, statement => statement.compact
  | .indented, statement => statement.indentedAt 0

end Statement
end SolidScript.Script
