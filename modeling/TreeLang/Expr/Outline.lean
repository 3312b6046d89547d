import TreeLang.Expr
import TreeLang.Text.Numeral
import TreeLang.Text.Quoted

/-!
# Outlines of expressions

An outline shows an expression over many lines: every part stands on a line of its own, four
columns deeper than what it belongs to, and ends with a comma.
-/

namespace TreeLang

/-- A nested list of parts with names. -/
inductive Outline where
  /-- A text without parts. -/
  | leaf (text : String)
  /-- Parts that are told by their order. -/
  | items (name : String) (parts : List Outline)
  /-- Parts that have names. -/
  | record (name : String) (parts : List (String × Outline))
  /-- A list. -/
  | list (parts : List Outline)

namespace Outline

/-- The start of a line so many levels deep. -/
def indent (level : Nat) : String := String.ofList (List.replicate (4 * level) ' ')

mutual

/-- The text of an outline whose first line has been indented already, to this level. -/
def render (level : Nat) : Outline → String
  | leaf text => text
  | items name parts =>
    name ++ "(\n" ++ renderParts (level + 1) parts ++ indent level ++ ")"
  | record name parts =>
    name ++ " \x7b\n" ++ renderFields (level + 1) parts ++ indent level ++ "\x7d"
  | list [] => "[]"
  | list (part :: parts) =>
    "[\n" ++ renderParts (level + 1) (part :: parts) ++ indent level ++ "]"

/-- The lines of parts at this level. -/
def renderParts (level : Nat) : List Outline → String
  | [] => ""
  | part :: parts => indent level ++ part.render level ++ ",\n" ++ renderParts level parts

/-- The lines of named parts at this level. -/
def renderFields (level : Nat) : List (String × Outline) → String
  | [] => ""
  | (name, part) :: parts =>
    indent level ++ name ++ ": " ++ part.render level ++ ",\n" ++ renderFields level parts

end

/-- The outline of a text. -/
def ofText (text : String) : Outline := leaf (Quoted.encode text)

end Outline

/-- The outline of a side. -/
def Side.outline (side : Side) : Outline := .leaf side.kind.name

mutual

/-- The outline of an expression. -/
def Expr.outline : Expr → Outline
  | .str text => .items "Str" [.ofText text]
  | .int value => .items "Int" [.leaf (String.ofList (Numeral.ofInt value.toInt))]
  | .bool value => .items "Bool" [.leaf (if value then "true" else "false")]
  | .tuple first second =>
    .record "Tuple" [("first", first.outline), ("second", second.outline)]
  | .projection side source =>
    .record "Projection" [("which", side.outline), ("source", source.outline)]
  | .binary op lhs rhs =>
    .record "Binary" [("op", .ofText op), ("lhs", lhs.outline), ("rhs", rhs.outline)]
  | .letIn name value next =>
    .record "Let" [("name", .ofText name), ("value", value.outline), ("next", next.outline)]
  | .var name => .items "Var" [.ofText name]
  | .print inner => .items "Print" [inner.outline]
  | .cond condition consequent alternative =>
    .record "If" [("condition", condition.outline), ("then_branch", consequent.outline),
      ("else_branch", alternative.outline)]
  | .function params body =>
    .items "Function" [.record "FunctionDef"
      [("params", .list (params.map Outline.ofText)), ("body", body.outline)]]
  | .call callee arguments =>
    .record "Call" [("callee", callee.outline), ("arguments", .list (Expr.outlines arguments))]

/-- The outlines of expressions in order. -/
def Expr.outlines : List Expr → List Outline
  | [] => []
  | e :: rest => e.outline :: Expr.outlines rest

end

/-- The outline text of an expression. -/
def Expr.outlineText (e : Expr) : String := e.outline.render 0

end TreeLang
