import TreeLang.Expr.BuildError
import TreeLang.Log
import TreeLang.Tree.Printer

/-!
# Expressions from trees

Reads a tree as an expression. The `kind` member of a node tells its form, and the form tells
which members are read and in which order; other members do not matter. Reading stops at the first
defect. An integer literal may be given as a number or as a numeral in a string, a truth value as
such or as the string `true` or `false`.

`Expr.ofTree` reads a node, and `Expr.ofProgram` the `expression` member of the root of a program.
-/

namespace TreeLang

/-- A step of building: it ends with a result or an error, and logs the nodes that it visits. -/
abbrev Build := EStateM BuildError Log

namespace Build

/-- Adds an event to the log. -/
def note (event : Event) : Build Unit := fun log => .ok () (log.add event)

/-- The value, or the error if there is none. -/
def require {α : Type} (error : BuildError) : Option α → Build α
  | some value => pure value
  | none => throw error

end Build

/-- How the unusable value of a literal is shown: a string as it is, anything else by its text. -/
def Tree.shown : Tree → String
  | .str text => text
  | tree => tree.text

/-- The text that a literal stands for. -/
def Tree.strLiteral? : Tree → Option String
  | .str text => some text
  | _ => none

/-- The integer that a literal stands for. -/
def Tree.intLiteral? : Tree → Option Int32
  | .int value =>
    if Int32.minValue.toInt ≤ value ∧ value ≤ Int32.maxValue.toInt then
      some (Int32.ofInt value)
    else none
  | .str text => (Numeral.readInt32 text).toOption
  | _ => none

/-- The truth value that a literal stands for. -/
def Tree.boolLiteral? : Tree → Option Bool
  | .bool value => some value
  | .str text =>
    if text = "true" then some true else if text = "false" then some false else none
  | _ => none

/-- The name that a binding node gives to its value. -/
def Tree.boundName? (tree : Tree) : Option String :=
  (tree.field? "name").bind (Tree.textField? "text")

namespace Build

/-- Reads the value of a literal. -/
def literal {α : Type} (kind : Kind) (value? : Tree → Option α) (tree : Tree) : Build α := do
  let value ← require (.malformedField kind "value") (tree.field? "value")
  require (.malformedLiteral kind value.shown) (value? value)

/-- Reads the member that holds a child node, which has to be an object. -/
def child (kind : Kind) (tree : Tree) (field : String)
    (build : (c : Tree) → sizeOf c < sizeOf tree → Build Expr) : Build Expr :=
  match h : tree.field? field with
  | some c =>
    if c.isObject then build c (Tree.sizeOf_field? h) else throw (.malformedField kind field)
  | none => throw (.malformedField kind field)

/-- Reads the names of parameters behind those in `seen`, in order. -/
def params (seen : List String) : List Tree → Build (List String)
  | [] => pure seen
  | entry :: rest => do
    let name ← require (.malformedField .function "parameters") (entry.textField? "text")
    if name ∈ seen then throw (.duplicateParameter name)
    else params (seen ++ [name]) rest

end Build

/-- The elements of an array member are smaller than the tree. -/
theorem Tree.sizeOf_items {name : String} {member tree : Tree} {items : List Tree}
    (h : tree.field? name = some member) (hitems : member.items? = some items) :
    sizeOf items < sizeOf tree := by
  have hmember := Tree.sizeOf_field? h
  cases member with
  | array _ =>
    cases hitems
    simp only [Tree.array.sizeOf_spec] at hmember
    omega
  | _ => simp [Tree.items?] at hitems

mutual

/-- Reads a node. -/
def Expr.ofTree (tree : Tree) : Build Expr := do
  let name ← Build.require .missingKind (tree.textField? "kind")
  Build.note (.node name)
  let kind ← Build.require (.unknownKind name) (Kind.ofName? name)
  let child (field : String) : Build Expr :=
    Build.child kind tree field fun c _ => Expr.ofTree c
  match kind with
  | .str => Expr.str <$> Build.literal .str Tree.strLiteral? tree
  | .int => Expr.int <$> Build.literal .int Tree.intLiteral? tree
  | .bool => Expr.bool <$> Build.literal .bool Tree.boolLiteral? tree
  | .tuple => do
    let first ← child "first"
    let second ← child "second"
    pure (.tuple first second)
  | .first => Expr.projection .first <$> child "value"
  | .second => Expr.projection .second <$> child "value"
  | .binary => do
    let lhs ← child "lhs"
    let op ← Build.require (.malformedField .binary "op") (tree.textField? "op")
    let rhs ← child "rhs"
    pure (.binary op lhs rhs)
  | .letIn => do
    let name ← Build.require (.malformedField .letIn "name") tree.boundName?
    let value ← child "value"
    let next ← child "next"
    pure (.letIn name value next)
  | .var => Expr.var <$> Build.require (.malformedField .var "text") (tree.textField? "text")
  | .print => Expr.print <$> child "value"
  | .cond => do
    let condition ← child "condition"
    let consequent ← child "then"
    let alternative ← child "otherwise"
    pure (.cond condition consequent alternative)
  | .function => do
    let entries ← Build.require (.malformedField .function "parameters")
      ((tree.field? "parameters").bind Tree.items?)
    let params ← Build.params [] entries
    let body ← child "value"
    pure (.function params body)
  | .call => do
    let callee ← child "callee"
    match h : tree.field? "arguments" with
    | none => throw (.malformedField .call "arguments")
    | some member =>
      match hitems : member.items? with
      | none => throw (.malformedField .call "arguments")
      | some items =>
        have := Tree.sizeOf_items h hitems
        let arguments ← Expr.ofArguments items
        pure (.call callee arguments)
termination_by sizeOf tree

/-- Reads the arguments of a call, which all have to be objects. -/
def Expr.ofArguments (items : List Tree) : Build (List Expr) := do
  match items with
  | [] => pure []
  | item :: rest =>
    if item.isObject then
      let argument ← Expr.ofTree item
      let arguments ← Expr.ofArguments rest
      pure (argument :: arguments)
    else throw (.malformedField .call "arguments")
termination_by sizeOf items

end

/-- Reads the tree of a program. -/
def Expr.ofProgram (tree : Tree) : Build Expr :=
  match tree.field? "expression" with
  | some (.object (entry :: rest)) => Expr.ofTree (.object (entry :: rest))
  | _ => throw .noExpression

end TreeLang
