import TreeLang.Expr

/-!
# Errors of building

Why a tree denotes no expression. Each error is a cause; its words are given by
`BuildError.message`.
-/

namespace TreeLang

/-- Why a tree denotes no expression. -/
inductive BuildError where
  /-- A node is not an object, or its kind is not a text. -/
  | missingKind
  /-- A node lacks a member that its kind needs, or has an unusable one. -/
  | malformedField (kind : Kind) (field : String)
  /-- A literal has a value that is none of its kind; `shown` is the text of that value. -/
  | malformedLiteral (kind : Kind) (shown : String)
  /-- A function lists a parameter twice. -/
  | duplicateParameter (name : String)
  /-- There is no kind of this name. -/
  | unknownKind (kind : String)
  /-- The tree of a program has no expression. -/
  | noExpression
  deriving DecidableEq

namespace BuildError

/-- The words for a node that lacks a usable member. -/
def malformedMessage (kind field : String) : String :=
  "`" ++ kind ++ "` node is badly structured: missing or invalid `" ++ field ++ "`"

/-- The words for an error. -/
def message : BuildError → String
  | missingKind => malformedMessage "expression" "kind"
  | malformedField kind field => malformedMessage kind.name field
  | malformedLiteral kind shown =>
    "`" ++ kind.name ++ "` literal has an invalid value `" ++ shown ++ "`"
  | duplicateParameter name => "parameter `" ++ name ++ "` is declared more than once"
  | unknownKind kind => "unknown node kind `" ++ kind ++ "`"
  | noExpression => "tree has no expression"

/-- The code that stands for the error in reports. -/
def code : BuildError → String
  | missingKind => "hina::build::malformed_node"
  | malformedField _ _ => "hina::build::malformed_node"
  | malformedLiteral _ _ => "hina::build::malformed_literal"
  | duplicateParameter _ => "hina::build::duplicate_parameter"
  | unknownKind _ => "hina::build::unknown_kind"
  | noExpression => "hina::build::no_expression"

/-- Advice, where there is some. -/
def help? : BuildError → Option String
  | unknownKind _ => some ("expected one of " ++ ", ".intercalate (Kind.all.map Kind.name))
  | noExpression => some "the root object needs a non-empty `expression` field"
  | _ => none

end BuildError

end TreeLang
