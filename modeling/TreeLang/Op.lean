/-!
# Binary operators

The thirteen operators and their names. An expression keeps the operator as it was written, so an
unknown name is found only when the expression is evaluated.
-/

namespace TreeLang

/-- A binary operator. -/
inductive Op where
  /-- Sum of integers, or texts put together. -/
  | add
  /-- Difference. -/
  | sub
  /-- Product. -/
  | mul
  /-- Quotient, truncated toward zero. -/
  | div
  /-- Remainder of the truncated quotient. -/
  | rem
  /-- Equality of values. -/
  | eq
  /-- Inequality of values. -/
  | neq
  /-- Less than. -/
  | lt
  /-- Greater than. -/
  | gt
  /-- At most. -/
  | lte
  /-- At least. -/
  | gte
  /-- Conjunction. -/
  | and
  /-- Disjunction. -/
  | or
  deriving DecidableEq

namespace Op

/-- The name under which a program mentions the operator. -/
def name : Op → String
  | add => "Add"
  | sub => "Sub"
  | mul => "Mul"
  | div => "Div"
  | rem => "Rem"
  | eq => "Eq"
  | neq => "Neq"
  | lt => "Lt"
  | gt => "Gt"
  | lte => "Lte"
  | gte => "Gte"
  | and => "And"
  | or => "Or"

/-- All operators. -/
def all : List Op := [add, sub, mul, div, rem, eq, neq, lt, gt, lte, gte, and, or]

/-- The operator of exactly this name. -/
def ofName? (name : String) : Option Op :=
  all.find? (·.name = name)

end Op

end TreeLang
