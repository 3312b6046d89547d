import TreeLang.Op
import TreeLang.Sink
import TreeLang.Value

/-!
# Errors of evaluation

What can go wrong while an expression is evaluated. Each error is a cause; its words are given by
`EvalError.message`.
-/

namespace TreeLang

/-- A value has the wrong type. -/
inductive TypeError where
  /-- A sum of operands that are neither two integers nor include a text. -/
  | sum
  /-- An operator needs two operands of one type and found others. -/
  | operands (op : Op) (needed left right : ValueType)
  /-- Something that is not a pair has no components. -/
  | projection (found : ValueType)
  /-- A condition is not a truth value. -/
  | condition (found : ValueType)
  deriving DecidableEq

/-- The words for a wrong type. -/
def TypeError.message : TypeError → String
  | sum => "Add requires Int and/or Str"
  | operands op needed left right =>
    op.name ++ " requires " ++ needed.name ++ " operands, found " ++ left.name ++ " and " ++
      right.name
  | projection found => "projection requires a Tuple, found " ++ found.name
  | condition found => "If condition must be Bool, found " ++ found.name

/-- Why an evaluation fails. -/
inductive EvalError where
  /-- A value has the wrong type. -/
  | type (cause : TypeError)
  /-- A name is not bound. -/
  | undefinedVariable (name : String)
  /-- Something that is not a closure is called. -/
  | notCallable (found : ValueType)
  /-- A function is called with the wrong number of arguments. -/
  | arity (expected received : Nat)
  /-- There is no operator of this name. -/
  | unknownOperator (op : String)
  /-- The right operand of a quotient or remainder is zero. -/
  | divisionByZero (op : Op)
  /-- A function lists a parameter twice. -/
  | duplicateParameter (name : String)
  /-- A call would be nested deeper than allowed. -/
  | recursionLimit (limit : Nat)
  /-- The sink refuses output. -/
  | output (fault : WriteFault)
  deriving DecidableEq

namespace EvalError

/-- The words for an error. -/
def message : EvalError → String
  | type cause => "Type error: " ++ cause.message
  | undefinedVariable name => "Undefined variable `" ++ name ++ "`"
  | notCallable found => "Value of type " ++ found.name ++ " is not callable"
  | arity expected received =>
    s!"Function expected {expected} arguments but received {received}"
  | unknownOperator op => "Unknown binary operator `" ++ op ++ "`"
  | divisionByZero op => "Division by zero in `" ++ op.name ++ "`"
  | duplicateParameter name => "Parameter `" ++ name ++ "` is bound more than once in the same call"
  | recursionLimit limit => s!"Call depth exceeded the limit of {limit}"
  | output _ => "Failed to write program output"

/-- The code that stands for the error in reports. -/
def code : EvalError → String
  | type _ => "hina::runtime::type_error"
  | undefinedVariable _ => "hina::runtime::undefined_variable"
  | notCallable _ => "hina::runtime::not_callable"
  | arity _ _ => "hina::runtime::arity"
  | unknownOperator _ => "hina::runtime::unknown_operator"
  | divisionByZero _ => "hina::runtime::division_by_zero"
  | duplicateParameter _ => "hina::runtime::duplicate_parameter"
  | recursionLimit _ => "hina::runtime::recursion_limit"
  | output _ => "hina::runtime::output"

/-- Advice, where there is some. -/
def help? : EvalError → Option String
  | unknownOperator _ =>
    some ("supported operators: " ++ ", ".intercalate (Op.all.map Op.name))
  | recursionLimit _ => some "raise or remove the limit with --max-depth"
  | _ => none

/-- The words for what lies behind the error, if something does. -/
def cause? : EvalError → Option String
  | output fault => some fault.message
  | _ => none

end EvalError

end TreeLang
