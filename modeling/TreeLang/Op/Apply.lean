import TreeLang.Eval.Error

/-!
# Applying operators

What an operator makes of two values. Arithmetic wraps around at 32 bits, quotients are truncated
toward zero, equality compares values of any type, and conjunction and disjunction take both
operands, which are evaluated already.
-/

namespace TreeLang

namespace Op

/-- The error of an operator whose operands are not both of the type that it needs. -/
def mismatch (op : Op) (needed : ValueType) (lhs rhs : Value) : EvalError :=
  .type (.operands op needed lhs.type rhs.type)

/-- The sum of two integers, or the texts of both operands put together if one of them is a
text. -/
def addValues : Value → Value → Except EvalError Value
  | .int a, .int b => .ok (.int (a + b))
  | .str a, rhs => .ok (.str (a ++ rhs.render))
  | lhs, .str b => .ok (.str (lhs.render ++ b))
  | _, _ => .error (.type .sum)

/-- An operator on integers that has a result for every pair of them. -/
def onInts (op : Op) (f : Int32 → Int32 → Value) : Value → Value → Except EvalError Value
  | .int a, .int b => .ok (f a b)
  | lhs, rhs => .error (op.mismatch .int lhs rhs)

/-- An operator on integers that has no result if the right one is zero. -/
def onDivisor (op : Op) (f : Int32 → Int32 → Int32) : Value → Value → Except EvalError Value
  | .int a, .int b => if b = 0 then .error (.divisionByZero op) else .ok (.int (f a b))
  | lhs, rhs => .error (op.mismatch .int lhs rhs)

/-- An operator on truth values. -/
def onBools (op : Op) (f : Bool → Bool → Bool) : Value → Value → Except EvalError Value
  | .bool a, .bool b => .ok (.bool (f a b))
  | lhs, rhs => .error (op.mismatch .bool lhs rhs)

/-- The result of an operator on two values. -/
def apply (op : Op) (lhs rhs : Value) : Except EvalError Value :=
  match op with
  | add => addValues lhs rhs
  | sub => op.onInts (fun a b => .int (a - b)) lhs rhs
  | mul => op.onInts (fun a b => .int (a * b)) lhs rhs
  | div => op.onDivisor (· / ·) lhs rhs
  | rem => op.onDivisor (· % ·) lhs rhs
  | eq => .ok (.bool (lhs = rhs))
  | neq => .ok (.bool (lhs ≠ rhs))
  | lt => op.onInts (fun a b => .bool (a < b)) lhs rhs
  | gt => op.onInts (fun a b => .bool (b < a)) lhs rhs
  | lte => op.onInts (fun a b => .bool (a ≤ b)) lhs rhs
  | gte => op.onInts (fun a b => .bool (b ≤ a)) lhs rhs
  | and => op.onBools Bool.and lhs rhs
  | or => op.onBools Bool.or lhs rhs

/-- The result of the operator of this name, if there is one. -/
def applyNamed (name : String) (lhs rhs : Value) : Except EvalError Value :=
  match ofName? name with
  | some op => op.apply lhs rhs
  | none => .error (.unknownOperator name)

end Op

end TreeLang
