/-!
# Expressions

An expression is what a program consists of once its tree has been read. There are twelve forms;
an operator is kept as it was written, and a function literal carries its parameter list and body
but no bindings.
-/

namespace TreeLang

/-- One of the two components of a pair. -/
inductive Side where
  | first
  | second
  deriving DecidableEq

/-- An expression. -/
inductive Expr where
  /-- A text literal. -/
  | str (text : String)
  /-- An integer literal. -/
  | int (value : Int32)
  /-- A truth value. -/
  | bool (value : Bool)
  /-- A pair. -/
  | tuple (first second : Expr)
  /-- A component of a pair. -/
  | projection (side : Side) (source : Expr)
  /-- Two operands and the operator as it was written. -/
  | binary (op : String) (lhs rhs : Expr)
  /-- Binds `name` to a value for all that is evaluated later in the frame. -/
  | letIn (name : String) (value next : Expr)
  /-- A look-up. -/
  | var (name : String)
  /-- Writes a value to the sink and passes it on. -/
  | print (inner : Expr)
  /-- A choice between two branches. -/
  | cond (condition consequent alternative : Expr)
  /-- A function literal. -/
  | function (params : List String) (body : Expr)
  /-- A call with its arguments in order. -/
  | call (callee : Expr) (arguments : List Expr)

/-- The kinds of node, as the `kind` member of a tree names them. -/
inductive Kind where
  | str
  | int
  | bool
  | tuple
  | first
  | second
  | binary
  | letIn
  | var
  | print
  | cond
  | function
  | call
  deriving DecidableEq

namespace Kind

/-- The name of a kind. -/
def name : Kind → String
  | str => "Str"
  | int => "Int"
  | bool => "Bool"
  | tuple => "Tuple"
  | first => "First"
  | second => "Second"
  | binary => "Binary"
  | letIn => "Let"
  | var => "Var"
  | print => "Print"
  | cond => "If"
  | function => "Function"
  | call => "Call"

/-- All kinds. -/
def all : List Kind :=
  [str, int, bool, tuple, first, second, binary, letIn, var, print, cond, function, call]

/-- The kind of exactly this name. -/
def ofName? (name : String) : Option Kind :=
  all.find? (·.name = name)

end Kind

/-- The kind of node that picks this component. -/
def Side.kind : Side → Kind
  | .first => .first
  | .second => .second

namespace Expr

/-- The kind of node that denotes the expression. -/
def kind : Expr → Kind
  | str _ => .str
  | int _ => .int
  | bool _ => .bool
  | tuple _ _ => .tuple
  | projection side _ => side.kind
  | binary _ _ _ => .binary
  | letIn _ _ _ => .letIn
  | var _ => .var
  | print _ => .print
  | cond _ _ _ => .cond
  | function _ _ => .function
  | call _ _ => .call

mutual

/-- Whether two expressions are the same term. -/
def same : Expr → Expr → Bool
  | str a, str b => a == b
  | int a, int b => a == b
  | bool a, bool b => a == b
  | tuple a b, tuple c d => same a c && same b d
  | projection s a, projection t b => s == t && same a b
  | binary o a b, binary p c d => o == p && same a c && same b d
  | letIn m a b, letIn n c d => m == n && same a c && same b d
  | var m, var n => m == n
  | print a, print b => same a b
  | cond a b c, cond d e f => same a d && same b e && same c f
  | function ps a, function qs b => ps == qs && same a b
  | call a as, call b bs => same a b && sameAll as bs
  | _, _ => false

/-- Whether two lists hold the same terms in the same order. -/
def sameAll : List Expr → List Expr → Bool
  | [], [] => true
  | a :: as, b :: bs => same a b && sameAll as bs
  | _, _ => false

end

mutual

/-- The comparison tells exactly whether two expressions are equal. -/
theorem same_iff : (a b : Expr) → (same a b = true ↔ a = b)
  | str _, b => by cases b <;> simp [same]
  | int _, b => by cases b <;> simp [same]
  | bool _, b => by cases b <;> simp [same]
  | tuple a c, b => by cases b <;> simp [same, same_iff a, same_iff c]
  | projection _ a, b => by cases b <;> simp [same, same_iff a]
  | binary _ a c, b => by cases b <;> simp [same, same_iff a, same_iff c, and_assoc]
  | letIn _ a c, b => by cases b <;> simp [same, same_iff a, same_iff c, and_assoc]
  | var _, b => by cases b <;> simp [same]
  | print a, b => by cases b <;> simp [same, same_iff a]
  | cond a c d, b => by
    cases b <;> simp [same, same_iff a, same_iff c, same_iff d, and_assoc]
  | function _ a, b => by cases b <;> simp [same, same_iff a]
  | call a as, b => by cases b <;> simp [same, same_iff a, sameAll_iff as]

/-- The comparison of lists tells exactly whether they are equal. -/
theorem sameAll_iff : (as bs : List Expr) → (sameAll as bs = true ↔ as = bs)
  | [], bs => by cases bs <;> simp [sameAll]
  | a :: as, bs => by cases bs <;> simp [sameAll, same_iff a, sameAll_iff as]

end

instance : DecidableEq Expr := fun a b => decidable_of_iff _ (same_iff a b)

end Expr

/-- A function: parameters and a body, without any bindings of the place where it was made. -/
structure Lambda where
  /-- The parameters in order. -/
  params : List String
  /-- The expression that a call evaluates. -/
  body : Expr
  deriving DecidableEq

namespace Lambda

/-- The number of arguments that a call needs. -/
def arity (f : Lambda) : Nat := f.params.length

/-- How a function with these parameters is shown. -/
def signatureOf (params : List String) : String :=
  "fn (" ++ ", ".intercalate params ++ ")"

/-- How the function is shown. -/
def signature (f : Lambda) : String := signatureOf f.params

end Lambda

end TreeLang
