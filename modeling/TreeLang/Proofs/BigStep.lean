import TreeLang.Evaluator

/-!
# Big-step semantics

The meaning of an expression as a relation, without any evaluator: `Evaluates limit depth e env
result env' out` says that `e`, in a frame `env` and inside `depth` active calls, ends with
`result`, leaves the frame `env'` and prints `out`. There is one rule for each way to succeed and
one for each sub-step that can fail, so the premises of a rule tell the order of effects: a rule for
a failure has the premises of the sub-steps before the one that fails, and no others.

The sink of this semantics never fails.
-/

namespace TreeLang

/-- The line that prints a value. -/
def Value.line (value : Value) : ByteArray := (value.render ++ "\n").toUTF8

mutual

/-- The rules of expressions. At most `limit` calls may be active, if there is a limit. -/
inductive Evaluates (limit : Option Nat) :
    Nat → Expr → Env → Except EvalError Value → Env → ByteArray → Prop where
  /-- A text literal. -/
  | str {depth : Nat} {text : String} {env : Env} :
      Evaluates limit depth (.str text) env (.ok (.str text)) env ByteArray.empty
  /-- An integer literal. -/
  | int {depth : Nat} {value : Int32} {env : Env} :
      Evaluates limit depth (.int value) env (.ok (.int value)) env ByteArray.empty
  /-- A truth value. -/
  | bool {depth : Nat} {value : Bool} {env : Env} :
      Evaluates limit depth (.bool value) env (.ok (.bool value)) env ByteArray.empty
  /-- A pair: the first component, then the second. -/
  | tuple {depth : Nat} {first second : Expr} {env env₁ env₂ : Env} {v w : Value}
      {out₁ out₂ : ByteArray}
      (hfirst : Evaluates limit depth first env (.ok v) env₁ out₁)
      (hsecond : Evaluates limit depth second env₁ (.ok w) env₂ out₂) :
      Evaluates limit depth (.tuple first second) env (.ok (.tuple v w)) env₂ (out₁ ++ out₂)
  /-- The first component of a pair fails. -/
  | tupleFirst {depth : Nat} {first second : Expr} {env env₁ : Env} {cause : EvalError}
      {out : ByteArray}
      (hfirst : Evaluates limit depth first env (.error cause) env₁ out) :
      Evaluates limit depth (.tuple first second) env (.error cause) env₁ out
  /-- The second component of a pair fails. -/
  | tupleSecond {depth : Nat} {first second : Expr} {env env₁ env₂ : Env} {v : Value}
      {cause : EvalError} {out₁ out₂ : ByteArray}
      (hfirst : Evaluates limit depth first env (.ok v) env₁ out₁)
      (hsecond : Evaluates limit depth second env₁ (.error cause) env₂ out₂) :
      Evaluates limit depth (.tuple first second) env (.error cause) env₂ (out₁ ++ out₂)
  /-- The first component of a pair is taken. -/
  | first {depth : Nat} {source : Expr} {env env₁ : Env} {v w : Value} {out : ByteArray}
      (hsource : Evaluates limit depth source env (.ok (.tuple v w)) env₁ out) :
      Evaluates limit depth (.projection .first source) env (.ok v) env₁ out
  /-- The second component of a pair is taken. -/
  | second {depth : Nat} {source : Expr} {env env₁ : Env} {v w : Value} {out : ByteArray}
      (hsource : Evaluates limit depth source env (.ok (.tuple v w)) env₁ out) :
      Evaluates limit depth (.projection .second source) env (.ok w) env₁ out
  /-- What a component is taken of fails. -/
  | projectionSource {depth : Nat} {side : Side} {source : Expr} {env env₁ : Env}
      {cause : EvalError} {out : ByteArray}
      (hsource : Evaluates limit depth source env (.error cause) env₁ out) :
      Evaluates limit depth (.projection side source) env (.error cause) env₁ out
  /-- What a component is taken of is no pair. -/
  | projectionType {depth : Nat} {side : Side} {source : Expr} {env env₁ : Env} {v : Value}
      {out : ByteArray}
      (hsource : Evaluates limit depth source env (.ok v) env₁ out) (htype : v.type ≠ .tuple) :
      Evaluates limit depth (.projection side source) env
        (.error (.type (.projection v.type))) env₁ out
  /-- An operator: the left operand, then the right one, then the operator. -/
  | binary {depth : Nat} {op : String} {lhs rhs : Expr} {env env₁ env₂ : Env} {v w u : Value}
      {out₁ out₂ : ByteArray}
      (hlhs : Evaluates limit depth lhs env (.ok v) env₁ out₁)
      (hrhs : Evaluates limit depth rhs env₁ (.ok w) env₂ out₂)
      (hop : Op.applyNamed op v w = .ok u) :
      Evaluates limit depth (.binary op lhs rhs) env (.ok u) env₂ (out₁ ++ out₂)
  /-- The left operand fails. -/
  | binaryLhs {depth : Nat} {op : String} {lhs rhs : Expr} {env env₁ : Env} {cause : EvalError}
      {out : ByteArray}
      (hlhs : Evaluates limit depth lhs env (.error cause) env₁ out) :
      Evaluates limit depth (.binary op lhs rhs) env (.error cause) env₁ out
  /-- The right operand fails. -/
  | binaryRhs {depth : Nat} {op : String} {lhs rhs : Expr} {env env₁ env₂ : Env} {v : Value}
      {cause : EvalError} {out₁ out₂ : ByteArray}
      (hlhs : Evaluates limit depth lhs env (.ok v) env₁ out₁)
      (hrhs : Evaluates limit depth rhs env₁ (.error cause) env₂ out₂) :
      Evaluates limit depth (.binary op lhs rhs) env (.error cause) env₂ (out₁ ++ out₂)
  /-- The operator has no result for these operands, or is unknown. -/
  | binaryOp {depth : Nat} {op : String} {lhs rhs : Expr} {env env₁ env₂ : Env} {v w : Value}
      {cause : EvalError} {out₁ out₂ : ByteArray}
      (hlhs : Evaluates limit depth lhs env (.ok v) env₁ out₁)
      (hrhs : Evaluates limit depth rhs env₁ (.ok w) env₂ out₂)
      (hop : Op.applyNamed op v w = .error cause) :
      Evaluates limit depth (.binary op lhs rhs) env (.error cause) env₂ (out₁ ++ out₂)
  /-- A binding: the value, then the binding, then what follows in the same frame. -/
  | letIn {depth : Nat} {name : String} {value next : Expr} {env env₁ env₂ : Env} {v w : Value}
      {out₁ out₂ : ByteArray}
      (hvalue : Evaluates limit depth value env (.ok v) env₁ out₁)
      (hnext : Evaluates limit depth next (env₁.set name v) (.ok w) env₂ out₂) :
      Evaluates limit depth (.letIn name value next) env (.ok w) env₂ (out₁ ++ out₂)
  /-- The value of a binding fails. -/
  | letValue {depth : Nat} {name : String} {value next : Expr} {env env₁ : Env}
      {cause : EvalError} {out : ByteArray}
      (hvalue : Evaluates limit depth value env (.error cause) env₁ out) :
      Evaluates limit depth (.letIn name value next) env (.error cause) env₁ out
  /-- What follows a binding fails. -/
  | letNext {depth : Nat} {name : String} {value next : Expr} {env env₁ env₂ : Env} {v : Value}
      {cause : EvalError} {out₁ out₂ : ByteArray}
      (hvalue : Evaluates limit depth value env (.ok v) env₁ out₁)
      (hnext : Evaluates limit depth next (env₁.set name v) (.error cause) env₂ out₂) :
      Evaluates limit depth (.letIn name value next) env (.error cause) env₂ (out₁ ++ out₂)
  /-- A name that is bound. -/
  | var {depth : Nat} {name : String} {env : Env} {v : Value} (hname : env.get? name = some v) :
      Evaluates limit depth (.var name) env (.ok v) env ByteArray.empty
  /-- A name that is not bound. -/
  | varUnbound {depth : Nat} {name : String} {env : Env} (hname : env.get? name = none) :
      Evaluates limit depth (.var name) env (.error (.undefinedVariable name)) env
        ByteArray.empty
  /-- A line is printed once its value is there. -/
  | print {depth : Nat} {inner : Expr} {env env₁ : Env} {v : Value} {out : ByteArray}
      (hinner : Evaluates limit depth inner env (.ok v) env₁ out) :
      Evaluates limit depth (.print inner) env (.ok v) env₁ (out ++ v.line)
  /-- What should be printed fails. -/
  | printInner {depth : Nat} {inner : Expr} {env env₁ : Env} {cause : EvalError}
      {out : ByteArray}
      (hinner : Evaluates limit depth inner env (.error cause) env₁ out) :
      Evaluates limit depth (.print inner) env (.error cause) env₁ out
  /-- A choice whose condition is true. -/
  | condTrue {depth : Nat} {condition consequent alternative : Expr} {env env₁ env₂ : Env}
      {v : Value} {out₁ out₂ : ByteArray}
      (hcondition : Evaluates limit depth condition env (.ok (.bool true)) env₁ out₁)
      (hbranch : Evaluates limit depth consequent env₁ (.ok v) env₂ out₂) :
      Evaluates limit depth (.cond condition consequent alternative) env (.ok v) env₂
        (out₁ ++ out₂)
  /-- A choice whose condition is false. -/
  | condFalse {depth : Nat} {condition consequent alternative : Expr} {env env₁ env₂ : Env}
      {v : Value} {out₁ out₂ : ByteArray}
      (hcondition : Evaluates limit depth condition env (.ok (.bool false)) env₁ out₁)
      (hbranch : Evaluates limit depth alternative env₁ (.ok v) env₂ out₂) :
      Evaluates limit depth (.cond condition consequent alternative) env (.ok v) env₂
        (out₁ ++ out₂)
  /-- A condition fails. -/
  | condCondition {depth : Nat} {condition consequent alternative : Expr} {env env₁ : Env}
      {cause : EvalError} {out : ByteArray}
      (hcondition : Evaluates limit depth condition env (.error cause) env₁ out) :
      Evaluates limit depth (.cond condition consequent alternative) env (.error cause) env₁ out
  /-- A condition is no truth value. -/
  | condType {depth : Nat} {condition consequent alternative : Expr} {env env₁ : Env} {v : Value}
      {out : ByteArray}
      (hcondition : Evaluates limit depth condition env (.ok v) env₁ out)
      (htype : v.type ≠ .bool) :
      Evaluates limit depth (.cond condition consequent alternative) env
        (.error (.type (.condition v.type))) env₁ out
  /-- The branch that a true condition chooses fails. -/
  | condConsequent {depth : Nat} {condition consequent alternative : Expr} {env env₁ env₂ : Env}
      {cause : EvalError} {out₁ out₂ : ByteArray}
      (hcondition : Evaluates limit depth condition env (.ok (.bool true)) env₁ out₁)
      (hbranch : Evaluates limit depth consequent env₁ (.error cause) env₂ out₂) :
      Evaluates limit depth (.cond condition consequent alternative) env (.error cause) env₂
        (out₁ ++ out₂)
  /-- The branch that a false condition chooses fails. -/
  | condAlternative {depth : Nat} {condition consequent alternative : Expr}
      {env env₁ env₂ : Env} {cause : EvalError} {out₁ out₂ : ByteArray}
      (hcondition : Evaluates limit depth condition env (.ok (.bool false)) env₁ out₁)
      (hbranch : Evaluates limit depth alternative env₁ (.error cause) env₂ out₂) :
      Evaluates limit depth (.cond condition consequent alternative) env (.error cause) env₂
        (out₁ ++ out₂)
  /-- A function literal. -/
  | function {depth : Nat} {params : List String} {body : Expr} {env : Env} :
      Evaluates limit depth (.function params body) env (.ok (.closure ⟨params, body⟩)) env
        ByteArray.empty
  /-- A call: the callee, the checks, the arguments in the frame of the caller, the body in a frame
  of its own, which binds the parameters and inherits the rest. -/
  | call {depth : Nat} {callee : Expr} {arguments : List Expr} {f : Lambda}
      {env env₁ env₂ env₃ frame : Env} {v : Value} {out₁ out₂ out₃ : ByteArray}
      (hcallee : Evaluates limit depth callee env (.ok (.closure f)) env₁ out₁)
      (harity : f.arity = arguments.length) (hdepth : ∀ l, limit = some l → depth < l)
      (harguments : BindsArguments limit depth Env.empty f.params arguments env₁ (.ok frame) env₂
        out₂)
      (hbody : Evaluates limit (depth + 1) f.body (frame.inherit env₂) (.ok v) env₃ out₃) :
      Evaluates limit depth (.call callee arguments) env (.ok v) env₂ (out₁ ++ out₂ ++ out₃)
  /-- A callee fails. -/
  | callCallee {depth : Nat} {callee : Expr} {arguments : List Expr} {env env₁ : Env}
      {cause : EvalError} {out : ByteArray}
      (hcallee : Evaluates limit depth callee env (.error cause) env₁ out) :
      Evaluates limit depth (.call callee arguments) env (.error cause) env₁ out
  /-- A callee is no function. -/
  | callType {depth : Nat} {callee : Expr} {arguments : List Expr} {env env₁ : Env} {v : Value}
      {out : ByteArray}
      (hcallee : Evaluates limit depth callee env (.ok v) env₁ out) (htype : v.type ≠ .closure) :
      Evaluates limit depth (.call callee arguments) env (.error (.notCallable v.type)) env₁ out
  /-- The number of arguments does not fit. -/
  | callArity {depth : Nat} {callee : Expr} {arguments : List Expr} {f : Lambda}
      {env env₁ : Env} {out : ByteArray}
      (hcallee : Evaluates limit depth callee env (.ok (.closure f)) env₁ out)
      (harity : f.arity ≠ arguments.length) :
      Evaluates limit depth (.call callee arguments) env
        (.error (.arity f.arity arguments.length)) env₁ out
  /-- A call would be nested too deep. -/
  | callDepth {depth l : Nat} {callee : Expr} {arguments : List Expr} {f : Lambda}
      {env env₁ : Env} {out : ByteArray}
      (hcallee : Evaluates limit depth callee env (.ok (.closure f)) env₁ out)
      (harity : f.arity = arguments.length) (hlimit : limit = some l) (hdepth : l ≤ depth) :
      Evaluates limit depth (.call callee arguments) env (.error (.recursionLimit l)) env₁ out
  /-- The arguments fail. -/
  | callArguments {depth : Nat} {callee : Expr} {arguments : List Expr} {f : Lambda}
      {env env₁ env₂ : Env} {cause : EvalError} {out₁ out₂ : ByteArray}
      (hcallee : Evaluates limit depth callee env (.ok (.closure f)) env₁ out₁)
      (harity : f.arity = arguments.length) (hdepth : ∀ l, limit = some l → depth < l)
      (harguments : BindsArguments limit depth Env.empty f.params arguments env₁ (.error cause)
        env₂ out₂) :
      Evaluates limit depth (.call callee arguments) env (.error cause) env₂ (out₁ ++ out₂)
  /-- The body fails. -/
  | callBody {depth : Nat} {callee : Expr} {arguments : List Expr} {f : Lambda}
      {env env₁ env₂ env₃ frame : Env} {cause : EvalError} {out₁ out₂ out₃ : ByteArray}
      (hcallee : Evaluates limit depth callee env (.ok (.closure f)) env₁ out₁)
      (harity : f.arity = arguments.length) (hdepth : ∀ l, limit = some l → depth < l)
      (harguments : BindsArguments limit depth Env.empty f.params arguments env₁ (.ok frame) env₂
        out₂)
      (hbody : Evaluates limit (depth + 1) f.body (frame.inherit env₂) (.error cause) env₃ out₃) :
      Evaluates limit depth (.call callee arguments) env (.error cause) env₂
        (out₁ ++ out₂ ++ out₃)

/-- The rules of arguments, which are bound to parameters in the frame of the call from left to
right. -/
inductive BindsArguments (limit : Option Nat) :
    Nat → Env → List String → List Expr → Env → Except EvalError Env → Env → ByteArray → Prop where
  /-- No argument is left. -/
  | nil {depth : Nat} {frame env : Env} :
      BindsArguments limit depth frame [] [] env (.ok frame) env ByteArray.empty
  /-- An argument whose parameter is not bound yet, then the others. -/
  | cons {depth : Nat} {param : String} {params : List String} {argument : Expr}
      {arguments : List Expr} {frame frame' env env₁ env₂ : Env} {v : Value}
      {out₁ out₂ : ByteArray}
      (hargument : Evaluates limit depth argument env (.ok v) env₁ out₁)
      (hparam : frame.contains param = false)
      (hrest : BindsArguments limit depth (frame.set param v) params arguments env₁ (.ok frame')
        env₂ out₂) :
      BindsArguments limit depth frame (param :: params) (argument :: arguments) env (.ok frame')
        env₂ (out₁ ++ out₂)
  /-- An argument fails. -/
  | argument {depth : Nat} {param : String} {params : List String} {argument : Expr}
      {arguments : List Expr} {frame env env₁ : Env} {cause : EvalError} {out : ByteArray}
      (hargument : Evaluates limit depth argument env (.error cause) env₁ out) :
      BindsArguments limit depth frame (param :: params) (argument :: arguments) env
        (.error cause) env₁ out
  /-- The parameter of an argument is bound already. -/
  | duplicate {depth : Nat} {param : String} {params : List String} {argument : Expr}
      {arguments : List Expr} {frame env env₁ : Env} {v : Value} {out : ByteArray}
      (hargument : Evaluates limit depth argument env (.ok v) env₁ out)
      (hparam : frame.contains param = true) :
      BindsArguments limit depth frame (param :: params) (argument :: arguments) env
        (.error (.duplicateParameter param)) env₁ out
  /-- A later argument fails. -/
  | rest {depth : Nat} {param : String} {params : List String} {argument : Expr}
      {arguments : List Expr} {frame env env₁ env₂ : Env} {v : Value} {cause : EvalError}
      {out₁ out₂ : ByteArray}
      (hargument : Evaluates limit depth argument env (.ok v) env₁ out₁)
      (hparam : frame.contains param = false)
      (hrest : BindsArguments limit depth (frame.set param v) params arguments env₁ (.error cause)
        env₂ out₂) :
      BindsArguments limit depth frame (param :: params) (argument :: arguments) env
        (.error cause) env₂ (out₁ ++ out₂)

end

end TreeLang
