import TreeLang.Env
import TreeLang.Log
import TreeLang.Op.Apply

/-!
# Steps of evaluation

An evaluation is put together from steps. Most of them always end: they look a name up, bind one,
write to the sink or count calls. Only the evaluation of another expression need not end, so what
an expression does is said here with that as a parameter (`Expr.evalVia`).

Operands are evaluated from the left, a condition before the one branch that is chosen, and a
value before it is bound. A call evaluates its callee, then makes sure that the value can be
called, that the number of arguments fits, and that the call may be nested this deep; only then it
evaluates the arguments in the caller's frame, and at last the body in a frame of its own. That
frame binds the parameters and inherits every other binding that the caller has by then.
-/

namespace TreeLang

/-- What evaluation reads and changes. -/
structure State where
  /-- The current frame. -/
  env : Env
  /-- The number of calls that are active. -/
  depth : Nat
  /-- Where output goes. -/
  sink : Sink
  /-- What has happened. -/
  log : Log

/-- What a step ends with: a result or an error, and in both cases the state. -/
abbrev Outcome (α : Type) := Except EvalError α × State

/-- A step of evaluation. The monad `m` tells what may become of it besides an outcome. -/
abbrev EvalT (m : Type → Type) := ExceptT EvalError (StateT State m)

/-- A step of evaluation that need not end. -/
abbrev Eval := EvalT Option

/-- The state in which the evaluation of an expression starts. -/
def State.started (s : State) (e : Expr) : State :=
  { s with log := s.log.add (.eval e.kind s.depth) }

/-- The state in which a name has been bound. -/
def State.assigned (s : State) (name : String) (value : Value) : State :=
  { s with env := s.env.set name value, log := s.log.add (.binding name) }

/-- The state in which the body of a function starts: its frame binds the parameters to the
arguments and inherits all other bindings of the caller, and one more call is active. -/
def State.entered (s : State) (params : List String) (arguments : Env) : State :=
  let frame := arguments.inherit s.env
  { s with
    env := frame, depth := s.depth + 1, log := s.log.add (.call params (s.depth + 1) frame.size) }

/-- The state after a call, back in the frame of the caller. -/
def State.left (s : State) (caller : Env) : State :=
  { s with env := caller, depth := s.depth - 1, log := s.log.add .leave }

namespace Eval

variable {m : Type → Type} [Monad m] {α : Type}

/-- A step that always ends. -/
def act (f : State → Outcome α) : EvalT m α := fun s => pure (f s)

/-- Passes on the value of a computation that can only fail or succeed. -/
def ofExcept (result : Except EvalError α) : EvalT m α := act fun s => (result, s)

/-- Notes that the evaluation of an expression starts. -/
def start (e : Expr) : EvalT m Unit := act fun s => (.ok (), s.started e)

/-- Looks a name up in the current frame. -/
def lookup (name : String) : EvalT m Value := act fun s =>
  match s.env.get? name with
  | some value => (.ok value, s)
  | none => (.error (.undefinedVariable name), s)

/-- Binds a name in the current frame. -/
def assign (name : String) (value : Value) : EvalT m Unit :=
  act fun s => (.ok (), s.assigned name value)

/-- Writes a text to the sink. -/
def write (text : String) : EvalT m Unit := act fun s =>
  match s.sink.write text.toUTF8 with
  | (none, sink) => (.ok (), { s with sink })
  | (some fault, sink) => (.error (.output fault), { s with sink })

/-- Writes the text of a value, that of a pair piece by piece. -/
def writeValue : Value → EvalT m Unit
  | .tuple first second => do
    write "("
    writeValue first
    write ", "
    writeValue second
    write ")"
  | value => write value.render

/-- Writes a line with the text of a value. -/
def print (value : Value) : EvalT m Unit := do
  writeValue value
  write "\n"

/-- Makes sure that one more call may become active. -/
def checkDepth (limit : Option Nat) : EvalT m Unit := act fun s =>
  match limit with
  | some limit => if limit ≤ s.depth then (.error (.recursionLimit limit), s) else (.ok (), s)
  | none => (.ok (), s)

/-- Enters a function. The result is the frame of the caller. -/
def enter (params : List String) (arguments : Env) : EvalT m Env :=
  act fun s => (.ok s.env, s.entered params arguments)

/-- Goes back to the frame of the caller. -/
def leave (caller : Env) : EvalT m Unit := act fun s => (.ok (), s.left caller)

/-- Goes on after an error, too. -/
def attempt (step : EvalT m α) : EvalT m (Except EvalError α) := fun s => do
  let (result, t) ← step.run.run s
  pure (.ok result, t)

/-- Evaluates the body of a function, which is left whether that succeeds or not. -/
def inCall (params : List String) (arguments : Env) (body : EvalT m α) : EvalT m α := do
  let caller ← enter params arguments
  let result ← attempt body
  leave caller
  ofExcept result

end Eval

/-- The component of a pair. -/
def Value.project (side : Side) : Value → Except EvalError Value
  | .tuple first second =>
    match side with
    | .first => .ok first
    | .second => .ok second
  | value => .error (.type (.projection value.type))

/-- What is no pair has no components. -/
theorem Value.project_of_ne {side : Side} {value : Value} (h : value.type ≠ .tuple) :
    value.project side = .error (.type (.projection value.type)) := by
  cases value with
  | tuple first second => exact absurd rfl h
  | _ => rfl

/-- The truth value of a condition. -/
def Value.truth : Value → Except EvalError Bool
  | .bool value => .ok value
  | value => .error (.type (.condition value.type))

/-- What is no truth value decides nothing. -/
theorem Value.truth_of_ne {value : Value} (h : value.type ≠ .bool) :
    value.truth = .error (.type (.condition value.type)) := by
  cases value with
  | bool value => exact absurd rfl h
  | _ => rfl

/-- The function of a value that is called with so many arguments. -/
def Value.callee (received : Nat) : Value → Except EvalError Lambda
  | .closure f =>
    if f.arity = received then .ok f else .error (.arity f.arity received)
  | value => .error (.notCallable value.type)

/-- A function is called with as many arguments as it has parameters. -/
theorem Value.callee_closure {received : Nat} {f : Lambda} (h : f.arity = received) :
    (Value.closure f).callee received = .ok f :=
  if_pos h

theorem Value.callee_closure_of_ne {received : Nat} {f : Lambda} (h : f.arity ≠ received) :
    (Value.closure f).callee received = .error (.arity f.arity received) :=
  if_neg h

theorem Value.callee_of_ne {received : Nat} {value : Value} (h : value.type ≠ .closure) :
    value.callee received = .error (.notCallable value.type) := by
  cases value with
  | closure f => exact absurd rfl h
  | _ => rfl

/-- Only a function of as many parameters can be called with so many arguments. -/
theorem Value.callee_eq_ok {v : Value} {received : Nat} {f : Lambda}
    (h : v.callee received = .ok f) : v = .closure f ∧ f.arity = received := by
  cases v with
  | closure g =>
    by_cases harity : g.arity = received
    · rw [Value.callee_closure harity] at h
      cases h
      exact ⟨rfl, harity⟩
    · rw [Value.callee_closure_of_ne harity] at h
      cases h
  | _ => cases h

/-- Binds a parameter in the frame of a call, unless it is bound there already. -/
def Env.bindParam (frame : Env) (param : String) (value : Value) : Except EvalError Env :=
  if frame.contains param then .error (.duplicateParameter param) else .ok (frame.set param value)

/-- A parameter that is not bound yet is bound. -/
theorem Env.bindParam_of_not_contains {frame : Env} {param : String} {value : Value}
    (h : frame.contains param = false) : frame.bindParam param value = .ok (frame.set param value) := by
  simp [Env.bindParam, h]

theorem Env.bindParam_of_contains {frame : Env} {param : String} {value : Value}
    (h : frame.contains param = true) :
    frame.bindParam param value = .error (.duplicateParameter param) :=
  if_pos h

/-- Evaluates the arguments of a call in order and binds each to its parameter in `frame`. -/
def Expr.bindArguments (self : Expr → Eval Value) (frame : Env) :
    List String → List Expr → Eval Env
  | param :: params, argument :: arguments => do
    let value ← self argument
    let frame ← Eval.ofExcept (frame.bindParam param value)
    Expr.bindArguments self frame params arguments
  | _, _ => pure frame

/-- What each form of expression does. -/
def Expr.evalForm (limit : Option Nat) (self : Expr → Eval Value) : Expr → Eval Value
  | .str text => pure (.str text)
  | .int value => pure (.int value)
  | .bool value => pure (.bool value)
  | .tuple first second => do
    let first ← self first
    let second ← self second
    pure (.tuple first second)
  | .projection side source => do
    let value ← self source
    Eval.ofExcept (value.project side)
  | .binary op lhs rhs => do
    let lhs ← self lhs
    let rhs ← self rhs
    Eval.ofExcept (Op.applyNamed op lhs rhs)
  | .letIn name value next => do
    let value ← self value
    Eval.assign name value
    self next
  | .var name => Eval.lookup name
  | .print inner => do
    let value ← self inner
    Eval.print value
    pure value
  | .cond condition consequent alternative => do
    let value ← self condition
    if ← Eval.ofExcept value.truth then self consequent else self alternative
  | .function params body => pure (.closure ⟨params, body⟩)
  | .call callee arguments => do
    let value ← self callee
    let f ← Eval.ofExcept (value.callee arguments.length)
    Eval.checkDepth limit
    let frame ← Expr.bindArguments self Env.empty f.params arguments
    Eval.inCall f.params frame (self f.body)

/-- Evaluates an expression where `self` evaluates its parts and the bodies of the functions that
it calls, and where no more than `limit` calls may be active, if there is a limit. -/
def Expr.evalVia (limit : Option Nat) (self : Expr → Eval Value) (e : Expr) : Eval Value := do
  Eval.start e
  e.evalForm limit self

end TreeLang
