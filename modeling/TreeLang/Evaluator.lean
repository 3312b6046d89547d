import TreeLang.Eval

/-!
# Evaluators

An evaluator takes one expression after another. It holds the limit on nested calls, the number of
calls that are active, the sink and the log; the environments belong to its user.
-/

namespace TreeLang

/-- What stays from one evaluation to the next. -/
structure Evaluator where
  /-- The number of calls that may be active at once, if that is limited. -/
  limit : Option Nat
  /-- The number of active calls. -/
  depth : Nat
  /-- Where output goes. -/
  sink : Sink
  /-- What has happened. -/
  log : Log

/-- What an evaluator makes of an expression. -/
structure Evaluation where
  /-- The value, or what went wrong. -/
  result : Except EvalError Value
  /-- The environment afterwards; bindings that were made before an error are in it. -/
  env : Env
  /-- The evaluator afterwards. -/
  evaluator : Evaluator

namespace Evaluator

/-- An evaluator without active calls. -/
def new (limit : Option Nat) (sink : Sink) (log : Log) : Evaluator := ⟨limit, 0, sink, log⟩

/-- Where an evaluation in an environment starts. -/
def before (ev : Evaluator) (env : Env) : State := ⟨env, ev.depth, ev.sink, ev.log⟩

/-- What an evaluation leaves that ended like this. -/
def after (ev : Evaluator) (ending : Except EvalError Value × State) : Evaluation :=
  ⟨ending.1, ending.2.env, ⟨ev.limit, ending.2.depth, ending.2.sink, ending.2.log⟩⟩

/-- Evaluates an expression in an environment. There is no answer if that does not end. -/
def evaluate? (ev : Evaluator) (e : Expr) (env : Env) : Option Evaluation :=
  (e.evaluate? ev.limit (ev.before env)).map ev.after

theorem evaluate?_eq_some {ev : Evaluator} {e : Expr} {env : Env} {done : Evaluation} :
    ev.evaluate? e env = some done ↔
      ∃ x, e.evaluate? ev.limit (ev.before env) = some x ∧ ev.after x = done :=
  Option.map_eq_some_iff

theorem evaluate?_of_within {ev : Evaluator} {e : Expr} {env : Env} {done : Evaluation}
    (height : Nat)
    (h : (e.evalWithin ev.limit height (ev.before env)).map ev.after = some done) :
    ev.evaluate? e env = some done := by
  obtain ⟨x, hx, rfl⟩ := Option.map_eq_some_iff.mp h
  exact evaluate?_eq_some.mpr ⟨x, Expr.evaluate?_of_within height hx, rfl⟩

/-- Flushes the sink. -/
def flush (ev : Evaluator) : Except EvalError Unit :=
  match ev.sink.flushFault with
  | some fault => .error (.output fault)
  | none => .ok ()

/-- Evaluates an expression and flushes the sink whether that succeeds or not. An error of the
evaluation wins over one of flushing. -/
def run? (ev : Evaluator) (e : Expr) (env : Env) : Option Evaluation :=
  (ev.evaluate? e env).map fun done =>
    { done with result := do
        let value ← done.result
        done.evaluator.flush
        pure value }

end Evaluator

end TreeLang
