import TreeLang.Proofs.OperatorTable
import TreeLang.Proofs.OwnFrame
import TreeLang.Proofs.Sessions

/-!
# Values as expressions

For each value there is an expression that says it: a literal, a pair of such expressions, or a
function literal. It has this value in every environment, under every limit and on every sink,
because it neither looks a name up nor calls nor writes. So it may stand for the value anywhere,
also where a function is called.
-/

namespace TreeLang

open Eval (bind_of_ok)

/-- The expression that says the value. -/
def Value.quote : Value → Expr
  | .str text => .str text
  | .int n => .int n
  | .bool b => .bool b
  | .tuple first second => .tuple first.quote second.quote
  | .closure f => .function f.params f.body

/-- The expression has this value, and its evaluation changes nothing but the log: no name is bound
and nothing is written. -/
def Evaluator.Gives (ev : Evaluator) (env : Env) (e : Expr) (v : Value) : Prop :=
  ∃ log, ev.evaluate? e env = some ⟨.ok v, env, { ev with log }⟩

section

variable {limit : Option Nat} {s : State} {v w : Value}

theorem Value.evaluate?_quote (limit : Option Nat) (v : Value) (s : State) :
    ∃ log, v.quote.evaluate? limit s = some (.ok v, { s with log }) := by
  induction v generalizing s with
  | str text =>
    rw [quote, Expr.evaluate?_apply]
    exact ⟨_, rfl⟩
  | int n =>
    rw [quote, Expr.evaluate?_apply]
    exact ⟨_, rfl⟩
  | bool b =>
    rw [quote, Expr.evaluate?_apply]
    exact ⟨_, rfl⟩
  | tuple first second ih₁ ih₂ =>
    obtain ⟨log₁, hfirst⟩ := ih₁ (s.started (.tuple first.quote second.quote))
    obtain ⟨log₂, hsecond⟩ := ih₂ { s with log := log₁ }
    rw [quote, Expr.evaluate?_apply]
    exact ⟨log₂, (bind_of_ok hfirst).trans (bind_of_ok hsecond)⟩
  | closure f => exact ⟨_, Expr.evaluate?_function limit f.params f.body s⟩

theorem Evaluator.gives_of_evaluate? {ev : Evaluator} {env : Env} {e : Expr}
    (h : ∃ log, e.evaluate? ev.limit (ev.before env) = some (.ok v, { ev.before env with log })) :
    ev.Gives env e v := by
  obtain ⟨log, h⟩ := h
  refine ⟨log, ?_⟩
  rw [Evaluator.evaluate?, h]
  rfl

theorem Value.quote_gives (v : Value) (ev : Evaluator) (env : Env) : ev.Gives env v.quote v :=
  Evaluator.gives_of_evaluate? (v.evaluate?_quote ev.limit (ev.before env))

/-! ## What is done with values -/

/-- A pair that is said has the components that are said. -/
theorem Value.evaluate?_projection_quote {side : Side} {v' : Value}
    (h : v.project side = .ok v') :
    ∃ log, (Expr.projection side v.quote).evaluate? limit s = some (.ok v', { s with log }) := by
  obtain ⟨log, hquote⟩ := v.evaluate?_quote limit (s.started (.projection side v.quote))
  have hproject : (Eval.ofExcept (v.project side) : Eval Value) { s with log } =
      some (.ok v', { s with log }) := by
    rw [h]
    rfl
  rw [Expr.evaluate?_apply]
  exact ⟨log, (bind_of_ok hquote).trans hproject⟩

theorem Value.evaluate?_eq_quote :
    ∃ log, (Expr.binary "Eq" v.quote w.quote).evaluate? limit s =
      some (.ok (.bool (v = w)), { s with log }) := by
  obtain ⟨log₁, hlhs⟩ := v.evaluate?_quote limit (s.started (.binary "Eq" v.quote w.quote))
  obtain ⟨log₂, hrhs⟩ := w.evaluate?_quote limit { s with log := log₁ }
  have happly : Op.applyNamed "Eq" v w = .ok (.bool (v = w)) := Op.Yields.applyNamed_eq .equal
  refine ⟨log₂, ?_⟩
  rw [Expr.evaluate?_binary hlhs hrhs, happly]

/-! ## Two ways to a function

A function that is said is called like one that is looked up. What is noted on the way differs, so
the two calls are compared where nothing is noted. -/

/-- Only what becomes of its callee matters for a call. -/
theorem Expr.evaluate?_call_congr {callee callee' : Expr} {arguments : List Expr}
    (h : callee.evaluate? limit (s.started (.call callee arguments)) =
      callee'.evaluate? limit (s.started (.call callee arguments))) :
    (Expr.call callee arguments).evaluate? limit s =
      (Expr.call callee' arguments).evaluate? limit s := by
  rw [Expr.evaluate?_apply, Expr.evaluate?_apply]
  show (callee.evaluate? limit (s.started (.call callee arguments))).bind _ =
    (callee'.evaluate? limit (s.started (.call callee arguments))).bind _
  rw [h]

theorem State.started_of_off (h : s.log = Log.off) (e : Expr) : s.started e = s := by
  obtain ⟨env, depth, sink, log⟩ := s
  cases h
  rfl

theorem Expr.evaluate?_call_quote_off {x : String} {f : Lambda} (hlog : s.log = Log.off)
    (hx : s.env.get? x = some (.closure f)) (arguments : List Expr) :
    (Expr.call (Value.closure f).quote arguments).evaluate? limit s =
      (Expr.call (.var x) arguments).evaluate? limit s := by
  refine Expr.evaluate?_call_congr ?_
  rw [State.started_of_off hlog]
  have hquote : (Value.closure f).quote.evaluate? limit s = some (.ok (.closure f), s) := by
    rw [Value.quote, Expr.evaluate?_function, State.started_of_off hlog]
  have hvar : (Expr.var x).evaluate? limit s = some (.ok (.closure f), s) := by
    rw [Expr.evaluate?_apply, State.started_of_off hlog]
    exact Eval.lookup_of_some hx
  rw [hquote, hvar]

end

theorem Evaluation.Alike.trans {first second third : Evaluation} (h : first.Alike second)
    (h' : second.Alike third) : first.Alike third :=
  ⟨h'.result.trans h.result, h'.env.trans h.env, h'.sink.trans h.sink⟩

theorem Evaluation.Alike.rel_trans {first second third : Option Evaluation}
    (h : Option.Rel Evaluation.Alike first second) (h' : Option.Rel Evaluation.Alike second third) :
    Option.Rel Evaluation.Alike first third := by
  cases h with
  | none => exact h'
  | some h =>
    cases h' with
    | some h' => exact .some (h.trans h')

theorem Evaluator.alike_call_quote (ev : Evaluator) {env : Env} {x : String} {f : Lambda}
    (hx : env.get? x = some (.closure f)) (arguments : List Expr) :
    Option.Rel Evaluation.Alike (ev.evaluate? (.call (Value.closure f).quote arguments) env)
      (ev.evaluate? (.call (.var x) arguments) env) := by
  -- On the way to the function, the two calls differ in the log only.
  let silent : Evaluator := { ev with log := Log.off }
  have hquote := ev.alike_of_log silent rfl rfl rfl (.call (Value.closure f).quote arguments) env
  have hvar := silent.alike_of_log ev rfl rfl rfl (.call (.var x) arguments) env
  have hsame : silent.evaluate? (.call (Value.closure f).quote arguments) env =
      silent.evaluate? (.call (.var x) arguments) env :=
    congrArg (Option.map silent.after) (Expr.evaluate?_call_quote_off rfl hx arguments)
  rw [hsame] at hquote
  exact Evaluation.Alike.rel_trans hquote hvar

/-- Saying a value and evaluating it gives the value back, in every environment, under every limit
and on every sink, and has no effect. So the components of a pair that is said are those of the
pair, two values that are said are compared like the values, and a function that is said is called
like the same function under a name: with the same result, the same output and the same environment
afterwards, or also without an end. -/
theorem Evaluator.gives_quote (ev : Evaluator) (env : Env) :
    (∀ v, ev.Gives env v.quote v) ∧
    (∀ v w, ev.Gives env (.projection .first (Value.tuple v w).quote) v ∧
      ev.Gives env (.projection .second (Value.tuple v w).quote) w) ∧
    (∀ v w : Value, ev.Gives env (.binary "Eq" v.quote w.quote) (.bool (v = w))) ∧
    ∀ x f arguments, env.get? x = some (.closure f) →
      Option.Rel Evaluation.Alike (ev.evaluate? (.call (Value.closure f).quote arguments) env)
        (ev.evaluate? (.call (.var x) arguments) env) := by
  refine ⟨fun v => ?_, fun v w => ⟨?_, ?_⟩, fun v w => ?_, fun x f arguments hx => ?_⟩
  · exact v.quote_gives ev env
  · exact gives_of_evaluate? (Value.evaluate?_projection_quote rfl)
  · exact gives_of_evaluate? (Value.evaluate?_projection_quote rfl)
  · exact gives_of_evaluate? Value.evaluate?_eq_quote
  · exact ev.alike_call_quote hx arguments

/-- A call on a sink that is full after one byte: the argument binds a name, and the body fails to
print the whole line. -/
theorem Evaluator.gives_quote_failing :
    let f : Lambda := ⟨["y"], .print (.var "y")⟩
    let env := Env.empty.set "f" (.closure f)
    let ev := Evaluator.new (some 1) (Sink.limited (some 1) false) Log.off
    let arguments : List Expr := [.letIn "x" (.str "ab") (.var "x")]
    env.get? "f" = some (.closure f) ∧
    ∃ done, ev.evaluate? (.call (.var "f") arguments) env = some done ∧
      done.result = .error (.output .full) ∧ done.env.get? "x" = some (.str "ab") ∧
      done.evaluator.sink.written = "a".toUTF8 := by
  intro f env ev arguments
  have hf : env.get? "f" = some (.closure f) := by decide
  have hquote : ∃ done, ev.evaluate? (.call (Value.closure f).quote arguments) env = some done ∧
      done.result = .error (.output .full) ∧ done.env.get? "x" = some (.str "ab") ∧
      done.evaluator.sink.written = "a".toUTF8 := by
    refine ⟨⟨.error (.output .full), env.set "x" (.str "ab"), some 1, 0,
      (Sink.limited (some 1) false).append "a".toUTF8, Log.off⟩, ?_, rfl, rfl, rfl⟩
    exact Evaluator.evaluate?_of_within 3 rfl
  obtain ⟨done, hdone, hresult, henv, hwritten⟩ := hquote
  obtain ⟨-, -, -, hcall⟩ := Evaluator.gives_quote ev env
  obtain ⟨done', hdone', halike⟩ :=
    Correspondence.exists_of_some_rel (hcall "f" f arguments hf) hdone
  refine ⟨hf, done', hdone', halike.result.trans hresult, ?_, ?_⟩
  · rw [halike.env]
    exact henv
  · rw [halike.sink]
    exact hwritten

end TreeLang
