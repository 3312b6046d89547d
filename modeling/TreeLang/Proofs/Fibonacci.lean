import TreeLang.Proofs.Arguments
import TreeLang.Proofs.Arithmetic
import TreeLang.Proofs.Quotation

/-!
# Fibonacci numbers by recursion

A function has no bindings of its own, so a recursive one finds itself in the frame of its caller,
and the next call in the frame that inherits from that one. The program for Fibonacci numbers is
followed here through all of its calls: what each of them returns, and how deep they are nested.

The body of the function only computes. `Expr.Answers` says this of an expression, and has a rule
for each of the forms that the body consists of.
-/

namespace TreeLang

open Eval (bind_of_ok bind_of_error)

/-! ## Expressions that only compute -/

/-- Whatever is in the log by then, the expression ends with this result, and nothing but the log
changes. -/
def Expr.Answers (limit : Option Nat) (s : State) (e : Expr) (result : Except EvalError Value) :
    Prop :=
  ∀ log, ∃ log', e.evaluate? limit { s with log } = some (result, { s with log := log' })

namespace Expr.Answers

variable {limit : Option Nat} {s : State} {v w : Value}

theorem quote (v : Value) : v.quote.Answers limit s (.ok v) :=
  fun log => v.evaluate?_quote limit { s with log }

theorem var {name : String} (h : s.env.get? name = some v) :
    (Expr.var name).Answers limit s (.ok v) := by
  intro log
  rw [Expr.evaluate?_apply]
  exact ⟨_, Eval.lookup_of_some h⟩

theorem binary {op : String} {lhs rhs : Expr} {result : Except EvalError Value}
    (hlhs : lhs.Answers limit s (.ok v)) (hrhs : rhs.Answers limit s (.ok w))
    (hop : Op.applyNamed op v w = result) :
    (Expr.binary op lhs rhs).Answers limit s result := by
  intro log
  obtain ⟨log₁, hlhs⟩ := hlhs _
  obtain ⟨log₂, hrhs⟩ := hrhs log₁
  subst hop
  exact ⟨log₂, Expr.evaluate?_binary hlhs hrhs⟩

theorem binaryLhs {op : String} {lhs rhs : Expr} {cause : EvalError}
    (hlhs : lhs.Answers limit s (.error cause)) :
    (Expr.binary op lhs rhs).Answers limit s (.error cause) := by
  intro log
  obtain ⟨log', hlhs⟩ := hlhs _
  rw [Expr.evaluate?_apply]
  exact ⟨log', bind_of_error hlhs⟩

theorem cond {condition consequent alternative : Expr} {b : Bool}
    {result : Except EvalError Value} (hcondition : condition.Answers limit s (.ok (.bool b)))
    (hbranch : (if b then consequent else alternative).Answers limit s result) :
    (Expr.cond condition consequent alternative).Answers limit s result := by
  intro log
  obtain ⟨log₁, hcondition⟩ := hcondition _
  obtain ⟨log₂, hbranch⟩ := hbranch log₁
  rw [Expr.evaluate?_apply]
  refine ⟨log₂, (bind_of_ok hcondition).trans ((bind_of_ok rfl).trans ?_)⟩
  cases b with
  | true => exact hbranch
  | false => exact hbranch

/-- A call of a function of one parameter that a name is bound to. -/
theorem call {name param : String} {argument body : Expr} {result : Except EvalError Value}
    (hname : s.env.get? name = some (.closure ⟨[param], body⟩))
    (hadmits : ∀ l, limit = some l → s.depth < l) (hargument : argument.Answers limit s (.ok v))
    (hbody : body.Answers limit
      { s with env := (Env.empty.set param v).inherit s.env, depth := s.depth + 1 } result) :
    (Expr.call (.var name) [argument]).Answers limit s result := by
  intro log
  let started : State := { s with log }.started (.call (.var name) [argument])
  obtain ⟨log₁, hcallee⟩ : ∃ log₁, (Expr.var name).evaluate? limit started =
      some (.ok (.closure ⟨[param], body⟩), { s with log := log₁ }) := var hname _
  obtain ⟨log₂, hargument⟩ := hargument log₁
  let entered : State := { s with log := log₂ }.entered [param] (Env.empty.set param v)
  obtain ⟨log₃, hbody⟩ : ∃ log₃, body.evaluate? limit entered =
      some (result, { entered with log := log₃ }) := hbody _
  have harity : (⟨[param], body⟩ : Lambda).arity = [argument].length := rfl
  rw [Expr.evaluate?_call_eq hcallee harity hadmits]
  exact ⟨_, (bind_of_ok (Expr.bindArguments_of_ok hargument rfl)).trans (Eval.inCall_of_some hbody)⟩

/-- The same call where the limit does not admit it. -/
theorem callDepth {l : Nat} {name param : String} {argument body : Expr}
    (hname : s.env.get? name = some (.closure ⟨[param], body⟩)) (hdepth : l ≤ s.depth) :
    (Expr.call (.var name) [argument]).Answers (some l) s (.error (.recursionLimit l)) := by
  have hcallee : (Expr.var name).Answers (some l) s (.ok (.closure ⟨[param], body⟩)) := var hname
  intro log
  obtain ⟨log', hcallee⟩ := hcallee _
  rw [Expr.evaluate?_apply]
  exact ⟨log', (bind_of_ok hcallee).trans
    ((bind_of_ok rfl).trans (bind_of_error (Eval.checkDepth_of_le hdepth)))⟩

end Expr.Answers

/-! ## The program -/

/-- The Fibonacci numbers, and every integer below two itself. -/
def fibonacci (k : Int) : Int :=
  if k < 2 then k else fibonacci (k - 1) + fibonacci (k - 2)
termination_by k.toNat

theorem fibonacci_of_lt {k : Int} (h : k < 2) : fibonacci k = k := by
  rw [fibonacci, if_pos h]

theorem fibonacci_of_not_lt {k : Int} (h : ¬ k < 2) :
    fibonacci k = fibonacci (k - 1) + fibonacci (k - 2) := by
  rw [fibonacci, if_neg h]

namespace Fibonacci

/-- The function is called for an argument that is smaller by `c`. -/
def recur (c : Int32) : Expr := .call (.var "fib") [.binary "Sub" (.var "n") (.int c)]

/-- The body of the function. -/
def body : Expr :=
  .cond (.binary "Lt" (.var "n") (.int 2)) (.var "n") (.binary "Add" (recur 1) (recur 2))

/-- The function. Its own name is not bound in it. -/
def function : Lambda := ⟨["n"], body⟩

/-- The function is bound to its name and called. -/
def program (k : Int32) : Expr :=
  .letIn "fib" (.function function.params function.body) (.call (.var "fib") [.int k])

/-! ## The calls -/

/-- A frame in which the body is evaluated for `n`. -/
structure Frame (n : Int) (env : Env) : Prop where
  fib : env.get? "fib" = some (.closure function)
  n : env.get? "n" = some (.reduced n)

theorem Frame.of_caller {env : Env} (h : env.get? "fib" = some (.closure function)) (n : Int) :
    Frame n ((Env.empty.set "n" (.reduced n)).inherit env) where
  fib := by
    rw [Env.get?_inherit, Env.get?_set]
    exact h
  n := by
    rw [Env.get?_inherit, Env.get?_set]
    rfl

section

variable {limit : Option Nat} {s : State} {n : Int}

theorem condition_answers (h : Frame n s.env) (hmin : -2 ^ 31 ≤ n) (hmax : n < 2 ^ 31) :
    (Expr.binary "Lt" (.var "n") (.int 2)).Answers limit s (.ok (.bool (n < 2))) := by
  have hless : Op.applyNamed "Lt" (.reduced n) (.int 2) = .ok (.bool (n < 2)) := by
    rw [Value.reduced, Op.Yields.less.applyNamed_eq, Int32.toInt_ofInt_of_le hmin hmax]
    rfl
  exact .binary (.var h.n) (.quote (.int 2)) hless

/-- A call inside of the body ends like the body for the smaller argument, one call deeper. -/
theorem recur_answers {c : Int32} {result : Except EvalError Value} (h : Frame n s.env)
    (hadmits : ∀ l, limit = some l → s.depth < l)
    (hbody : ∀ env, Frame (n - c.toInt) env →
      body.Answers limit { s with env, depth := s.depth + 1 } result) :
    (recur c).Answers limit s result := by
  have hsub : Op.applyNamed "Sub" (.reduced n) (.int c) = .ok (.reduced (n - c.toInt)) := by
    have h := RingOp.sub.applyNamed_reduced n c.toInt
    rwa [Value.reduced, Value.reduced, Int32.ofInt_toInt] at h
  exact .call h.fib hadmits (.binary (.var h.n) (.quote (.int c)) hsub)
    (hbody _ (.of_caller h.fib _))

/-- Where enough calls are admitted, the body returns the Fibonacci number. The counter is the same
for both calls inside of it, so the first of them, which goes deeper, decides how many are needed. -/
theorem body_answers (h : Frame n s.env) (hmin : -2 ^ 31 ≤ n) (hmax : n < 2 ^ 31)
    (hlimit : ∀ l, limit = some l → s.depth + (n - 1).toNat ≤ l) :
    body.Answers limit s (.ok (.reduced (fibonacci n))) := by
  -- Along the recursion of the numbers the depth grows by one while the argument gets smaller by one
  -- at least, so what is asked of the limit is kept.
  induction n using fibonacci.induct generalizing s with
  | case1 n hlt =>
    refine .cond (condition_answers h hmin hmax) ?_
    rw [decide_eq_true hlt, fibonacci_of_lt hlt]
    exact .var h.n
  | case2 n hge ih₁ ih₂ =>
    have hadmits : ∀ l, limit = some l → s.depth < l := by
      intro l hl
      have := hlimit l hl
      omega
    have hfirst : (recur 1).Answers limit s (.ok (.reduced (fibonacci (n - 1)))) := by
      refine recur_answers h hadmits fun env henv => ih₁ henv (by omega) (by omega) ?_
      intro l hl
      have := hlimit l hl
      show s.depth + 1 + (n - 1 - 1).toNat ≤ l
      omega
    have hsecond : (recur 2).Answers limit s (.ok (.reduced (fibonacci (n - 2)))) := by
      refine recur_answers h hadmits fun env henv => ih₂ henv (by omega) (by omega) ?_
      intro l hl
      have := hlimit l hl
      show s.depth + 1 + (n - 2 - 1).toNat ≤ l
      omega
    refine .cond (condition_answers h hmin hmax) ?_
    rw [decide_eq_false hge, fibonacci_of_not_lt hge]
    exact .binary hfirst hsecond (RingOp.add.applyNamed_reduced _ _)

/-- Where a call is missing, the first of the calls inside of the body finds that out. -/
theorem body_exceeds {l : Nat} (h : Frame n s.env) (hmin : -2 ^ 31 ≤ n) (hmax : n < 2 ^ 31)
    (hdepth : s.depth ≤ l) (hl : l < s.depth + (n - 1).toNat) :
    body.Answers (some l) s (.error (.recursionLimit l)) := by
  induction n using fibonacci.induct generalizing s with
  | case1 n hlt => omega
  | case2 n hge ih _ =>
    -- The second call is never reached, so nothing is needed of it.
    have hfirst : (recur 1).Answers (some l) s (.error (.recursionLimit l)) := by
      rcases hdepth.eq_or_lt with heq | hlt
      · exact .callDepth h.fib heq.ge
      · refine recur_answers h (by rintro _ ⟨⟩; exact hlt) fun env henv => ?_
        refine ih henv (by omega) (by omega) hlt ?_
        show l < s.depth + 1 + (n - 1 - 1).toNat
        omega
    refine .cond (condition_answers h hmin hmax) ?_
    rw [decide_eq_false hge]
    exact .binaryLhs hfirst

/-! ## The program as a whole -/

/-- The call from outside ends like the body. -/
theorem call_answers {k : Int32} {result : Except EvalError Value}
    (hfib : s.env.get? "fib" = some (.closure function))
    (hadmits : ∀ l, limit = some l → s.depth < l)
    (hbody : ∀ env, Frame k.toInt env →
      body.Answers limit { s with env, depth := s.depth + 1 } result) :
    (Expr.call (.var "fib") [.int k]).Answers limit s result := by
  have hframe := Frame.of_caller hfib k.toInt
  rw [Value.reduced, Int32.ofInt_toInt] at hframe
  exact .call hfib hadmits (.quote (.int k)) (hbody _ hframe)

theorem call_returns {k : Int32} (hfib : s.env.get? "fib" = some (.closure function))
    (hlimit : ∀ l, limit = some l → s.depth + (max 1 k.toInt).toNat ≤ l) :
    (Expr.call (.var "fib") [.int k]).Answers limit s (.ok (.reduced (fibonacci k.toInt))) := by
  refine call_answers hfib (fun l hl => ?_) fun env hframe =>
    body_answers hframe (Int32.le_toInt k) (Int32.toInt_lt k) fun l hl => ?_
  · have := hlimit l hl
    omega
  · have := hlimit l hl
    show s.depth + 1 + (k.toInt - 1).toNat ≤ l
    omega

theorem call_exceeds {k : Int32} {l : Nat} (hfib : s.env.get? "fib" = some (.closure function))
    (hdepth : s.depth ≤ l) (hl : l < s.depth + (max 1 k.toInt).toNat) :
    (Expr.call (.var "fib") [.int k]).Answers (some l) s (.error (.recursionLimit l)) := by
  rcases hdepth.eq_or_lt with heq | hlt
  · exact .callDepth hfib heq.ge
  · refine call_answers hfib (by rintro _ ⟨⟩; exact hlt) fun env hframe =>
      body_exceeds hframe (Int32.le_toInt k) (Int32.toInt_lt k) hlt ?_
    show l < s.depth + 1 + (k.toInt - 1).toNat
    omega

/-- The program binds the function and ends like the call. -/
theorem program_ends {k : Int32} {result : Except EvalError Value} (ev : Evaluator) (env : Env)
    (hcall : (Expr.call (.var "fib") [.int k]).Answers ev.limit
      (ev.before (env.set "fib" (.closure function))) result) :
    ∃ log, ev.evaluate? (program k) env =
      some ⟨result, env.set "fib" (.closure function), { ev with log }⟩ := by
  let s := ev.before env
  have hvalue := Expr.evaluate?_function ev.limit function.params function.body
    (s.started (program k))
  obtain ⟨log, hcall⟩ := hcall _
  have hprogram : (program k).evaluate? ev.limit s =
      some (result, { s with env := env.set "fib" (.closure function), log }) := by
    rw [program, Expr.evaluate?_apply]
    exact (bind_of_ok hvalue).trans ((bind_of_ok rfl).trans hcall)
  exact ⟨log, Evaluator.evaluate?_eq_some.mpr ⟨_, hprogram, rfl⟩⟩

end

/-- The program computes the Fibonacci number of every argument, reduced to 32 bits, and needs
`max 1 k` nested calls for that: under a smaller limit it ends with the error of the limit. It writes
nothing in either case, whatever the environment and the sink. -/
theorem evaluate?_program (k : Int32) (env : Env) (sink : Sink) (log : Log) :
    let ending? (limit : Option Nat) : Option (Except EvalError Value × Sink) :=
      ((Evaluator.new limit sink log).evaluate? (program k) env).map fun done =>
        (done.result, done.evaluator.sink)
    let value : Value := .int (.ofInt (fibonacci k.toInt))
    ending? none = some (.ok value, sink) ∧
    ∀ l : Nat, ending? (some l) =
      some (if max 1 k.toInt ≤ l then .ok value else .error (.recursionLimit l), sink) := by
  intro ending? value
  have hends : ∀ {limit : Option Nat} {result : Except EvalError Value},
      (∀ s : State, s.depth = 0 → s.env.get? "fib" = some (.closure function) →
        (Expr.call (.var "fib") [.int k]).Answers limit s result) →
      ending? limit = some (result, sink) := by
    intro limit result hcall
    have hfib : (env.set "fib" (.closure function)).get? "fib" = some (.closure function) := by
      rw [Env.get?_set, if_pos rfl]
    obtain ⟨log', h⟩ := program_ends (.new limit sink log) env (hcall _ rfl hfib)
    exact congrArg (Option.map _) h
  refine ⟨hends fun s _ hfib => call_returns hfib nofun, fun l => hends fun s hs hfib => ?_⟩
  split
  · refine call_returns hfib ?_
    rintro _ ⟨⟩
    omega
  · exact call_exceeds hfib (by omega) (by omega)

end Fibonacci

end TreeLang
