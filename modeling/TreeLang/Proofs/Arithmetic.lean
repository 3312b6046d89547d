import TreeLang.Proofs.OperatorTable

/-!
# Arithmetic without bound

Sums, differences and products of integers may be reduced to 32 bits at any time. So an expression
of these has the value that unbounded integers have, reduced once at the end, whatever exceeds the
range on the way. `Arith.exact` evaluates such an expression with unbounded integers: in the same
order, and with bindings that stay for all that comes later. `Eval.Computes` says that a step of an
evaluation does what a step with unbounded integers does. It holds of all steps of such an
expression and is kept by putting steps together.
-/

namespace TreeLang

/-! ## Evaluation with unbounded integers -/

/-- The operators that can be reduced to 32 bits. -/
inductive RingOp where
  | add
  | sub
  | mul

namespace RingOp

/-- The operator of the language. -/
def toOp : RingOp → Op
  | add => .add
  | sub => .sub
  | mul => .mul

/-- The operator on unbounded integers. -/
def exact : RingOp → Int → Int → Int
  | add => (· + ·)
  | sub => (· - ·)
  | mul => (· * ·)

end RingOp

/-- An expression of integers, names, bindings, sums, differences and products. -/
inductive Arith where
  | int (n : Int32)
  | var (name : String)
  | letIn (name : String) (value next : Arith)
  | binary (op : RingOp) (lhs rhs : Arith)

/-- A step with unbounded integers. It may change what names are bound to. If it fails, then because
of a name that is not bound. -/
abbrev Exact := ExceptT String (StateM (String → Option Int))

namespace Exact

variable {α β : Type}

/-- Looks a name up. -/
def lookup (name : String) : Exact Int := fun z =>
  match z name with
  | some n => (.ok n, z)
  | none => (.error name, z)

/-- Binds a name, over what it was bound to. -/
def assign (name : String) (n : Int) : Exact Unit := fun z =>
  (.ok (), Function.update z name (some n))

theorem bind_of_ok {first : Exact α} {next : α → Exact β} {z z' : String → Option Int} {a : α}
    (h : first z = (.ok a, z')) : (first >>= next) z = next a z' := by
  show ExceptT.bindCont next (first z).1 (first z).2 = _
  rw [h]
  rfl

theorem bind_of_error {first : Exact α} {next : α → Exact β} {z z' : String → Option Int}
    {name : String} (h : first z = (.error name, z')) :
    (first >>= next) z = (.error name, z') := by
  show ExceptT.bindCont next (first z).1 (first z).2 = _
  rw [h]
  rfl

end Exact

namespace Arith

/-- The expression in the language. -/
def toExpr : Arith → Expr
  | int n => .int n
  | var name => .var name
  | letIn name value next => .letIn name value.toExpr next.toExpr
  | binary op lhs rhs => .binary op.toOp.name lhs.toExpr rhs.toExpr

/-- Evaluates with unbounded integers. -/
def exact : Arith → Exact Int
  | int n => pure n.toInt
  | var name => Exact.lookup name
  | letIn name value next => do
    let n ← value.exact
    Exact.assign name n
    next.exact
  | binary op lhs rhs => do
    let a ← lhs.exact
    let b ← rhs.exact
    pure (op.exact a b)

end Arith

/-! ## Reduction -/

/-- An integer, reduced to the only one of 32 bits that is congruent to it. -/
def Value.reduced (n : Int) : Value := .int (.ofInt n)

/-- The environment has the same names, and each is bound to the integer reduced to 32 bits. -/
def Env.Reduces (env : Env) (z : String → Option Int) : Prop :=
  ∀ name, env.get? name = (z name).map Value.reduced

theorem Env.Reduces.set {env : Env} {z : String → Option Int} (h : env.Reduces z) (name : String)
    (n : Int) : (env.set name (.reduced n)).Reduces (Function.update z name (some n)) := by
  intro other
  rw [Env.get?_set, Function.update_apply, apply_ite (Option.map Value.reduced), ← h other]
  rfl

/-- Operators commute with the reduction. -/
theorem RingOp.applyNamed_reduced (op : RingOp) (a b : Int) :
    Op.applyNamed op.toOp.name (.reduced a) (.reduced b) = .ok (.reduced (op.exact a b)) := by
  cases op with
  | add => exact congrArg (fun c => Except.ok (Value.int c)) (Int32.ofInt_add a b).symm
  | sub => exact congrArg (fun c => Except.ok (Value.int c)) (Int32.ofInt_sub a b).symm
  | mul => exact congrArg (fun c => Except.ok (Value.int c)) (Int32.ofInt_mul a b).symm

namespace Exact

/-- What an evaluation ends with where unbounded integers end with this. -/
def ending {α β : Type} (f : α → β) : Except String α → Except EvalError β
  | .ok a => .ok (f a)
  | .error name => .error (.undefinedVariable name)

end Exact

namespace Eval

variable {α β α' β' : Type} {f : α → β} {g : α' → β'}

/-- In an environment that binds names to reduced integers, the step ends like the step with
unbounded integers, and its environment binds names to the integers afterwards, reduced. It writes
nothing. -/
def Computes (f : α → β) (step : Eval β) (x : Exact α) : Prop :=
  ∀ s z, s.env.Reduces z → ∃ t, step s = some (Exact.ending f (x z).1, t) ∧
    t.env.Reduces (x z).2 ∧ t.sink = s.sink

namespace Computes

theorem bind {step : Eval β} {next : β → Eval β'} {x : Exact α} {y : α → Exact α'}
    (h : Computes f step x) (hnext : ∀ a, Computes g (next (f a)) (y a)) :
    Computes g (step >>= next) (x >>= y) := by
  intro s z hz
  obtain ⟨t, hstep, ht, hsink⟩ := h s z hz
  -- Both stop at the first name that is not bound, with the bindings made so far.
  rcases hx : x z with ⟨name | a, z'⟩
  · rw [hx] at hstep ht
    rw [Exact.bind_of_error hx]
    exact ⟨t, bind_of_error hstep, ht, hsink⟩
  · rw [hx] at hstep ht
    rw [Exact.bind_of_ok hx]
    obtain ⟨u, hu, hreduces, hsink'⟩ := hnext a t z' ht
    exact ⟨u, (bind_of_ok hstep).trans hu, hreduces, hsink'.trans hsink⟩

theorem pure (f : α → β) (a : α) : Computes f (Pure.pure (f a)) (Pure.pure a) :=
  fun s _ hz => ⟨s, rfl, hz, rfl⟩

theorem lookup (name : String) :
    Computes Value.reduced (Eval.lookup name) (Exact.lookup name) := by
  intro s z hz
  have hname := hz name
  rw [Exact.lookup]
  cases hn : z name with
  | none =>
    rw [hn] at hname
    exact ⟨s, lookup_of_none hname, hz, rfl⟩
  | some n =>
    rw [hn] at hname
    exact ⟨s, lookup_of_some hname, hz, rfl⟩

theorem assign (name : String) (n : Int) :
    Computes id (Eval.assign name (.reduced n)) (Exact.assign name n) :=
  fun s _ hz => ⟨s.assigned name (.reduced n), rfl, hz.set name n, rfl⟩

theorem operator (op : RingOp) (a b : Int) :
    Computes Value.reduced
      (Eval.ofExcept (Op.applyNamed op.toOp.name (.reduced a) (.reduced b)))
      (Pure.pure (op.exact a b)) := by
  rw [op.applyNamed_reduced]
  exact pure Value.reduced (op.exact a b)

/-- That the evaluation starts is noted in the log only. -/
theorem evaluate? {limit : Option Nat} {e : Expr} {x : Exact Int}
    (h : Computes Value.reduced (e.evalForm limit (Expr.evaluate? limit)) x) :
    Computes Value.reduced (e.evaluate? limit) x := by
  intro s z hz
  rw [Expr.evaluate?_apply]
  exact h (s.started e) z hz

end Computes

end Eval

/-- An expression computes what it computes with unbounded integers. -/
theorem Arith.computes (limit : Option Nat) (a : Arith) :
    Eval.Computes Value.reduced (a.toExpr.evaluate? limit) a.exact := by
  induction a with
  | int n =>
    -- A literal is in the range.
    have hn : Value.reduced n.toInt = .int n := congrArg Value.int (Int32.ofInt_toInt n)
    refine .evaluate? ?_
    show Eval.Computes Value.reduced (pure (.int n)) (pure n.toInt)
    rw [← hn]
    exact .pure Value.reduced n.toInt
  | var name => exact .evaluate? (.lookup name)
  | letIn name value next hvalue hnext =>
    -- The binding is made in the frame as well as in the exact one, so `next` starts from both.
    exact .evaluate? (hvalue.bind fun n => (Eval.Computes.assign name n).bind fun _ => hnext)
  | binary op lhs rhs hlhs hrhs =>
    exact .evaluate? (hlhs.bind fun a => hrhs.bind fun b => .operator op a b)

/-- Reducing at each step is the same as reducing once at the end. Let an environment bind names to
integers, each reduced to 32 bits. Then an expression of integers, names, bindings, sums,
differences and products ends in it with the value that unbounded integers give, reduced, or with
the error that the same name is not bound. In both cases the environment afterwards binds names to
the integers that the unbounded evaluation leaves, reduced. Nothing is written, and neither a limit
nor the sink matters. -/
theorem Evaluator.evaluate?_arith (ev : Evaluator) (a : Arith) {env : Env}
    {z : String → Option Int} (h : env.Reduces z) :
    ∃ done, ev.evaluate? a.toExpr env = some done ∧
      done.result = Exact.ending Value.reduced (a.exact z).1 ∧
      done.env.Reduces (a.exact z).2 ∧ done.evaluator.sink = ev.sink := by
  obtain ⟨t, ht, hreduces, hsink⟩ := a.computes ev.limit (ev.before env) z h
  exact ⟨_, Evaluator.evaluate?_eq_some.mpr ⟨_, ht, rfl⟩, rfl, hreduces, hsink⟩

/-- The first operand binds its name again, to a square that has more than 32 bits, and the second
one finds that. -/
theorem Evaluator.evaluate?_arith_leaking :
    let env := Env.empty.set "x" (.int (-1294967296))
    let z (name : String) : Option Int := if name = "x" then some 3000000000 else none
    let square : Arith := .letIn "x" (.binary .mul (.var "x") (.var "x")) (.var "x")
    let ev := Evaluator.new (some 0) Sink.fullDevice Log.off
    env.Reduces z ∧
    (∃ done, ev.evaluate? (Arith.binary .add square (.var "x")).toExpr env = some done ∧
      done.result = .ok (.reduced (2 * 3000000000 ^ 2)) ∧
      done.env.get? "x" = some (.reduced (3000000000 ^ 2))) ∧
    ∃ done, ev.evaluate? (Arith.binary .sub square (.var "y")).toExpr env = some done ∧
      done.result = .error (.undefinedVariable "y") ∧
      done.env.get? "x" = some (.reduced (3000000000 ^ 2)) := by
  intro env z square ev
  have henv : env.Reduces z := by
    intro name
    rw [Env.get?_set, Env.get?_empty, apply_ite (Option.map Value.reduced)]
    rfl
  refine ⟨henv, ?_, ?_⟩
  · obtain ⟨done, hdone, hresult, hreduces, -⟩ :=
      Evaluator.evaluate?_arith ev (.binary .add square (.var "x")) henv
    exact ⟨done, hdone, hresult, hreduces "x"⟩
  · obtain ⟨done, hdone, hresult, hreduces, -⟩ :=
      Evaluator.evaluate?_arith ev (.binary .sub square (.var "y")) henv
    exact ⟨done, hdone, hresult, hreduces "x"⟩

end TreeLang
