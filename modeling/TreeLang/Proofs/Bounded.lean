import TreeLang.Evaluator

/-!
# Evaluation with a limit ends

With a limit on nested calls, evaluation is a total function. A call goes on with a body that is no
part of the call, but inside one more call, and the check of the limit is made before. So the
number of calls that may still be entered becomes smaller with each body, while it stays the same
for callees, arguments and all other parts, which are smaller expressions.

`Expr.evalBounded` is the evaluator by recursion on these two numbers. It has an outcome in every
state, and `Expr.evaluate?` has the same.
-/

namespace TreeLang

mutual

/-- Evaluates an expression inside `depth` calls where no more than `limit` may be active. -/
def Expr.evalBounded (limit depth : Nat) (e : Expr) : EvalT Id Value := do
  Eval.start e
  match e with
  | .str text => pure (.str text)
  | .int value => pure (.int value)
  | .bool value => pure (.bool value)
  | .tuple first second => do
    let first ← first.evalBounded limit depth
    let second ← second.evalBounded limit depth
    pure (.tuple first second)
  | .projection side source => do
    let value ← source.evalBounded limit depth
    Eval.ofExcept (value.project side)
  | .binary op lhs rhs => do
    let lhs ← lhs.evalBounded limit depth
    let rhs ← rhs.evalBounded limit depth
    Eval.ofExcept (Op.applyNamed op lhs rhs)
  | .letIn name value next => do
    let value ← value.evalBounded limit depth
    Eval.assign name value
    next.evalBounded limit depth
  | .var name => Eval.lookup name
  | .print inner => do
    let value ← inner.evalBounded limit depth
    Eval.print value
    pure value
  | .cond condition consequent alternative => do
    let value ← condition.evalBounded limit depth
    if ← Eval.ofExcept value.truth then consequent.evalBounded limit depth
    else alternative.evalBounded limit depth
  | .function params body => pure (.closure ⟨params, body⟩)
  | .call callee arguments => do
    let value ← callee.evalBounded limit depth
    let f ← Eval.ofExcept (value.callee arguments.length)
    if limit ≤ depth then Eval.ofExcept (.error (.recursionLimit limit))
    else
      let frame ← Expr.bindBounded limit depth Env.empty f.params arguments
      -- The body is no part of the expression, but one call less may still be entered in it.
      Eval.inCall f.params frame (f.body.evalBounded limit (depth + 1))
termination_by (limit - depth, sizeOf e)

/-- Evaluates the arguments of a call in order and binds each to its parameter in `frame`. -/
def Expr.bindBounded (limit depth : Nat) (frame : Env) :
    List String → List Expr → EvalT Id Env
  | param :: params, argument :: arguments => do
    let value ← argument.evalBounded limit depth
    let frame ← Eval.ofExcept (frame.bindParam param value)
    Expr.bindBounded limit depth frame params arguments
  | _, _ => pure frame
termination_by _ arguments => (limit - depth, sizeOf arguments)

end

/-! ## Both evaluators agree

They agree on single steps, and wherever steps are put together that agree. -/

section Follows

variable {α β : Type} {limit depth : Nat}

/-- What follows a total step that succeeds goes on where the step ends. -/
theorem Eval.total_bind_of_ok {first : EvalT Id α} {next : α → EvalT Id β} {s t : State} {a : α}
    (h : first s = (.ok a, t)) : (first >>= next) s = next a t := by
  show (bind (m := Id) (first s) fun x => ExceptT.bindCont next x.1 x.2) = _
  rw [h]
  rfl

theorem Eval.total_bind_of_error {first : EvalT Id α} {next : α → EvalT Id β} {s t : State}
    {cause : EvalError} (h : first s = (.error cause, t)) :
    (first >>= next) s = (.error cause, t) := by
  show (bind (m := Id) (first s) fun x => ExceptT.bindCont next x.1 x.2) = _
  rw [h]
  rfl

/-- A total call ends as its body does, back in the frame of the caller. -/
theorem Eval.total_inCall_apply {params : List String} {arguments : Env} {body : EvalT Id α}
    {s : State} {x : Outcome α} (h : body (s.entered params arguments) = x) :
    Eval.inCall params arguments body s = (x.1, x.2.left s.env) := by
  have henter : (Eval.enter params arguments : EvalT Id Env) s =
      (.ok s.env, s.entered params arguments) := rfl
  have hattempt : Eval.attempt body (s.entered params arguments) = (.ok x.1, x.2) :=
    congrArg (fun x : Outcome α => (Except.ok x.1, x.2)) h
  refine (Eval.total_bind_of_ok henter).trans ((Eval.total_bind_of_ok hattempt).trans ?_)
  exact Eval.total_bind_of_ok rfl

/-- Inside `depth` calls the step ends as the total one does, and leaves the calls that it enters. -/
def Follows (depth : Nat) (step : Eval α) (total : EvalT Id α) : Prop :=
  ∀ s : State, s.depth = depth →
    ∃ x : Outcome α, total s = x ∧ step s = some x ∧ x.2.depth = depth

theorem Follows.act {f : State → Outcome α} (hf : ∀ s, (f s).2.depth = s.depth) :
    Follows depth (Eval.act f) (Eval.act f) :=
  fun s hs => ⟨f s, rfl, rfl, (hf s).trans hs⟩

theorem Follows.ofExcept {result : Except EvalError α} :
    Follows depth (Eval.ofExcept result) (Eval.ofExcept result) :=
  .act fun _ => rfl

theorem Follows.pure {a : α} : Follows depth (Pure.pure a) (Pure.pure a) :=
  Follows.ofExcept

theorem Follows.bind {first : Eval α} {first' : EvalT Id α} {next : α → Eval β}
    {next' : α → EvalT Id β} (h : Follows depth first first')
    (hnext : ∀ a, Follows depth (next a) (next' a)) :
    Follows depth (first >>= next) (first' >>= next') := by
  intro s hs
  obtain ⟨⟨cause | a, t⟩, htotal, hstep, ht⟩ := h s hs
  · exact ⟨_, Eval.total_bind_of_error htotal, Eval.bind_of_error hstep, ht⟩
  · obtain ⟨x, htotal', hstep', hx⟩ := hnext a t ht
    exact ⟨x, (Eval.total_bind_of_ok htotal).trans htotal',
      (Eval.bind_of_ok hstep).trans hstep', hx⟩

theorem Follows.lookup {name : String} :
    Follows depth (Eval.lookup name) (Eval.lookup name) :=
  .act (Eval.plain_lookup name).depth

theorem Follows.write {text : String} : Follows depth (Eval.write text) (Eval.write text) := by
  refine .act fun s => ?_
  split <;> rfl

theorem Follows.writeValue {value : Value} :
    Follows depth (Eval.writeValue value) (Eval.writeValue value) := by
  induction value with
  | tuple first second ih₁ ih₂ =>
    exact .bind .write fun _ => .bind ih₁ fun _ => .bind .write fun _ => .bind ih₂ fun _ => .write
  | _ => exact .write

theorem Follows.print {value : Value} : Follows depth (Eval.print value) (Eval.print value) :=
  .bind .writeValue fun _ => .write

/-- The check of the limit, and what is done where it passes. -/
theorem Follows.checkDepth {next : Unit → Eval α} {next' : EvalT Id α}
    (h : depth < limit → Follows depth (next ()) next') :
    Follows depth (Eval.checkDepth (some limit) >>= next)
      (if limit ≤ depth then Eval.ofExcept (.error (.recursionLimit limit)) else next') := by
  intro s hs
  rcases Eval.checkDepth_cases (some limit) s with ⟨hlt, hcheck⟩ | ⟨l, hl, hle, hcheck⟩
  · have hlt : depth < limit := hs ▸ hlt limit rfl
    rw [if_neg (by omega), Eval.bind_of_ok hcheck]
    exact h hlt s hs
  · obtain rfl : limit = l := Option.some.inj hl
    rw [if_pos (by omega), Eval.bind_of_error hcheck]
    exact ⟨_, rfl, rfl, hs⟩

theorem Follows.inCall {params : List String} {arguments : Env} {body : Eval α}
    {body' : EvalT Id α} (h : Follows (depth + 1) body body') :
    Follows depth (Eval.inCall params arguments body) (Eval.inCall params arguments body') := by
  intro s hs
  obtain ⟨x, htotal, hstep, hx⟩ := h (s.entered params arguments) (congrArg (· + 1) hs)
  refine ⟨_, Eval.total_inCall_apply htotal, Eval.inCall_of_some hstep, ?_⟩
  show x.2.depth - 1 = depth
  omega

end Follows

mutual

/-- The evaluation with a limit ends, as the total one does. -/
theorem Expr.follows_evalBounded (limit depth : Nat) (e : Expr) :
    Follows depth (e.evaluate? (some limit)) (e.evalBounded limit depth) := by
  rw [Expr.evaluate?_eq, Expr.evalVia, Expr.evalBounded.eq_def]
  refine .bind (.act fun _ => rfl) fun _ => ?_
  cases e with
  | str text => exact .pure
  | int value => exact .pure
  | bool value => exact .pure
  | tuple first second =>
    exact .bind (first.follows_evalBounded limit depth) fun _ =>
      .bind (second.follows_evalBounded limit depth) fun _ => .pure
  | projection side source =>
    exact .bind (source.follows_evalBounded limit depth) fun _ => .ofExcept
  | binary op lhs rhs =>
    exact .bind (lhs.follows_evalBounded limit depth) fun _ =>
      .bind (rhs.follows_evalBounded limit depth) fun _ => .ofExcept
  | letIn name value next =>
    exact .bind (value.follows_evalBounded limit depth) fun _ =>
      .bind (.act fun _ => rfl) fun _ => next.follows_evalBounded limit depth
  | var name => exact .lookup
  | print inner =>
    exact .bind (inner.follows_evalBounded limit depth) fun _ => .bind .print fun _ => .pure
  | cond condition consequent alternative =>
    refine .bind (condition.follows_evalBounded limit depth) fun _ => .bind .ofExcept fun truth => ?_
    cases truth with
    | true => exact consequent.follows_evalBounded limit depth
    | false => exact alternative.follows_evalBounded limit depth
  | function params body => exact .pure
  | call callee arguments =>
    refine .bind (callee.follows_evalBounded limit depth) fun _ => .bind .ofExcept fun f =>
      .checkDepth fun hdepth => ?_
    exact .bind (Expr.follows_bindBounded limit depth Env.empty f.params arguments) fun _ =>
      .inCall (f.body.follows_evalBounded limit (depth + 1))
termination_by (limit - depth, sizeOf e)

/-- The same for arguments. -/
theorem Expr.follows_bindBounded (limit depth : Nat) (frame : Env) (params : List String)
    (arguments : List Expr) :
    Follows depth (Expr.bindArguments (Expr.evaluate? (some limit)) frame params arguments)
      (Expr.bindBounded limit depth frame params arguments) := by
  cases params with
  | nil =>
    rw [Expr.bindBounded.eq_def]
    exact .pure
  | cons param params =>
    cases arguments with
    | nil =>
      rw [Expr.bindBounded.eq_def]
      exact .pure
    | cons argument arguments =>
      rw [Expr.bindBounded]
      exact .bind (argument.follows_evalBounded limit depth) fun _ => .bind .ofExcept fun frame =>
        Expr.follows_bindBounded limit depth frame params arguments
termination_by (limit - depth, sizeOf arguments)

end

/-- With a limit on nested calls the evaluator always answers, with a value or an error: whatever
the expression and the environment, however many calls are active already, and whatever the sink.
The answer is that of the total function. -/
theorem Evaluator.evaluate?_eq_bounded (limit depth : Nat) (sink : Sink) (log : Log) (e : Expr)
    (env : Env) :
    let ev : Evaluator := ⟨some limit, depth, sink, log⟩
    ev.evaluate? e env = some (ev.after (e.evalBounded limit depth (ev.before env))) := by
  intro ev
  obtain ⟨x, htotal, hstep, -⟩ := e.follows_evalBounded limit depth (ev.before env) rfl
  rw [Evaluator.evaluate?, htotal]
  exact congrArg (Option.map ev.after) hstep

end TreeLang
