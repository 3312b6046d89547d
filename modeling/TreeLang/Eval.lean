import TreeLang.Eval.Simulation

/-!
# Evaluation

The body of a function that is called is no part of the expression that calls it, so an evaluation
may go on forever. `Expr.evaluate?` is the least function that does what `Expr.evalVia` says an
expression does, with itself for the parts and bodies. It has no result exactly if the evaluation
does not end.
-/

namespace TreeLang

/-- The relation between an evaluation and one that ends whenever it does, in the same way. -/
theorem Eval.simulation_extends (limit : Option Nat) :
    Eval.Simulation limit (fun _ : Unit => limit) fun s x second => second () s = some x where
  act := fun _ _ _ h => h
  write := fun _ _ _ h => h
  checkDepth := fun _ _ h => h
  bind := by
    intro α β first second next next' hfirst hnext s x h
    rcases Eval.bind_eq_some h with ⟨a, t, h₁, h₂⟩ | ⟨cause, t, h₁, rfl⟩
    · exact (Eval.bind_of_ok (hfirst s _ h₁)).trans (hnext a t x h₂)
    · exact Eval.bind_of_error (hfirst s _ h₁)
  inCall := by
    intro params arguments first second h s x hx
    obtain ⟨y, hy, rfl⟩ := Eval.inCall_eq_some hx
    exact Eval.inCall_of_some (h _ y hy)

/-- Evaluates an expression where no more than `limit` calls may be active, if there is a limit.
There is no result if the evaluation does not end. -/
def Expr.evaluate? (limit : Option Nat) (e : Expr) (s : State) : Option (Outcome Value) :=
  e.evalVia limit (fun part => part |>.evaluate? limit) s
partial_fixpoint monotonicity by
  -- The order on partial functions says that the larger one extends the smaller one.
  intro self self' hself e s
  have hextends : ∀ e s x, self e s = some x → self' e s = some x := by
    intro e s x hx
    have h := hself e s
    rw [hx] at h
    generalize self' e s = y at h
    cases h
    rfl
  have hself' : ∀ e, Eval.Simulates (fun s x second => second () s = some x) (self e)
      fun _ : Unit => self' e := hextends
  have hstep : ∀ x, e.evalVia limit self s = some x → e.evalVia limit self' s = some x :=
    (Eval.simulation_extends limit).evalVia hself' e s
  dsimp only
  cases hx : Expr.evalVia limit self e s with
  | none => exact .bot
  | some x =>
    rw [hstep x hx]
    exact .refl

/-- Evaluating an expression is doing what it says. -/
theorem Expr.evaluate?_eq (limit : Option Nat) :
    Expr.evaluate? limit = Expr.evalVia limit (Expr.evaluate? limit) := by
  funext e s
  rw [Expr.evaluate?]

/-- An evaluation does what the form of its expression does, once that is noted. -/
theorem Expr.evaluate?_apply (limit : Option Nat) (e : Expr) (s : State) :
    e.evaluate? limit s = e.evalForm limit (Expr.evaluate? limit) (s.started e) :=
  (congrFun (congrFun (Expr.evaluate?_eq limit) e) s).trans (Expr.evalVia_apply ..)

/-- What is kept by doing what an expression says is kept by its evaluation. -/
theorem Expr.evaluate?_induction (limit : Option Nat) (motive : Expr → State → Outcome Value → Prop)
    (step : ∀ self : Expr → Eval Value, (∀ e s x, self e s = some x → motive e s x) →
      ∀ e s x, e.evalVia limit self s = some x → motive e s x)
    {e : Expr} {s : State} {x : Outcome Value} (h : e.evaluate? limit s = some x) :
    motive e s x :=
  Expr.evaluate?.partial_correctness limit motive step e s x h

/-- Evaluations are related if their steps are. -/
theorem Eval.Simulation.evaluate? {ι : Type} {limit : Option Nat} {limits : ι → Option Nat}
    {rel : ∀ {α : Type}, State → Outcome α → (ι → Eval α) → Prop}
    (h : Eval.Simulation limit limits rel) (e : Expr) :
    Eval.Simulates rel (e.evaluate? limit) fun i => e.evaluate? (limits i) := by
  intro s x hx
  refine Expr.evaluate?_induction limit
    (fun e s x => rel s x fun i => e.evaluate? (limits i)) ?_ hx
  intro self hself e s x hx
  have hself' : ∀ e, Eval.Simulates rel (self e) fun i => e.evaluate? (limits i) := hself
  have hstep := h.evalVia hself' e s x hx
  have heq : (fun i => e.evaluate? (limits i)) =
      fun i => e.evalVia (limits i) (Expr.evaluate? (limits i)) := by
    funext i
    exact congrFun (Expr.evaluate?_eq (limits i)) e
  rw [heq]
  exact hstep

/-- The evaluation of an expression, given up where parts and bodies nest deeper than `height`. It
computes, so it settles what becomes of a closed expression whose evaluation ends. -/
def Expr.evalWithin (limit : Option Nat) : (height : Nat) → Expr → Eval Value
  | 0 => fun _ _ => none
  | height + 1 => Expr.evalVia limit (Expr.evalWithin limit height)

theorem Expr.evaluate?_of_within {limit : Option Nat} {e : Expr} {s : State} {x : Outcome Value}
    (height : Nat) (h : e.evalWithin limit height s = some x) : e.evaluate? limit s = some x := by
  induction height generalizing e s x with
  | zero => cases h
  | succ height ih =>
    have hself : ∀ e : Expr, Eval.Simulates (fun s x second => second () s = some x)
        (e.evalWithin limit height) fun _ : Unit => e.evaluate? limit := fun e s x hx => ih hx
    rw [Expr.evaluate?_eq]
    exact (Eval.simulation_extends limit).evalVia hself e s x h

end TreeLang
