import TreeLang.Proofs.Agreement
import TreeLang.Proofs.Contract

/-!
# Bindings stay in their frame

An evaluation binds only names that the expression itself binds, outside its function literals, and
it unbinds nothing. The bodies of functions may bind any names, but they do so in frames of their
own: what is left to the caller of a function are the bindings of the callee expression and of the
arguments. All of this holds whether the evaluation succeeds or fails.
-/

namespace TreeLang

mutual

/-- The names that an expression binds in its own frame. -/
def Expr.binds : Expr → List String
  | .tuple first second => first.binds ++ second.binds
  | .projection _ source => source.binds
  | .binary _ lhs rhs => lhs.binds ++ rhs.binds
  | .letIn name value next => name :: (value.binds ++ next.binds)
  | .print inner => inner.binds
  | .cond condition consequent alternative =>
    condition.binds ++ (consequent.binds ++ alternative.binds)
  | .call callee arguments => callee.binds ++ Expr.bindsAll arguments
  | .str _ | .int _ | .bool _ | .var _ | .function _ _ => []

/-- The names that expressions bind in their frame. -/
def Expr.bindsAll : List Expr → List String
  | [] => []
  | e :: rest => e.binds ++ Expr.bindsAll rest

end

theorem Expr.mem_bindsAll {name : String} {es : List Expr} :
    name ∈ Expr.bindsAll es ↔ ∃ e ∈ es, name ∈ e.binds := by
  induction es with
  | nil => simp [Expr.bindsAll]
  | cons e rest ih => simp [Expr.bindsAll, ih]

/-- What an operand binds is bound by the whole expression. -/
theorem Expr.binds_operand {e part : Expr} {name : String} (hpart : part ∈ e.operands)
    (hname : name ∈ part.binds) : name ∈ e.binds := by
  cases e with
  | str _ | int _ | bool _ | var _ | function _ _ => cases hpart
  | call callee arguments =>
    simp only [Expr.binds, List.mem_append, Expr.mem_bindsAll]
    rcases List.mem_cons.mp hpart with rfl | hmem
    · exact .inl hname
    · exact .inr ⟨part, hmem, hname⟩
  | _ =>
    simp only [Expr.operands, List.mem_cons, List.not_mem_nil, or_false] at hpart
    simp only [Expr.binds, List.mem_cons, List.mem_append]
    grind

/-- A later state of a frame, in which only names of the list were bound since. -/
structure Env.BindsOnly (names : List String) (start env : Env) : Prop where
  /-- All other names are bound to what they were bound to, or still not bound. -/
  same : ∀ name, name ∉ names → env.get? name = start.get? name
  /-- What was bound is bound. -/
  bound : ∀ name, start.contains name = true → env.contains name = true

theorem Env.BindsOnly.refl (names : List String) (env : Env) : env.BindsOnly names env :=
  ⟨fun _ _ => rfl, fun _ h => h⟩

theorem Env.BindsOnly.set {names : List String} {start env : Env} (h : start.BindsOnly names env)
    {name : String} (hname : name ∈ names) (value : Value) :
    start.BindsOnly names (env.set name value) := by
  refine ⟨fun other hother => ?_, fun other hother => ?_⟩
  · have hne : other ≠ name := fun heq => hother (heq ▸ hname)
    rw [Env.get?_set, if_neg hne]
    exact h.same other hother
  · exact Env.contains_set.mpr (.inr (h.bound other hother))

/-- In a frame that started as `start`, expressions bind names of the list only. -/
def Contract.frame : Contract (List String × Env) where
  expr := fun (names, _) e => ∀ name ∈ e.binds, name ∈ names
  env := fun (names, start) env => start.BindsOnly names env
  value := fun _ _ => True
  error := fun _ _ _ => True

/-- The body of a function starts in a frame of its own, of which nothing has to be given back. -/
theorem Contract.kept_frame (limit : Option Nat) : Contract.frame.Kept limit where
  operand := fun he hpart name hname => he name (Expr.binds_operand hpart hname)
  atom := fun _ => trivial
  tuple := ⟨fun _ => ⟨trivial, trivial⟩, fun _ => trivial⟩
  closure := fun _ => trivial
  lookup := fun _ _ _ _ => trivial
  assign := by
    intro (names, start) env name value next v he henv _
    exact henv.set (he name (by simp [Expr.binds])) v
  call := by
    intro i f env frame _ _ _
    exact ⟨(f.body.binds, frame.inherit env), fun _ h => h, .refl _ _, fun _ _ => trivial,
      fun _ _ _ _ => trivial⟩
  raise := fun _ _ _ => trivial

/-- An evaluation binds no other names than its expression does, and unbinds none. -/
theorem Expr.bindsOnly_evaluate? {limit : Option Nat} {e : Expr} {s : State} {x : Outcome Value}
    (h : e.evaluate? limit s = some x) : s.env.BindsOnly e.binds x.2.env := by
  have hkeeps : Contract.frame.Keeps (e.binds, s.env) (fun _ => True) (e.evaluate? limit) :=
    (Contract.kept_frame limit).evaluate? fun _ hname => hname
  exact (hkeeps s x (.refl _ _) h).env

/-- Bindings stay in their frame. Whether an evaluation succeeds or fails, each name that the
expression does not bind outside its function literals is bound to what it was bound to before, or
is not bound as before; and what was bound is still bound. A call in particular, whatever function
is called and however many calls are active, changes no binding of its caller that is not bound in
the callee expression or in an argument. -/
theorem Evaluator.evaluate?_frame {ev : Evaluator} {e : Expr} {env : Env} {done : Evaluation}
    (h : ev.evaluate? e env = some done) :
    (∀ name, name ∉ e.binds → done.env.get? name = env.get? name) ∧
    (∀ name, env.contains name = true → done.env.contains name = true) ∧
    ∀ callee arguments, e = .call callee arguments →
      ∀ name, name ∉ callee.binds → (∀ argument ∈ arguments, name ∉ argument.binds) →
        done.env.get? name = env.get? name := by
  unfold Evaluator.evaluate? at h
  obtain ⟨x, hx, rfl⟩ := Option.map_eq_some_iff.mp h
  have hbinds : env.BindsOnly e.binds x.2.env := Expr.bindsOnly_evaluate? hx
  refine ⟨hbinds.same, hbinds.bound, ?_⟩
  rintro callee arguments rfl name hcallee harguments
  refine hbinds.same name fun hname => ?_
  rw [Expr.binds, List.mem_append, Expr.mem_bindsAll] at hname
  rcases hname with hname | ⟨argument, hmem, hname⟩
  · exact hcallee hname
  · exact harguments argument hmem hname

/-- A function that binds a name of its caller and then fails leaves the name to its caller as it
was, while the binding in the argument stays. -/
theorem Evaluator.evaluate?_frame_failing :
    let e : Expr := .call (.function ["n"] (.letIn "x" (.var "n") (.var "z")))
      [.letIn "y" (.int 2) (.var "y")]
    let env := Env.empty.set "x" (.int 1)
    ∃ done, (Evaluator.new none Sink.unlimited Log.off).evaluate? e env = some done ∧
      done.result = .error (.undefinedVariable "z") ∧ done.env.get? "x" = some (.int 1) ∧
      done.env.contains "n" = false ∧ done.env.get? "y" = some (.int 2) := by
  intro e env
  have hbody : Evaluates none 0 e env (.error (.undefinedVariable "z")) (env.set "y" (.int 2)) _ :=
    .callBody .function rfl nofun (.cons (.letIn .int (.var rfl)) rfl .nil)
      (.letNext (.var rfl) (.varUnbound rfl))
  obtain ⟨t, ht, henv, -⟩ := hbody.ends ⟨env, 0, Sink.unlimited, Log.off⟩ rfl rfl rfl
  have hdone : (Evaluator.new none Sink.unlimited Log.off).evaluate? e env =
      some ((Evaluator.new none Sink.unlimited Log.off).after
        (.error (.undefinedVariable "z"), t)) := by
    rw [Evaluator.evaluate?]
    exact congrArg _ ht
  obtain ⟨hsame, -, hcall⟩ := Evaluator.evaluate?_frame hdone
  refine ⟨_, hdone, rfl, ?_, ?_, ?_⟩
  · exact hcall _ _ rfl "x" (by decide) (by decide)
  · rw [Env.contains, hsame "n" (by decide)]
    rfl
  · show t.env.get? "y" = _
    rw [henv]
    rfl

end TreeLang
