import Mathlib.Tactic.ByContra
import TreeLang.Evaluator
import TreeLang.Proofs.Code
import TreeLang.Proofs.Moments

/-!
# Names that are not found

The body of a function starts in a frame that has all names of its caller, so a name that is bound
where a call is entered is bound throughout the call, in its own frame and in those of all calls
inside. This is how a recursive function finds itself. Read the other way, a name that is not found
in some frame is not bound in any frame below it, down to that with which the evaluation starts,
before the evaluation and after it.
-/

namespace TreeLang

/-- What is bound in the one frame is bound in the other one, maybe to something else. -/
def Env.BoundIn (env later : Env) : Prop :=
  ∀ name, env.contains name = true → later.contains name = true

theorem Env.BoundIn.refl (env : Env) : env.BoundIn env := fun _ h => h

theorem Env.BoundIn.trans {env later last : Env} (h : env.BoundIn later) (h' : later.BoundIn last) :
    env.BoundIn last := fun name hname => h' name (h name hname)

theorem Env.BoundIn.set {env later : Env} (h : env.BoundIn later) (name : String) (value : Value) :
    env.BoundIn (later.set name value) :=
  fun other hother => Env.contains_set.mpr (.inr (h other hother))

/-- The frame of a call has the names of the caller. -/
theorem Env.boundIn_inherit (frame caller : Env) : caller.BoundIn (frame.inherit caller) := by
  intro name hname
  unfold Env.contains at hname ⊢
  rw [Env.get?_inherit, Option.isSome_or, hname, Bool.or_true]

theorem Env.BoundIn.not_contains {env later : Env} (h : env.BoundIn later) {name : String}
    (hname : later.contains name = false) : env.contains name = false := by
  by_contra hbound
  have hlater := h name (eq_true_of_ne_false hbound)
  rw [hname] at hlater
  cases hlater

/-! ## Errors -/

/-- Nothing is unbound, and a name that is not found is not bound in the frame that is left. -/
def Contract.names : Contract Env where
  expr := fun _ _ => True
  env := fun start env => start.BoundIn env
  value := fun _ _ => True
  error := fun _ env cause => ∀ name, cause = .undefinedVariable name → env.contains name = false

/-- Only the look-up of a name raises the error that it is not bound. -/
theorem Expr.Raises.not_contains {limit : Option Nat} {values : Value → Prop} {env : Env} {e : Expr}
    {name : String} (h : e.Raises limit values env (.undefinedVariable name)) :
    env.contains name = false := by
  cases h with
  | unbound hname => rw [Env.contains, hname, Option.isSome_none]
  | projection _ hproject => cases Value.project_eq_error hproject
  | binary _ _ happly =>
    rcases Op.applyNamed_eq_error happly with ⟨-, h⟩ | ⟨_, -, -, h⟩ | ⟨_, h⟩
    all_goals cases h
  | condition _ htruth => cases Value.truth_eq_error htruth
  | callee _ hcallee =>
    rcases Value.callee_eq_error hcallee with ⟨-, h⟩ | ⟨_, -, -, h⟩
    all_goals cases h

/-- What the body of a function does not find is not bound in the frame of the caller either, which
has no other names than the frame of the body had at its start. -/
theorem Contract.kept_names (limit : Option Nat) : Contract.names.Kept limit where
  operand := fun _ _ => trivial
  atom := fun _ => trivial
  tuple := ⟨fun _ => ⟨trivial, trivial⟩, fun _ => trivial⟩
  closure := fun _ => trivial
  lookup := fun _ _ _ _ => trivial
  assign := fun _ henv _ => henv.set _ _
  call := by
    intro start f env frame _ _ _
    refine ⟨frame.inherit env, trivial, .refl _, fun _ _ => trivial, ?_⟩
    intro env' cause henv' hcause name hname
    have hcaller : env.BoundIn env' := (Env.boundIn_inherit frame env).trans henv'
    exact hcaller.not_contains (hcause name hname)
  raise := by
    rintro start e env _ _ _ h name rfl
    exact h.not_contains

theorem Expr.names_evaluate? {limit : Option Nat} {e : Expr} {s : State} {x : Outcome Value}
    (h : e.evaluate? limit s = some x) : Contract.names.Met s.env (fun _ => True) x :=
  (Contract.kept_names limit).evaluate? (i := s.env) trivial s x (.refl _) h

/-! ## Moments -/

section

variable {limit : Option Nat} {e part : Expr} {s t : State} {k : Nat}

/-- Arguments that are bound unbind nothing. -/
theorem Expr.boundIn_bindArguments {params : List String} {arguments : List Expr} {frame : Env}
    {x : Outcome Env}
    (h : Expr.bindArguments (Expr.evaluate? limit) frame params arguments s = some x) :
    s.env.BoundIn x.2.env := by
  have hkeeps : Contract.names.Keeps s.env (Env.All fun _ => True)
      (Expr.bindArguments (Expr.evaluate? limit) frame params arguments) :=
    .bindArguments (frame.names ++ params) frame.names
      (fun _ _ => (Contract.kept_names limit).evaluate? trivial) (fun _ _ _ _ _ => nofun) rfl
      (fun name => (frame.contains_iff name).mp) fun _ _ _ => trivial
  exact (hkeeps s x (.refl _) h).env

/-- What is bound at a moment is bound at the next one. -/
theorem Expr.Starts.boundIn (h : e.Starts limit s k part t) : s.env.BoundIn t.env := by
  have hended : ∀ {operand : Expr} {x : Outcome Value},
      operand.evaluate? limit (s.started e) = some x → s.env.BoundIn x.2.env :=
    fun hx => (Expr.names_evaluate? hx).env
  cases h with
  | first _ => exact .refl _
  | tupleSecond hfirst => exact hended hfirst
  | binaryRhs hlhs => exact hended hlhs
  | letNext hvalue => exact (hended hvalue).set _ _
  | branch hcondition => exact hended hcondition
  | argument hcallee _ _ hearlier =>
    exact (hended hcallee).trans (Expr.boundIn_bindArguments hearlier)
  | body hcallee _ _ harguments =>
    have hcaller := (hended hcallee).trans (Expr.boundIn_bindArguments harguments)
    exact hcaller.trans (Env.boundIn_inherit _ _)

/-- What is bound when an evaluation starts is bound at each of its moments, in the frame of that
moment. -/
theorem Expr.ComesTo.boundIn (h : e.ComesTo limit s k part t) : s.env.BoundIn t.env := by
  induction h with
  | here => exact .refl _
  | next _ hstarts ih => exact ih.trans hstarts.boundIn

end

/-- A name that is not found, in however many calls, is not bound in the environment in which the
evaluation starts, neither before the evaluation nor after it. For a call has the names of its
caller: what is bound in the frame `u.env` where a body is entered is bound at each moment of the
body, in its frame and in the frames of all calls inside, and still is when what starts at that
moment has ended. -/
theorem Evaluator.evaluate?_undefined (ev : Evaluator) :
    (∀ e env done name, ev.evaluate? e env = some done →
      done.result = .error (.undefinedVariable name) →
        env.contains name = false ∧ done.env.contains name = false) ∧
    ∀ (u : State) params arguments body k part t,
      Expr.ComesTo ev.limit body (u.entered params arguments) k part t →
        u.env.BoundIn t.env ∧
        ∀ x, part.evaluate? ev.limit t = some x → u.env.BoundIn x.2.env := by
  constructor
  · intro e env done name h hname
    unfold Evaluator.evaluate? at h
    obtain ⟨x, hx, rfl⟩ := Option.map_eq_some_iff.mp h
    have hmet : Contract.names.Met env (fun _ => True) x := Expr.names_evaluate? hx
    have hafter : x.2.env.contains name = false := hmet.error _ hname name rfl
    exact ⟨hmet.env.not_contains hafter, hafter⟩
  · intro u params arguments body k part t h
    have hentered : u.env.BoundIn (u.entered params arguments).env := Env.boundIn_inherit _ _
    have hmoment : u.env.BoundIn t.env := hentered.trans h.boundIn
    exact ⟨hmoment, fun x hx => hmoment.trans (Expr.names_evaluate? hx).env⟩

/-- A name that is not found two calls deep, after names have been bound on the way; and a recursive
function without parameters that finds itself in the call that it makes. -/
theorem Evaluator.evaluate?_undefined_nested :
    let inner : Expr := .call (.function ["n"] (.letIn "m" (.var "n") (.var "z"))) [.var "y"]
    let e : Expr := .letIn "x" (.int 1) (.call (.function [] inner) [])
    let env := Env.empty.set "y" (.int 2)
    let ev := Evaluator.new none Sink.unlimited Log.off
    let f : Lambda := ⟨[], .call (.var "f") []⟩
    let u : State := ⟨Env.empty.set "f" (.closure f), 0, Sink.unlimited, Log.off⟩
    (∃ done, ev.evaluate? e env = some done ∧ done.result = .error (.undefinedVariable "z") ∧
      done.env.contains "x" = true ∧ env.contains "z" = false ∧ done.env.contains "z" = false) ∧
    ∃ t, f.body.ComesTo none (u.entered [] Env.empty) 1 f.body t ∧ u.env.BoundIn t.env := by
  intro inner e env ev f u
  obtain ⟨herror, hcalls⟩ := Evaluator.evaluate?_undefined ev
  constructor
  · have hdone : ev.evaluate? e env =
        some ⟨.error (.undefinedVariable "z"), env.set "x" (.int 1), ev⟩ := by
      subst ev e env inner
      exact Evaluator.evaluate?_of_within 5 rfl
    have hx : (env.set "x" (.int 1)).contains "x" = true := by decide
    exact ⟨_, hdone, rfl, hx, herror e env _ "z" hdone rfl⟩
  · have hfound : (u.entered [] Env.empty).env.get? "f" = some (.closure f) := rfl
    have hcallee : (Expr.var "f").evaluate? none ((u.entered [] Env.empty).started f.body) =
        some (.ok (.closure f), ((u.entered [] Env.empty).started f.body).started (.var "f")) := by
      rw [Expr.evaluate?_apply]
      exact Eval.lookup_of_some hfound
    have hadmits : ∀ l, none = some l → (u.entered [] Env.empty).depth < l := by rintro _ ⟨⟩
    have hcomes := Expr.ComesTo.here.next (.body hcallee rfl hadmits rfl)
    exact ⟨_, hcomes, (hcalls u [] Env.empty f.body _ _ _ hcomes).1⟩

end TreeLang
