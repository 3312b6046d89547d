import TreeLang.Proofs.Deeper
import TreeLang.Proofs.Moments

/-!
# Sessions

One evaluator takes many expressions, and any evaluation may fail inside any number of calls. Since
all of these calls are left again, the next evaluation finds the counter where the first one did. So
it does what it would do on a new evaluator with the same limit and the same sink.
-/

namespace TreeLang

/-! ## Logs do not matter -/

/-- Everything corresponds to itself. -/
def Correspondence.same : Correspondence where
  depth := Eq
  expr := Eq
  lambda := Eq
  env := Eq
  frame := Eq
  error := Eq

namespace Correspondence

theorem lawful_same (limit : Option Nat) : same.Lawful limit limit := by
  have hadmits {n n' : Nat} (h : n = n') :
      ((∀ l, limit = some l → n < l) ∧ (∀ l, limit = some l → n' < l)) ∨
        ∃ l l', limit = some l ∧ l ≤ n ∧ limit = some l' ∧ l' ≤ n' ∧
          EvalError.recursionLimit l = .recursionLimit l' := by
    subst h
    exact admits_self limit n fun _ => rfl
  exact lawful_sameCode (fun _ => rfl) hadmits (congrArg (· + 1))

end Correspondence

/-- Two evaluations end with the same result, in the same environment and with the same sink. -/
structure Evaluation.Alike (done done' : Evaluation) : Prop where
  /-- The values or errors are equal. -/
  result : done'.result = done.result
  /-- So are the environments that are left. -/
  env : done'.env = done.env
  /-- So are the sinks. -/
  sink : done'.evaluator.sink = done.evaluator.sink

theorem Correspondence.alike_of_ends {done done' : Evaluation} (h : same.Ends done done') :
    Evaluation.Alike done done' := by
  have hends : done.EndsAs id done' ∧ done'.env = done.env := endsAs_of_sameCode Eq.symm h
  obtain ⟨⟨hresult, hsink⟩, henv⟩ := hends
  refine ⟨hresult.trans ?_, henv, hsink⟩
  cases done.result <;> rfl

/-- Evaluators that differ in their logs only do the same. -/
theorem Evaluator.alike_of_log (ev ev' : Evaluator) (hlimit : ev'.limit = ev.limit)
    (hdepth : ev'.depth = ev.depth) (hsink : ev'.sink = ev.sink) (e : Expr) (env : Env) :
    Option.Rel Evaluation.Alike (ev.evaluate? e env) (ev'.evaluate? e env) := by
  have hends : Option.Rel Correspondence.same.Ends (ev.evaluate? e env) (ev'.evaluate? e env) :=
    Correspondence.Lawful.evaluate?_rel Correspondence.lawful_same Eq.symm hlimit hdepth.symm hsink
      rfl rfl
  exact Correspondence.rel_imp (fun _ _ => Correspondence.alike_of_ends) hends

/-! ## Evaluators in use -/

/-- After a number of evaluations, in any environments and with any results, `ev` has become
another evaluator. -/
inductive Evaluator.Becomes (ev : Evaluator) : Evaluator → Prop where
  | unused : Becomes ev ev
  | evaluate {ev' : Evaluator} {e : Expr} {env : Env} {done : Evaluation} (h : Becomes ev ev')
      (hdone : ev'.evaluate? e env = some done) : Becomes ev done.evaluator

/-- However an evaluator was used, no call is active between two evaluations. -/
theorem Evaluator.Becomes.unchanged {ev ev' : Evaluator} (h : ev.Becomes ev') :
    ev'.limit = ev.limit ∧ ev'.depth = ev.depth := by
  induction h with
  | unused => exact ⟨rfl, rfl⟩
  | evaluate _ hdone ih =>
    obtain ⟨hlimit, hdepth, -⟩ := Evaluator.counted_evaluate? hdone
    exact ⟨hlimit.trans ih.1, hdepth.trans ih.2⟩

/-- The counter is the number of active calls. It is restored when an evaluation ends, with a value
or any error; at each moment of an evaluation, also of one that does not end, it is as many more
as bodies of functions have been entered down to this moment; and the events of the log carry it.
If it does not exceed the limit at the start, it never does. Therefore an evaluator that has been
used in any way evaluates an expression like a new one with the same limit and the same sink. -/
theorem Evaluator.evaluate?_activeCalls (ev : Evaluator) (e : Expr) (env : Env) :
    (∀ done, ev.evaluate? e env = some done →
      done.evaluator.depth = ev.depth ∧
        ev.log.Counts ev.limit ev.depth done.evaluator.log) ∧
    (∀ k part t, e.ComesTo ev.limit (ev.before env) k part t →
      t.depth = ev.depth + k ∧ (∀ l, ev.limit = some l → ev.depth ≤ l → t.depth ≤ l) ∧
        ev.log.Counts ev.limit ev.depth (t.started part).log) ∧
    (ev.evaluate? e env = none → Level.trace.detail ≤ ev.log.detail → ∀ n, ∃ k part t,
      e.ComesTo ev.limit (ev.before env) k part t ∧
        ev.log.events.size + n ≤ t.log.events.size) ∧
    (∀ limit sink log, (Evaluator.new limit sink log).Becomes ev → ∀ log',
      Option.Rel Evaluation.Alike (ev.evaluate? e env)
        ((Evaluator.new limit ev.sink log').evaluate? e env)) := by
  refine ⟨fun done hdone => ?_, fun k part t hcomes => ?_, fun hnone hlog n => ?_,
    fun limit sink log hbecomes log' => ?_⟩
  · obtain ⟨-, hdepth, hcounts⟩ := Evaluator.counted_evaluate? hdone
    exact ⟨hdepth, hcounts⟩
  · obtain ⟨hdepth, hcounted⟩ := hcomes.counted (.refl ev.limit _)
    exact ⟨hdepth, hcounted.admitted, (hcounted.started part).counts⟩
  · have hdiverges : e.evaluate? ev.limit (ev.before env) = none := Option.map_eq_none_iff.mp hnone
    exact Expr.exists_comesTo_of_none hdiverges hlog n
  · obtain ⟨hlimit, hdepth⟩ := hbecomes.unchanged
    exact ev.alike_of_log (Evaluator.new limit ev.sink log') hlimit.symm hdepth.symm rfl e env

/-- A call that fails under a limit of one call, and then the same call where it succeeds: if it had
not been left, the limit would not admit it any more. -/
theorem Evaluator.evaluate?_activeCalls_failing :
    let e : Expr := .letIn "f" (.function [] (.var "x")) (.call (.var "f") [])
    let ev := Evaluator.new (some 1) Sink.unlimited Log.full
    let env := Env.empty.set "x" (.int 1)
    ∃ done, ev.evaluate? e Env.empty = some done ∧
      done.result = .error (.undefinedVariable "x") ∧
      done.evaluator.log.events.toList = [.eval .letIn 0, .eval .function 0, .binding "f",
        .eval .call 0, .eval .var 0, .call [] 1 1, .eval .var 1, .leave] ∧
      done.evaluator.depth = 0 ∧
      ev.log.Counts ev.limit 0 done.evaluator.log ∧
      ∃ later, done.evaluator.evaluate? e env = some later ∧ later.result = .ok (.int 1) := by
  intro e ev env
  have hdone : (Evaluator.new (some 1) Sink.unlimited Log.full).evaluate?
      (.letIn "f" (.function [] (.var "x")) (.call (.var "f") [])) Env.empty =
        some ⟨.error (.undefinedVariable "x"), Env.empty.set "f" (.closure ⟨[], .var "x"⟩),
          some 1, 0, Sink.unlimited, Level.trace.detail, #[.eval .letIn 0, .eval .function 0,
            .binding "f", .eval .call 0, .eval .var 0, .call [] 1 1, .eval .var 1, .leave]⟩ :=
    Evaluator.evaluate?_of_within 3 rfl
  obtain ⟨fresh, hfresh, hvalue⟩ : ∃ fresh,
      (Evaluator.new (some 1) Sink.unlimited Log.off).evaluate?
      (.letIn "f" (.function [] (.var "x")) (.call (.var "f") [])) (Env.empty.set "x" (.int 1)) =
        some fresh ∧ fresh.result = .ok (.int 1) := by
    refine ⟨⟨.ok (.int 1), (Env.empty.set "x" (.int 1)).set "f" (.closure ⟨[], .var "x"⟩),
      some 1, 0, Sink.unlimited, Log.off⟩, ?_, rfl⟩
    exact Evaluator.evaluate?_of_within 3 rfl
  obtain ⟨hended, -, -, -⟩ := Evaluator.evaluate?_activeCalls ev e Env.empty
  obtain ⟨hdepth, hcounts⟩ := hended _ hdone
  refine ⟨_, hdone, rfl, rfl, hdepth, hcounts, ?_⟩
  obtain ⟨-, -, -, hsession⟩ := Evaluator.evaluate?_activeCalls _ e env
  have hrel : Option.Rel Evaluation.Alike _
      ((Evaluator.new (some 1) Sink.unlimited Log.off).evaluate? e env) :=
    hsession (some 1) Sink.unlimited Log.full (.evaluate .unused hdone) Log.off
  rw [show Evaluator.evaluate? _ e env = some fresh from hfresh] at hrel
  obtain ⟨later, hlater, halike⟩ := Correspondence.exists_of_rel hrel
  exact ⟨later, hlater, halike.result.symm.trans hvalue⟩

end TreeLang
