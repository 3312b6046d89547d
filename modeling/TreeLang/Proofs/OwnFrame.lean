import TreeLang.Proofs.Arguments
import TreeLang.Proofs.Deeper

/-!
# Expressions in a frame of their own

A function without parameters that is called where it is made evaluates its body in a frame that
inherits everything and binds nothing. Such a frame is a copy of the caller's: the body does what it
does there, and its bindings are gone afterwards. The call is one of those that a limit counts, so
under a limit the body does what it does under a limit that is smaller by one.
-/

namespace TreeLang

open Eval (bind_of_ok bind_of_error)

/-- Evaluates the expression in a frame of its own, by calling it as a function without
parameters. -/
def Expr.inOwnFrame (e : Expr) : Expr := .call (.function [] e) []

/-- A frame without bindings that inherits everything is the frame of the caller. -/
theorem Env.empty_inherit (env : Env) : Env.empty.inherit env = env := by
  obtain ⟨bindings, hnodup⟩ := env
  have hall : (bindings.filter fun b => !Env.empty.contains b.1) = bindings :=
    List.filter_eq_self.mpr fun _ _ => rfl
  simp only [Env.inherit]
  congr 1

theorem Expr.evaluate?_function (limit : Option Nat) (params : List String) (body : Expr)
    (s : State) :
    (Expr.function params body).evaluate? limit s =
      some (.ok (.closure ⟨params, body⟩), s.started (.function params body)) := by
  rw [Expr.evaluate?_apply]
  rfl

section

variable {limit : Option Nat} {e : Expr} {s : State}

/-- The state in which the limit is checked for the call of a body in its own frame: nothing has
happened but that the call and its callee were noted. -/
def State.startedInOwnFrame (s : State) (e : Expr) : State :=
  (s.started e.inOwnFrame).started (.function [] e)

/-! ## Calls that the limit admits -/

/-- The body starts in the frame of the caller, inside one more call. -/
theorem State.entered_inOwnFrame (s : State) (e : Expr) :
    (s.startedInOwnFrame e).entered [] Env.empty =
      ⟨s.env, s.depth + 1, s.sink, ((s.startedInOwnFrame e).entered [] Env.empty).log⟩ := by
  have hframe : Env.empty.inherit s.env = s.env := Env.empty_inherit s.env
  simp only [State.entered, State.startedInOwnFrame, State.started, hframe]

/-- The call ends as its body does, and the caller has its frame as before. -/
theorem Expr.evaluate?_inOwnFrame_eq (hadmits : ∀ l, limit = some l → s.depth < l) :
    e.inOwnFrame.evaluate? limit s =
      (e.evaluate? limit ((s.startedInOwnFrame e).entered [] Env.empty)).map fun x =>
        (x.1, x.2.left s.env) := by
  have hcallee := Expr.evaluate?_function limit [] e (s.started e.inOwnFrame)
  have harguments : Expr.bindArguments (Expr.evaluate? limit) Env.empty [] []
      (s.startedInOwnFrame e) = some (.ok Env.empty, s.startedInOwnFrame e) := rfl
  rw [Expr.inOwnFrame, Expr.evaluate?_call_eq hcallee rfl hadmits]
  exact (bind_of_ok harguments).trans (Eval.inCall_apply ..)

/-- The body does what it does under a limit that is smaller by one, or also without a limit. -/
theorem Evaluator.evaluate?_inOwnFrame_rel {ev ev' : Evaluator}
    (hadmits : ∀ l, ev.limit = some l → ev.depth < l)
    (hlimit : ev'.limit.map (· + 1) = ev.limit) (hdepth : ev'.depth = ev.depth)
    (hsink : ev'.sink = ev.sink) (e : Expr) (env : Env) :
    Option.Rel (fun done done' => done.EndsAs (EvalError.shiftLimit 1) done' ∧ done'.env = env)
      (ev'.evaluate? e env) (ev.evaluate? e.inOwnFrame env) := by
  let start := ((ev.before env).startedInOwnFrame e).entered [] Env.empty
  let inner : Evaluator := ⟨ev.limit, ev.depth + 1, ev.sink, start.log⟩
  have hcall : ev.evaluate? e.inOwnFrame env = (inner.evaluate? e env).map fun done =>
      ⟨done.result, env, ⟨ev.limit, done.evaluator.depth - 1, done.evaluator.sink,
        done.evaluator.log.add .leave⟩⟩ := by
    have hstart : start = inner.before env := State.entered_inOwnFrame (ev.before env) e
    have heval := Expr.evaluate?_inOwnFrame_eq (e := e) (s := ev.before env) hadmits
    unfold Evaluator.evaluate?
    rw [heval, show ((ev.before env).startedInOwnFrame e).entered [] Env.empty = _ from hstart,
      Option.map_map, Option.map_map]
    rfl
  have hrel : Option.Rel (Correspondence.offset 1 0).Ends (ev'.evaluate? e env)
      (inner.evaluate? e env) := by
    have hlimits : ev'.limit.map (· + 1) = inner.limit.map (· + 0) :=
      hlimit.trans Option.map_id'.symm
    have hdepths : ev'.depth + 1 = inner.depth + 0 := congrArg (· + 1) hdepth
    exact Evaluator.evaluate?_offset hlimits hdepths hsink.symm e env
  rw [hcall]
  refine Correspondence.rel_map_second (fun done done' h => ?_) hrel
  obtain ⟨⟨hresult, hsink⟩, -⟩ := Correspondence.endsAs_of_ends h
  exact ⟨⟨hresult, hsink⟩, rfl⟩

/-- Without a limit there is no error of a limit. -/
theorem Evaluation.EndsAs.of_unlimited {ev : Evaluator} {env : Env} {done done' : Evaluation}
    {d : Nat} (h : done.EndsAs (EvalError.shiftLimit d) done') (hlimit : ev.limit = none)
    (hdone : ev.evaluate? e env = some done) : done.EndsAs id done' := by
  obtain ⟨x, hx, rfl⟩ := Evaluator.evaluate?_eq_some.mp hdone
  refine ⟨h.result.trans ?_, h.sink⟩
  rcases x with ⟨cause | v, t⟩
  · refine congrArg Except.error (EvalError.shiftLimit_of_ne ?_)
    rintro l rfl
    have hl := (Eval.simulation_limitError ev.limit).evaluate? e _ _ hx l rfl
    rw [hlimit] at hl
    cases hl
  · rfl

/-! ## Calls that the limit does not admit -/

/-- The call fails before anything else happens. -/
theorem Expr.evaluate?_inOwnFrame_limit {l : Nat} (h : l ≤ s.depth) :
    e.inOwnFrame.evaluate? (some l) s =
      some (.error (.recursionLimit l), s.startedInOwnFrame e) := by
  have hcallee := Expr.evaluate?_function (some l) [] e (s.started e.inOwnFrame)
  have hcalled : (Eval.ofExcept ((Value.closure ⟨[], e⟩).callee 0) : Eval Lambda)
      (s.startedInOwnFrame e) = some (.ok ⟨[], e⟩, s.startedInOwnFrame e) := rfl
  have hcheck : (Eval.checkDepth (some l) : Eval Unit) (s.startedInOwnFrame e) =
      some (.error (.recursionLimit l), s.startedInOwnFrame e) := Eval.checkDepth_of_le h
  rw [Expr.evaluate?_apply]
  exact (bind_of_ok hcallee).trans ((bind_of_ok hcalled).trans (bind_of_error hcheck))

/-- Only the call and its callee are evaluated. -/
theorem Expr.ComesTo.of_inOwnFrame {l k : Nat} {part : Expr} {t : State} (h : l ≤ s.depth)
    (hcomes : e.inOwnFrame.ComesTo (some l) s k part t) :
    part = e.inOwnFrame ∧ t = s ∨ part = .function [] e := by
  induction hcomes with
  | here => exact .inl ⟨rfl, rfl⟩
  | next _ hstarts ih =>
    right
    rcases ih with ⟨rfl, rfl⟩ | rfl
    · generalize hcall : e.inOwnFrame = call at hstarts
      cases hstarts with
      | first hoperands =>
        subst hcall
        cases hoperands
        rfl
      | @argument _ _ earlier _ _ _ _ _ _ _ _ _ _ =>
        cases earlier <;> cases hcall
      | @body callee arguments f _ t' _ _ hcallee _ hadmits _ =>
        cases hcall
        cases (Expr.evaluate?_function (some l) [] e _).symm.trans hcallee
        exact absurd (hadmits l rfl) (Nat.not_lt_of_le h)
      | _ => cases hcall
    · cases hstarts with
      | first hoperands => cases hoperands

end

/-- An expression in a frame of its own does what it does in a copy of the frame, and leaves the
frame as it was, whatever it binds. Without a limit the call has the value or the error of the
expression, and its output. Under a limit that admits the call this is so of the expression under a
limit that is smaller by one, except that the error of that limit becomes the error of this one; and
if the limit admits no call, then the call fails with the error of the limit and the expression is
not evaluated. The reason is that the number of active calls matters only beside the limit: inside
`d` calls, every expression does what it does inside none under a limit that is smaller by `d`. -/
theorem Evaluator.evaluate?_inOwnFrame (ev : Evaluator) (e : Expr) (env : Env) :
    (ev.limit = none →
      Option.Rel (fun done done' => done.EndsAs id done' ∧ done'.env = env)
        (ev.evaluate? e env) (ev.evaluate? e.inOwnFrame env)) ∧
    (∀ l, ev.limit = some l → ev.depth < l →
      Option.Rel (fun done done' => done.EndsAs (EvalError.shiftLimit 1) done' ∧ done'.env = env)
        ({ ev with limit := some (l - 1) }.evaluate? e env) (ev.evaluate? e.inOwnFrame env)) ∧
    (∀ l, ev.limit = some l → l ≤ ev.depth →
      (∃ done, ev.evaluate? e.inOwnFrame env = some done ∧
        done.result = .error (.recursionLimit l) ∧ done.env = env ∧
        done.evaluator.sink = ev.sink) ∧
      ∀ k part t, e.inOwnFrame.ComesTo ev.limit (ev.before env) k part t →
        part = e.inOwnFrame ∨ part = .function [] e) ∧
    ∀ d l, d ≤ l → ∀ sink log log',
      Option.Rel (fun done done' => done.EndsAs (EvalError.shiftLimit d) done' ∧
          done'.env = done.env)
        (Evaluator.evaluate? ⟨some (l - d), 0, sink, log⟩ e env)
        (Evaluator.evaluate? ⟨some l, d, sink, log'⟩ e env) := by
  refine ⟨fun hlimit => ?_, fun l hlimit hdepth => ?_, fun l hlimit hdepth => ⟨?_, ?_⟩,
    fun d l h sink log log' => Evaluator.evaluate?_inside h sink log log' e env⟩
  · have hadmits : ∀ l, ev.limit = some l → ev.depth < l := by
      rw [hlimit]
      nofun
    have hlimits : ev.limit.map (· + 1) = ev.limit := by
      rw [hlimit]
      rfl
    have hrel := Evaluator.evaluate?_inOwnFrame_rel hadmits hlimits rfl rfl e env
    cases hdone : ev.evaluate? e env with
    | none =>
      rw [hdone] at hrel
      generalize ev.evaluate? e.inOwnFrame env = second at hrel
      cases hrel
      exact .none
    | some done =>
      obtain ⟨done', hdone', hends, henv⟩ := Correspondence.exists_of_some_rel hrel hdone
      rw [hdone']
      exact .some ⟨hends.of_unlimited hlimit hdone, henv⟩
  · let ev' : Evaluator := { ev with limit := some (l - 1) }
    have hadmits : ∀ l, ev.limit = some l → ev.depth < l := by
      rw [hlimit]
      rintro _ ⟨⟩
      exact hdepth
    have hlimits : ev'.limit.map (· + 1) = ev.limit := by
      rw [hlimit]
      exact congrArg some (Nat.sub_add_cancel (by omega))
    exact Evaluator.evaluate?_inOwnFrame_rel hadmits hlimits rfl rfl e env
  · have hcall := Expr.evaluate?_inOwnFrame_limit (e := e) (s := ev.before env) hdepth
    rw [← hlimit] at hcall
    exact ⟨_, Evaluator.evaluate?_eq_some.mpr ⟨_, hcall, rfl⟩, rfl, rfl, rfl⟩
  · intro k part t hcomes
    rw [hlimit] at hcomes
    rcases hcomes.of_inOwnFrame hdepth with ⟨h, -⟩ | h
    · exact .inl h
    · exact .inr h

/-- An expression that binds a name anew and then makes a call: the caller keeps its binding, and a
limit of one call is the limit of none for the expression. -/
theorem Evaluator.evaluate?_inOwnFrame_rebinding :
    let e : Expr := .letIn "x" (.int 2) (Expr.inOwnFrame (.var "x"))
    let env := Env.empty.set "x" (.int 1)
    let ev (limit : Option Nat) := Evaluator.new limit Sink.unlimited Log.off
    (∃ done done', (ev none).evaluate? e env = some done ∧
      (ev none).evaluate? e.inOwnFrame env = some done' ∧ done.env.get? "x" = some (.int 2) ∧
      done'.result = .ok (.int 2) ∧ done'.env.get? "x" = some (.int 1)) ∧
    (∃ done done', (ev (some 0)).evaluate? e env = some done ∧
      (ev (some 1)).evaluate? e.inOwnFrame env = some done' ∧
      done.result = .error (.recursionLimit 0) ∧ done'.result = .error (.recursionLimit 1)) ∧
    (∃ done, (ev (some 0)).evaluate? e.inOwnFrame env = some done ∧
      done.result = .error (.recursionLimit 0)) ∧
    ∃ done, Evaluator.evaluate? ⟨some 2, 1, Sink.unlimited, Log.full⟩ e env = some done ∧
      done.result = .ok (.int 2) := by
  intro e env ev
  let after : Env := env.set "x" (.int 2)
  have hfree : (ev none).evaluate? e env = some ⟨.ok (.int 2), after, ev none⟩ :=
    Evaluator.evaluate?_of_within 3 rfl
  have hnone : (ev (some 0)).evaluate? e env =
      some ⟨.error (.recursionLimit 0), after, ev (some 0)⟩ :=
    Evaluator.evaluate?_of_within 3 rfl
  have hone : (ev (some 1)).evaluate? e env = some ⟨.ok (.int 2), after, ev (some 1)⟩ :=
    Evaluator.evaluate?_of_within 3 rfl
  refine ⟨?_, ?_, ?_, ?_⟩
  · have hrel := (Evaluator.evaluate?_inOwnFrame (ev none) e env).1 rfl
    obtain ⟨done', hdone', hends, henv⟩ := Correspondence.exists_of_some_rel hrel hfree
    exact ⟨_, done', hfree, hdone', rfl, hends.result, congrArg (Env.get? · "x") henv⟩
  · have hrel := (Evaluator.evaluate?_inOwnFrame (ev (some 1)) e env).2.1 1 rfl Nat.zero_lt_one
    obtain ⟨done', hdone', hends, -⟩ := Correspondence.exists_of_some_rel hrel hnone
    exact ⟨_, done', hnone, hdone', rfl, hends.result⟩
  · obtain ⟨⟨done, hdone, hresult, -⟩, -⟩ :=
      (Evaluator.evaluate?_inOwnFrame (ev (some 0)) e env).2.2.1 0 rfl le_rfl
    exact ⟨done, hdone, hresult⟩
  · have hrel := (Evaluator.evaluate?_inOwnFrame (ev none) e env).2.2.2 1 2 (by decide)
      Sink.unlimited Log.off Log.full
    obtain ⟨done', hdone', hends, -⟩ := Correspondence.exists_of_some_rel hrel hone
    exact ⟨done', hdone', hends.result⟩

end TreeLang
