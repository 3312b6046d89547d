import TreeLang.Proofs.ActiveCalls
import TreeLang.Proofs.Contract

/-!
# The moments of an evaluation

While an expression is evaluated, the evaluations of its operands start, and those of the bodies of
the functions that it calls. `Expr.Starts` says which ones start in which states, provided that what
is evaluated before them ends, and `Expr.ComesTo` follows this down to any depth. So the moments of
an evaluation are known also if it does not end. At each of them the calls have been counted; and an
evaluation that does not end comes to ever later moments.
-/

namespace TreeLang

variable {limit : Option Nat}

/-- `e.Starts limit s inside part t` says that the evaluation of `e` from `s` starts the evaluation
of `part` in the state `t`, inside so many more calls. -/
inductive Expr.Starts (limit : Option Nat) : Expr → State → Nat → Expr → State → Prop where
  /-- The first operand. -/
  | first {e part : Expr} {rest : List Expr} {s : State} (hoperands : e.operands = part :: rest) :
      Starts limit e s 0 part (s.started e)
  /-- The second component of a pair. -/
  | tupleSecond {first second : Expr} {s t : State} {v : Value}
      (hfirst : first.evaluate? limit (s.started (.tuple first second)) = some (.ok v, t)) :
      Starts limit (.tuple first second) s 0 second t
  /-- The right operand of an operator. -/
  | binaryRhs {op : String} {lhs rhs : Expr} {s t : State} {v : Value}
      (hlhs : lhs.evaluate? limit (s.started (.binary op lhs rhs)) = some (.ok v, t)) :
      Starts limit (.binary op lhs rhs) s 0 rhs t
  /-- What follows a binding. -/
  | letNext {name : String} {value next : Expr} {s t : State} {v : Value}
      (hvalue : value.evaluate? limit (s.started (.letIn name value next)) = some (.ok v, t)) :
      Starts limit (.letIn name value next) s 0 next (t.assigned name v)
  /-- The branch that a condition chooses. -/
  | branch {condition consequent alternative : Expr} {s t : State} {b : Bool}
      (hcondition : condition.evaluate? limit
        (s.started (.cond condition consequent alternative)) = some (.ok (.bool b), t)) :
      Starts limit (.cond condition consequent alternative) s 0
        (if b then consequent else alternative) t
  /-- An argument of a call that the limit admits, once those before it are bound. -/
  | argument {callee argument : Expr} {earlier later : List Expr} {f : Lambda} {s t u : State}
      {frame : Env}
      (hcallee : callee.evaluate? limit
        (s.started (.call callee (earlier ++ argument :: later))) = some (.ok (.closure f), t))
      (harity : f.arity = (earlier ++ argument :: later).length)
      (hadmits : ∀ l, limit = some l → t.depth < l)
      (hearlier : Expr.bindArguments (Expr.evaluate? limit) Env.empty
        (f.params.take earlier.length) earlier t = some (.ok frame, u)) :
      Starts limit (.call callee (earlier ++ argument :: later)) s 0 argument u
  /-- The body of a function that is called, inside one more call. -/
  | body {callee : Expr} {arguments : List Expr} {f : Lambda} {s t u : State} {frame : Env}
      (hcallee : callee.evaluate? limit (s.started (.call callee arguments)) =
        some (.ok (.closure f), t))
      (harity : f.arity = arguments.length) (hadmits : ∀ l, limit = some l → t.depth < l)
      (harguments : Expr.bindArguments (Expr.evaluate? limit) Env.empty f.params arguments t =
        some (.ok frame, u)) :
      Starts limit (.call callee arguments) s 1 f.body (u.entered f.params frame)

/-- `e.ComesTo limit s k part t` says that in the course of the evaluation of `e` from `s` the
evaluation of `part` starts in the state `t`, inside `k` more calls. -/
inductive Expr.ComesTo (limit : Option Nat) (e : Expr) (s : State) : Nat → Expr → State → Prop where
  | here : ComesTo limit e s 0 e s
  | next {k inside : Nat} {part inner : Expr} {t u : State} (h : ComesTo limit e s k part t)
      (hstarts : part.Starts limit t inside inner u) : ComesTo limit e s (k + inside) inner u

/-! ## Calls are counted at every moment -/

theorem Expr.Starts.counted {e part : Expr} {start s t : State} {inside : Nat}
    (h : e.Starts limit s inside part t) (hs : start.Counted limit (s.started e)) :
    t.depth = s.depth + inside ∧ start.Counted limit t := by
  -- What is evaluated before counts calls and is back inside as many at the end.
  have hended : ∀ {operand : Expr} {x : Outcome Value},
      operand.evaluate? limit (s.started e) = some x →
        x.2.depth = s.depth ∧ start.Counted limit x.2 :=
    fun {operand x} hx => Eval.Counts.evaluate? operand (s.started e) x rfl hs hx
  cases h with
  | first hoperands => exact ⟨rfl, hs⟩
  | tupleSecond hfirst => exact hended hfirst
  | binaryRhs hlhs => exact hended hlhs
  | letNext hvalue =>
    obtain ⟨hdepth, hcounted⟩ := hended hvalue
    exact ⟨hdepth, hcounted.assigned _ _⟩
  | branch hcondition => exact hended hcondition
  | argument hcallee harity hadmits hearlier =>
    obtain ⟨hdepth, hcounted⟩ := hended hcallee
    exact Eval.Counts.bindArguments Eval.Counts.evaluate? _ _ _ _ _ hdepth hcounted hearlier
  | @body callee arguments f _ t u frame hcallee harity hadmits harguments =>
    obtain ⟨hdepth, hcounted⟩ := hended hcallee
    have hbound := Eval.Counts.bindArguments Eval.Counts.evaluate? _ _ _ _ _ hdepth hcounted
      harguments
    have hback : u.depth = s.depth := hbound.1
    have hadmits : ∀ l, limit = some l → u.depth < l := by
      intro l hl
      rw [hback, ← show t.depth = s.depth from hdepth]
      exact hadmits l hl
    exact ⟨congrArg (· + 1) hback, State.Counted.entered hbound.2 hadmits _ _⟩

theorem Expr.ComesTo.counted {e part : Expr} {start s t : State} {k : Nat}
    (h : e.ComesTo limit s k part t) (hs : start.Counted limit s) :
    t.depth = s.depth + k ∧ start.Counted limit t := by
  induction h with
  | here => exact ⟨rfl, hs⟩
  | next _ hstarts ih =>
    obtain ⟨hdepth, hcounted⟩ := ih
    obtain ⟨hinside, hcounted⟩ := hstarts.counted (hcounted.started _)
    exact ⟨by omega, hcounted⟩

/-! ## Evaluations that do not end -/

theorem Eval.ofExcept_bind_eq_none {α β : Type} {result : Except EvalError α} {next : α → Eval β}
    {s : State} (h : (Eval.ofExcept result >>= next) s = none) :
    ∃ a, result = .ok a ∧ next a s = none := by
  rcases bind_eq_none h with hnone | ⟨a, t, hsome, hnone⟩
  · cases hnone
  · cases hsome
    exact ⟨a, rfl, hnone⟩

/-- Steps that always end do so in sequence. -/
theorem Eval.bind_ne_none {α β : Type} {first : Eval α} {next : α → Eval β}
    (hfirst : ∀ s, first s ≠ none) (hnext : ∀ a s, next a s ≠ none) (s : State) :
    (first >>= next) s ≠ none := by
  intro h
  rcases bind_eq_none h with hnone | ⟨a, t, -, hnone⟩
  · exact hfirst s hnone
  · exact hnext a t hnone

theorem Eval.print_ne_none (v : Value) : ∀ s, (Eval.print v : Eval Unit) s ≠ none := by
  have hwrite : ∀ text s, (Eval.write text : Eval Unit) s ≠ none :=
    fun text s => Option.some_ne_none _
  have hvalue : ∀ s, (Eval.writeValue v : Eval Unit) s ≠ none := by
    induction v with
    | tuple first second ih₁ ih₂ =>
      exact bind_ne_none (hwrite _) fun _ => bind_ne_none ih₁ fun _ =>
        bind_ne_none (hwrite _) fun _ => bind_ne_none ih₂ fun _ => hwrite _
    | _ => exact hwrite _
  exact bind_ne_none hvalue fun _ => hwrite _

/-- Arguments are not all bound only if the evaluation of one of them does not end. -/
theorem Expr.bindArguments_eq_none {self : Expr → Eval Value} {frame : Env} {params : List String}
    {arguments : List Expr} {s : State}
    (h : Expr.bindArguments self frame params arguments s = none) :
    ∃ earlier argument later frame' t, arguments = earlier ++ argument :: later ∧
      Expr.bindArguments self frame (params.take earlier.length) earlier s =
        some (.ok frame', t) ∧ self argument t = none := by
  induction params generalizing arguments frame s with
  | nil => cases h
  | cons param params ih =>
    cases arguments with
    | nil => cases h
    | cons argument arguments =>
      rcases Eval.bind_eq_none h with hnone | ⟨v, t, hv, hrest⟩
      · exact ⟨[], argument, arguments, frame, s, rfl, rfl, hnone⟩
      · obtain ⟨frame₁, hparam, hrest⟩ := Eval.ofExcept_bind_eq_none hrest
        obtain ⟨earlier, later, rest, frame', u, rfl, hearlier, hnone⟩ := ih hrest
        refine ⟨argument :: earlier, later, rest, frame', u, rfl, ?_, hnone⟩
        have hbound : (Eval.ofExcept (frame.bindParam param v) : Eval Env) t =
            some (.ok frame₁, t) := by
          rw [hparam]
          rfl
        exact (Eval.bind_of_ok hv).trans ((Eval.bind_of_ok hbound).trans hearlier)

/-- If an evaluation does not end, then it starts one that does not. -/
theorem Expr.exists_starts_of_none {e : Expr} {s : State} (h : e.evaluate? limit s = none) :
    ∃ inside part t, e.Starts limit s inside part t ∧ part.evaluate? limit t = none := by
  rw [Expr.evaluate?_apply] at h
  cases e with
  | str _ | int _ | bool _ | function _ _ => cases h
  | var name => exact absurd h (Option.some_ne_none _)
  | tuple first second =>
    rcases Eval.bind_eq_none h with hnone | ⟨v, t, hfirst, h⟩
    · exact ⟨0, first, _, .first rfl, hnone⟩
    · rcases Eval.bind_eq_none h with hnone | ⟨w, u, _, h⟩
      · exact ⟨0, second, t, .tupleSecond hfirst, hnone⟩
      · cases h
  | projection side source =>
    rcases Eval.bind_eq_none h with hnone | ⟨v, t, hsource, h⟩
    · exact ⟨0, source, _, .first rfl, hnone⟩
    · cases h
  | binary op lhs rhs =>
    rcases Eval.bind_eq_none h with hnone | ⟨v, t, hlhs, h⟩
    · exact ⟨0, lhs, _, .first rfl, hnone⟩
    · rcases Eval.bind_eq_none h with hnone | ⟨w, u, _, h⟩
      · exact ⟨0, rhs, t, .binaryRhs hlhs, hnone⟩
      · cases h
  | letIn name value next =>
    rcases Eval.bind_eq_none h with hnone | ⟨v, t, hvalue, h⟩
    · exact ⟨0, value, _, .first rfl, hnone⟩
    · exact ⟨0, next, _, .letNext hvalue, h⟩
  | print inner =>
    rcases Eval.bind_eq_none h with hnone | ⟨v, t, hinner, h⟩
    · exact ⟨0, inner, _, .first rfl, hnone⟩
    · rcases Eval.bind_eq_none h with hnone | ⟨_, u, _, h⟩
      · exact absurd hnone (Eval.print_ne_none v t)
      · cases h
  | cond condition consequent alternative =>
    rcases Eval.bind_eq_none h with hnone | ⟨v, t, hcondition, h⟩
    · exact ⟨0, condition, _, .first rfl, hnone⟩
    · obtain ⟨b, htruth, h⟩ := Eval.ofExcept_bind_eq_none h
      cases v with
      | bool b' =>
        cases htruth
        refine ⟨0, _, t, .branch hcondition, ?_⟩
        cases b with
        | true => exact h
        | false => exact h
      | _ => cases htruth
  | call callee arguments =>
    rcases Eval.bind_eq_none h with hnone | ⟨v, t, hcallee, h⟩
    · exact ⟨0, callee, _, .first rfl, hnone⟩
    · obtain ⟨f, hf, hcall⟩ := Eval.ofExcept_bind_eq_none h
      obtain ⟨rfl, harity⟩ := Value.callee_eq_ok hf
      rcases Eval.checkDepth_cases limit t with ⟨hadmits, hcheck⟩ | ⟨l, -, -, hcheck⟩
      · rw [Eval.bind_of_ok hcheck] at hcall
        rcases Eval.bind_eq_none hcall with hnone | ⟨frame, u, harguments, hbody⟩
        · obtain ⟨earlier, argument, later, frame, u, rfl, hearlier, hnone⟩ :=
            Expr.bindArguments_eq_none hnone
          exact ⟨0, argument, u, .argument hcallee harity hadmits hearlier, hnone⟩
        · rw [Eval.inCall_apply, Option.map_eq_none_iff] at hbody
          exact ⟨1, f.body, _, .body hcallee harity hadmits harguments, hbody⟩
      · rw [Eval.bind_of_error hcheck] at hcall
        cases hcall

/-- Between two moments something is logged. -/
theorem Expr.Starts.size_lt {e part : Expr} {s t : State} {inside : Nat}
    (h : e.Starts limit s inside part t) (hlog : Level.trace.detail ≤ s.log.detail) :
    s.log.events.size < t.log.events.size ∧ t.log.detail = s.log.detail := by
  obtain ⟨-, hcounted⟩ := h.counted (.refl limit (s.started e))
  obtain ⟨added, hevents, -, -⟩ := hcounted.events
  have hstarted : (s.started e).log =
      { s.log with events := s.log.events.push (.eval e.kind s.depth) } := if_pos hlog
  rw [hstarted] at hevents
  have hlength := congrArg List.length hevents
  simp only [Array.toList_push, List.length_append, Array.length_toList, List.length_singleton]
    at hlength
  have hdetail : t.log.detail = (s.started e).log.detail := hcounted.detail
  rw [hstarted] at hdetail
  exact ⟨by omega, hdetail⟩

/-- An evaluation that does not end comes to ever later moments: there is none at which the log has
all its events. -/
theorem Expr.exists_comesTo_of_none {e : Expr} {s : State} (h : e.evaluate? limit s = none)
    (hlog : Level.trace.detail ≤ s.log.detail) (n : Nat) :
    ∃ k part t, e.ComesTo limit s k part t ∧ s.log.events.size + n ≤ t.log.events.size := by
  have hmoment : ∃ k part t, e.ComesTo limit s k part t ∧ part.evaluate? limit t = none ∧
      t.log.detail = s.log.detail ∧ s.log.events.size + n ≤ t.log.events.size := by
    induction n with
    | zero => exact ⟨0, e, s, .here, h, rfl, Nat.le_refl _⟩
    | succ n ih =>
      obtain ⟨k, part, t, hcomes, hnone, hdetail, hsize⟩ := ih
      obtain ⟨inside, inner, u, hstarts, hinner⟩ := Expr.exists_starts_of_none hnone
      obtain ⟨hlt, hsame⟩ := hstarts.size_lt (by omega)
      exact ⟨k + inside, inner, u, hcomes.next hstarts, hinner, hsame.trans hdetail, by omega⟩
  obtain ⟨k, part, t, hcomes, -, -, hsize⟩ := hmoment
  exact ⟨k, part, t, hcomes, hsize⟩

end TreeLang
