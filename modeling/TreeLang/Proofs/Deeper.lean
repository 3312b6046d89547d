import TreeLang.Proofs.Correspondence

/-!
# The same code inside more calls

The number of active calls is only ever compared with the limit. So if as many more calls are active
as the limit is larger, then an evaluation does the same, and no more of this shows than the number
in the error of the limit.
-/

namespace TreeLang

/-! ## The same code in the same frames -/

/-- The same code is evaluated in the same frames. Only the numbers of active calls and the errors
may differ. -/
def Correspondence.sameCode (depth : Nat → Nat → Prop) (error : EvalError → EvalError → Prop) :
    Correspondence where
  depth := depth
  expr := Eq
  lambda := Eq
  env := Eq
  frame := Eq
  error := error

namespace Correspondence

section

variable {depth : Nat → Nat → Prop} {error : EvalError → EvalError → Prop}

theorem value_sameCode {v v' : Value} : (sameCode depth error).value v v' ↔ v = v' := by
  constructor
  · intro h
    induction h with
    | tuple _ _ ih₁ ih₂ => rw [ih₁, ih₂]
    | closure hf => exact congrArg Value.closure hf
    | _ => rfl
  · rintro rfl
    induction v with
    | tuple first second ih₁ ih₂ => exact .tuple ih₁ ih₂
    | closure f => exact .closure rfl
    | _ => exact .of_isAtom trivial

variable (herror : ∀ {cause}, (∀ l, cause ≠ .recursionLimit l) → error cause cause)

include herror

theorem sameCode_form (e : Expr) : (sameCode depth error).Form e e := by
  refine .self (fun _ _ => rfl) (fun henv hv => ?_) ?_ (fun _ => herror nofun) fun _ _ _ => rfl
  · cases henv
    cases value_sameCode.mp hv
    rfl
  · rintro name - env _ rfl
    cases env.get? name with
    | none => exact .none
    | some v => exact .some (value_sameCode.mpr rfl)

theorem sameCode_param (param : String) : (sameCode depth error).Param param param := by
  rintro frame _ v v' rfl hv
  cases value_sameCode.mp hv
  unfold Env.bindParam
  split
  · exact .error (herror nofun)
  · exact .ok rfl

/-- The same code does the same if the limits admit calls alike and all other errors correspond to
themselves. -/
theorem lawful_sameCode {limit limit' : Option Nat}
    (hadmits : ∀ {n n'}, depth n n' →
      ((∀ l, limit = some l → n < l) ∧ (∀ l, limit' = some l → n' < l)) ∨
        ∃ l l', limit = some l ∧ l ≤ n ∧ limit' = some l' ∧ l' ≤ n' ∧
          error (.recursionLimit l) (.recursionLimit l'))
    (hdeeper : ∀ {n n'}, depth n n' → depth (n + 1) (n' + 1)) :
    (sameCode depth error).Lawful limit limit' where
  admits := hadmits
  deeper := hdeeper
  form := by
    rintro e _ rfl
    exact sameCode_form herror e
  params := by
    rintro f _ rfl
    exact List.forall₂_same.mpr fun param _ => sameCode_param herror param
  body := by
    rintro f _ rfl
    rfl
  unique := by
    rintro f _ g _ rfl rfl
    rfl
  empty := rfl
  inherit := by
    rintro frame _ env _ rfl rfl
    rfl
  nameless := by
    intro cause hcause
    refine herror ?_
    rintro l rfl
    exact hcause

end

end Correspondence

/-- Two evaluations end with the same value and the same sink. Instead of an error of the first one
there is what `change` makes of it. -/
structure Evaluation.EndsAs (change : EvalError → EvalError) (done done' : Evaluation) : Prop where
  /-- The values are equal, or the errors are up to the change. -/
  result : done'.result = done.result.mapError change
  /-- The sinks are equal. -/
  sink : done'.evaluator.sink = done.evaluator.sink

theorem Correspondence.endsAs_of_sameCode {depth : Nat → Nat → Prop}
    {error : EvalError → EvalError → Prop} {change : EvalError → EvalError}
    (herror : ∀ {cause cause'}, error cause cause' → cause' = change cause)
    {done done' : Evaluation} (h : (sameCode depth error).Ends done done') :
    done.EndsAs change done' ∧ done'.env = done.env := by
  obtain ⟨hresult, henv, hsink⟩ := h
  refine ⟨⟨?_, hsink⟩, Eq.symm henv⟩
  obtain ⟨result, env, ev⟩ := done
  obtain ⟨result', env', ev'⟩ := done'
  cases hresult with
  | ok hv => exact congrArg Except.ok (value_sameCode.mp hv).symm
  | error hcause => exact congrArg Except.error (herror hcause)

/-! ## More calls under a larger limit -/

/-- The error with a limit that is larger by `d`, if it is the error of a limit. -/
def EvalError.shiftLimit (d : Nat) : EvalError → EvalError
  | recursionLimit l => recursionLimit (l + d)
  | cause => cause

theorem EvalError.shiftLimit_of_ne {d : Nat} {cause : EvalError}
    (h : ∀ l, cause ≠ .recursionLimit l) : cause.shiftLimit d = cause := by
  cases cause with
  | recursionLimit l => exact absurd rfl (h l)
  | _ => rfl

@[simp]
theorem EvalError.shiftLimit_zero (cause : EvalError) : cause.shiftLimit 0 = cause := by
  cases cause <;> rfl

/-- The numbers of active calls become equal if `d` is added to the first and `d'` to the second,
and so do the numbers in the errors of limits. -/
def Correspondence.offset (d d' : Nat) : Correspondence :=
  .sameCode (fun depth depth' => depth + d = depth' + d')
    fun cause cause' => cause.shiftLimit d = cause'.shiftLimit d'

theorem Correspondence.lawful_offset {limit limit' : Option Nat} {d d' : Nat}
    (h : limit.map (· + d) = limit'.map (· + d')) : (offset d d').Lawful limit limit' := by
  refine lawful_sameCode (fun hcause => ?_) (fun {n n'} hdepth => ?_) fun {n n'} hdepth => ?_
  · rw [EvalError.shiftLimit_of_ne hcause, EvalError.shiftLimit_of_ne hcause]
  · cases limit with
    | none =>
      cases limit' with
      | none => exact .inl ⟨nofun, nofun⟩
      | some l' => cases h
    | some l =>
      cases limit' with
      | none => cases h
      | some l' =>
        have hlimit : l + d = l' + d' := Option.some.inj h
        by_cases hadmits : n < l
        · refine .inl ⟨?_, ?_⟩
          · rintro _ ⟨⟩
            exact hadmits
          · rintro _ ⟨⟩
            omega
        · exact .inr ⟨l, l', rfl, by omega, rfl, by omega, congrArg EvalError.recursionLimit hlimit⟩
  · omega

theorem Correspondence.endsAs_of_ends {d : Nat} {done done' : Evaluation}
    (h : (offset d 0).Ends done done') :
    done.EndsAs (EvalError.shiftLimit d) done' ∧ done'.env = done.env := by
  refine endsAs_of_sameCode (fun {cause cause'} hcause => ?_) h
  rw [EvalError.shiftLimit_zero] at hcause
  exact hcause.symm

/-- Evaluators on equal sinks do the same if their limits and the numbers of active calls differ by
as much. -/
theorem Evaluator.evaluate?_offset {ev ev' : Evaluator} {d d' : Nat}
    (hlimit : ev.limit.map (· + d) = ev'.limit.map (· + d'))
    (hdepth : ev.depth + d = ev'.depth + d') (hsink : ev'.sink = ev.sink) (e : Expr) (env : Env) :
    Option.Rel (Correspondence.offset d d').Ends (ev.evaluate? e env) (ev'.evaluate? e env) := by
  -- The same is true with the evaluators exchanged, so each of them ends if the other one does.
  have hends : ∀ {ev ev' : Evaluator} {d d' : Nat},
      ev.limit.map (· + d) = ev'.limit.map (· + d') → ev.depth + d = ev'.depth + d' →
      ev'.sink = ev.sink → ∀ done, ev.evaluate? e env = some done →
      ∃ done', ev'.evaluate? e env = some done' ∧
        (Correspondence.offset d d').Ends done done' := by
    intro ev ev' d d' hlimit hdepth hsink done hdone
    exact (Correspondence.lawful_offset hlimit).evaluate?_ends hdepth hsink rfl rfl hdone
  cases hdone : ev.evaluate? e env with
  | some done =>
    obtain ⟨done', hdone', h⟩ := hends hlimit hdepth hsink done hdone
    rw [hdone']
    exact .some h
  | none =>
    cases hdone' : ev'.evaluate? e env with
    | none => exact .none
    | some done' =>
      obtain ⟨done, hsome, -⟩ := hends hlimit.symm hdepth.symm hsink.symm done' hdone'
      rw [hdone] at hsome
      cases hsome

/-- Inside `d` calls and under a limit, an evaluation does what it does inside none and under a
limit that is smaller by `d`. -/
theorem Evaluator.evaluate?_inside {d l : Nat} (h : d ≤ l) (sink : Sink) (log log' : Log)
    (e : Expr) (env : Env) :
    Option.Rel (fun done done' => done.EndsAs (EvalError.shiftLimit d) done' ∧ done'.env = done.env)
      (Evaluator.evaluate? ⟨some (l - d), 0, sink, log⟩ e env)
      (Evaluator.evaluate? ⟨some l, d, sink, log'⟩ e env) := by
  let ev : Evaluator := ⟨some (l - d), 0, sink, log⟩
  let ev' : Evaluator := ⟨some l, d, sink, log'⟩
  have hlimit : ev.limit.map (· + d) = ev'.limit.map (· + 0) :=
    congrArg some (Nat.sub_add_cancel h)
  have hdepth : ev.depth + d = ev'.depth + 0 := Nat.zero_add d
  have hsink : ev'.sink = ev.sink := rfl
  have hrel := Evaluator.evaluate?_offset hlimit hdepth hsink e env
  exact Correspondence.rel_imp (fun _ _ => Correspondence.endsAs_of_ends) hrel

end TreeLang
