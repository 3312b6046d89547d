import TreeLang.Proofs.Code
import TreeLang.Proofs.Correspondence

/-!
# Bindings that are not mentioned do not matter

A frame inherits all bindings of its caller, also those that no code ever looks up. These go from
frame to frame, but nothing depends on them: if the expression and the functions that it can reach
look up names of a set only, then all that matters of a frame is what the names of this set are
bound to. Two evaluations in frames that agree on the set end alike, and in frames that agree on all
names on which they agreed before.
-/

namespace TreeLang

/-- All names that are looked up in an expression, also in the bodies of its function literals, are
in the set. -/
def Expr.MentionsOnly (names : Set String) (e : Expr) : Prop :=
  ∀ name, (Expr.var name).OccursIn e → name ∈ names

/-- All names that are looked up in the functions of a value are in the set. -/
def Value.MentionsOnly (names : Set String) (value : Value) : Prop :=
  ∀ name, (Expr.var name).OccursInValue value → name ∈ names

section

variable {names : Set String}

theorem Expr.MentionsOnly.operand {e part : Expr} (h : e.MentionsOnly names)
    (hpart : part ∈ e.operands) : part.MentionsOnly names :=
  fun name hname => h name (.operand hpart hname)

theorem Value.mentionsOnly_of_isAtom {value : Value} (h : value.IsAtom) :
    value.MentionsOnly names := by
  intro name hname
  cases hname with
  | closure _ => exact h.elim
  | first _ => exact h.elim
  | second _ => exact h.elim

theorem Value.mentionsOnly_tuple {first second : Value} :
    (Value.tuple first second).MentionsOnly names ↔
      first.MentionsOnly names ∧ second.MentionsOnly names := by
  constructor
  · intro h
    exact ⟨fun name hname => h name (.first hname), fun name hname => h name (.second hname)⟩
  · rintro ⟨hfirst, hsecond⟩ name hname
    cases hname with
    | first hname => exact hfirst name hname
    | second hname => exact hsecond name hname

/-- What a function mentions is what its body does. -/
theorem Value.mentionsOnly_closure {f : Lambda} :
    (Value.closure f).MentionsOnly names ↔ f.body.MentionsOnly names := by
  constructor
  · exact fun h name hname => h name (.closure (.body hname))
  · intro h name hname
    cases hname with
    | closure hname =>
      cases hname with
      | operand hoperand _ => cases hoperand
      | body hname => exact h name hname

end

/-! ## The correspondence -/

/-- In both evaluations the same code is evaluated, which mentions only names of `names`. The frames
agree on `shared`, and `names` are bound to values of which this is true, too. -/
def Correspondence.agreeing (names shared : Set String) : Correspondence where
  depth := Eq
  expr := fun e e' => e' = e ∧ e.MentionsOnly names
  lambda := fun f f' => f' = f ∧ f.body.MentionsOnly names
  env := fun env env' => (∀ name ∈ shared, env'.get? name = env.get? name) ∧
    ∀ name ∈ names, ∀ value, env.get? name = some value → value.MentionsOnly names
  frame := fun frame frame' => frame' = frame ∧ frame.All (Value.MentionsOnly names)
  error := Eq

namespace Correspondence

variable {names shared : Set String}

theorem value_agreeing {v v' : Value} :
    (agreeing names shared).value v v' ↔ v' = v ∧ v.MentionsOnly names := by
  constructor
  · intro h
    induction h with
    | tuple _ _ ih₁ ih₂ =>
      obtain ⟨rfl, hfirst⟩ := ih₁
      obtain ⟨rfl, hsecond⟩ := ih₂
      exact ⟨rfl, Value.mentionsOnly_tuple.mpr ⟨hfirst, hsecond⟩⟩
    | closure hf =>
      obtain ⟨rfl, hf⟩ := hf
      exact ⟨rfl, Value.mentionsOnly_closure.mpr hf⟩
    | _ => exact ⟨rfl, Value.mentionsOnly_of_isAtom trivial⟩
  · rintro ⟨rfl, h⟩
    induction v' with
    | tuple first second ih₁ ih₂ =>
      obtain ⟨hfirst, hsecond⟩ := Value.mentionsOnly_tuple.mp h
      exact .tuple (ih₁ hfirst) (ih₂ hsecond)
    | closure f => exact .closure ⟨rfl, Value.mentionsOnly_closure.mp h⟩
    | _ => exact .of_isAtom trivial

/-- A name is bound in both frames as before. -/
theorem agreeing_assign {env env' : Env} (h : (agreeing names shared).env env env') {name : String}
    {v : Value} (hv : v.MentionsOnly names) :
    (agreeing names shared).env (env.set name v) (env'.set name v) := by
  obtain ⟨hshared, hnames⟩ := h
  refine ⟨fun other hother => ?_, fun other hother value hvalue => ?_⟩
  · rw [Env.get?_set, Env.get?_set, hshared other hother]
  · rw [Env.get?_set] at hvalue
    split at hvalue
    · cases hvalue
      exact hv
    · exact hnames other hother value hvalue

theorem agreeing_inherit {frame env env' : Env} (hframe : frame.All (Value.MentionsOnly names))
    (h : (agreeing names shared).env env env') :
    (agreeing names shared).env (frame.inherit env) (frame.inherit env') := by
  obtain ⟨hshared, hnames⟩ := h
  refine ⟨fun name hname => ?_, fun name hname value hvalue => ?_⟩
  · rw [Env.get?_inherit, Env.get?_inherit, hshared name hname]
  · rw [Env.get?_inherit, Option.or_eq_some_iff] at hvalue
    rcases hvalue with hvalue | ⟨-, hvalue⟩
    · exact hframe name value hvalue
    · exact hnames name hname value hvalue

theorem agreeing_param (param : String) : (agreeing names shared).Param param param := by
  rintro frame _ v _ ⟨rfl, hframe⟩ hv
  obtain ⟨rfl, hv⟩ := value_agreeing.mp hv
  unfold Env.bindParam
  split
  · exact .error rfl
  · exact .ok ⟨rfl, hframe.set hv⟩

/-- The same code has the same form in frames that agree on the names that it mentions. -/
theorem agreeing_form (hnames : names ⊆ shared) {e : Expr} (he : e.MentionsOnly names) :
    (agreeing names shared).Form e e := by
  refine .self (fun part hpart => ⟨rfl, he.operand hpart⟩) (fun henv hv => ?_) ?_ (fun _ => rfl) ?_
  · obtain ⟨rfl, hv⟩ := value_agreeing.mp hv
    exact agreeing_assign henv hv
  · rintro name rfl env env' ⟨hshared, hcode⟩
    have hname : name ∈ names := he name .here
    rw [hshared name (hnames hname)]
    cases hvalue : env.get? name with
    | none => exact .none
    | some value => exact .some (value_agreeing.mpr ⟨rfl, hcode name hname value hvalue⟩)
  · rintro params body rfl
    exact ⟨rfl, fun name hname => he name (.body hname)⟩

theorem lawful_agreeing (hnames : names ⊆ shared) (limit : Option Nat) :
    (agreeing names shared).Lawful limit limit where
  admits := by
    rintro depth _ rfl
    exact admits_self limit depth fun _ => rfl
  deeper := by
    rintro depth _ rfl
    rfl
  form := by
    rintro e _ ⟨rfl, he⟩
    exact agreeing_form hnames he
  params := by
    rintro f _ ⟨rfl, -⟩
    exact List.forall₂_same.mpr fun param _ => agreeing_param param
  body := by
    rintro f _ ⟨rfl, hf⟩
    exact ⟨rfl, hf⟩
  unique := by
    rintro f _ g _ ⟨rfl, -⟩ ⟨rfl, -⟩
    rfl
  empty := ⟨rfl, .empty _⟩
  inherit := by
    rintro frame _ env env' ⟨rfl, hframe⟩ henv
    exact agreeing_inherit hframe henv
  nameless := fun _ => rfl

end Correspondence

/-! ## Evaluations -/

/-- Two evaluations end with the same result and sink, in environments that agree on the names. -/
structure Evaluation.AgreesOn (names : Set String) (done done' : Evaluation) : Prop where
  /-- The values or errors are equal. -/
  result : done'.result = done.result
  /-- So are the sinks. -/
  sink : done'.evaluator.sink = done.evaluator.sink
  /-- The names are bound to the same values, or not bound. -/
  env : ∀ name ∈ names, done'.env.get? name = done.env.get? name

theorem Correspondence.agreesOn_of_ends {names shared : Set String} {done done' : Evaluation}
    (h : (agreeing names shared).Ends done done') : Evaluation.AgreesOn shared done done' := by
  obtain ⟨hresult, henv, hsink⟩ := h
  refine ⟨?_, hsink, henv.1⟩
  obtain ⟨result, env, ev⟩ := done
  obtain ⟨result', env', ev'⟩ := done'
  cases hresult with
  | ok hv => exact congrArg Except.ok (value_agreeing.mp hv).1
  | error hcause => exact congrArg Except.error (Eq.symm hcause)

/-- Bindings that a program cannot mention do not influence it. Let an expression mention names of a
set only, and let two environments bind these to the same values, whose functions mention names of
the set only, too. Then both evaluations end, with the same result and the same output, or both do
not end; and the environments that they leave agree on all names on which the environments agreed
before. In particular an evaluation depends on an environment only through what its names are bound
to. -/
theorem Evaluator.evaluate?_unmentioned (ev : Evaluator) (e : Expr) (env env' : Env) :
    (∀ names : Set String, e.MentionsOnly names →
      (∀ name ∈ names, env'.get? name = env.get? name) →
      (∀ name ∈ names, ∀ value, env.get? name = some value → value.MentionsOnly names) →
      Option.Rel (Evaluation.AgreesOn {name | env'.get? name = env.get? name})
        (ev.evaluate? e env) (ev.evaluate? e env')) ∧
    ((∀ name, env'.get? name = env.get? name) →
      Option.Rel (Evaluation.AgreesOn Set.univ) (ev.evaluate? e env) (ev.evaluate? e env')) := by
  have hrel : ∀ names shared : Set String, names ⊆ shared → e.MentionsOnly names →
      (∀ name ∈ shared, env'.get? name = env.get? name) →
      (∀ name ∈ names, ∀ value, env.get? name = some value → value.MentionsOnly names) →
      Option.Rel (Evaluation.AgreesOn shared) (ev.evaluate? e env) (ev.evaluate? e env') := by
    intro names shared hnames he hshared hcode
    have hends : Option.Rel (Correspondence.agreeing names shared).Ends
        (ev.evaluate? e env) (ev.evaluate? e env') :=
      Correspondence.Lawful.evaluate?_rel (Correspondence.lawful_agreeing hnames) Eq.symm rfl rfl
        rfl ⟨rfl, he⟩ ⟨hshared, hcode⟩
    exact Correspondence.rel_imp (fun _ _ => Correspondence.agreesOn_of_ends) hends
  refine ⟨fun names he hnames hcode => ?_, fun hall => ?_⟩
  · exact hrel names _ hnames he (fun _ hname => hname) hcode
  · exact hrel Set.univ Set.univ (fun _ hname => hname) (fun _ _ => trivial)
      (fun name _ => hall name) fun _ _ _ _ _ _ => trivial

/-- A function that is called where another binding differs, and where the bindings are kept in
another order. -/
theorem Evaluator.evaluate?_unmentioned_call :
    let f : Lambda := ⟨[], .var "y"⟩
    let e : Expr := .call (.var "f") []
    let env := ((Env.empty.set "f" (.closure f)).set "y" (.int 1)).set "z" (.int 2)
    let g : Lambda := ⟨[], .var "x"⟩
    let env' := ((Env.empty.set "z" (.closure g)).set "y" (.int 1)).set "f" (.closure f)
    let ev := Evaluator.new none Sink.unlimited Log.off
    (∀ name ∈ ({"f", "y"} : Set String), env'.get? name = env.get? name) ∧
    env'.get? "z" ≠ env.get? "z" ∧
    ∃ done done', ev.evaluate? e env = some done ∧ ev.evaluate? e env' = some done' ∧
      done.result = .ok (.int 1) ∧ done'.result = .ok (.int 1) ∧
      Evaluation.AgreesOn {name | env'.get? name = env.get? name} done done' := by
  intro f e env g env' ev
  have hsame : ∀ name ∈ ({"f", "y"} : Set String), env'.get? name = env.get? name := by
    rintro name (rfl | rfl) <;> rfl
  have he : e.MentionsOnly {"f", "y"} := by
    intro name hname
    have hname : (Expr.var name).OccursIn (.call (.var "f") []) := hname
    cases hname with
    | operand hoperand h =>
      obtain rfl := List.mem_singleton.mp hoperand
      cases h with
      | here => exact .inl rfl
      | operand hoperand _ => cases hoperand
  have hcode : ∀ name ∈ ({"f", "y"} : Set String), ∀ value, env.get? name = some value →
      value.MentionsOnly {"f", "y"} := by
    rintro name (rfl | rfl) value ⟨⟩
    · refine Value.mentionsOnly_closure.mpr fun name hname => ?_
      cases hname with
      | here => exact .inr rfl
      | operand hoperand _ => cases hoperand
    · exact Value.mentionsOnly_of_isAtom trivial
  have hadmits : ∀ l, (none : Option Nat) = some l → 0 < l := by
    intro l hl
    cases hl
  have hrun : Evaluates none 0 e env (.ok (.int 1)) env _ :=
    .call (.var rfl) rfl hadmits .nil (.var rfl)
  obtain ⟨t, ht, -⟩ := hrun.ends (ev.before env) rfl rfl rfl
  have hdone : ev.evaluate? e env = some (ev.after (.ok (.int 1), t)) := by
    rw [Evaluator.evaluate?]
    exact congrArg _ ht
  have hrel := (Evaluator.evaluate?_unmentioned ev e env env').1 {"f", "y"} he hsame hcode
  rw [hdone] at hrel
  have hother : env'.get? "z" ≠ env.get? "z" := by
    intro hz
    cases hz
  refine ⟨hsame, hother, ?_⟩
  cases hdone' : ev.evaluate? e env' with
  | none =>
    rw [hdone'] at hrel
    cases hrel
  | some done' =>
    rw [hdone'] at hrel
    cases hrel with
    | some hagrees => exact ⟨_, done', hdone, rfl, rfl, hagrees.result, hagrees⟩

end TreeLang
