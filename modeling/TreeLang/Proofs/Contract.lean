import TreeLang.Eval

/-!
# Contracts of evaluations

Many facts about a single evaluation have the same proof. Something is known of the expression and
of the frame in which it starts; something holds of the frame that it leaves, of its value and of
its error; and each part of the expression has the same contract in the same frame. The body of a
function runs in a frame of its own, so it has a contract of its own, which has to give back to the
caller what the caller promised.

`Contract.Kept` lists what has to be shown for single forms, and `Contract.Kept.evaluate?` concludes
for whole evaluations. An induction over runs is made only here.
-/

namespace TreeLang

open Eval (bind_eq_some)

/-- The expressions that are evaluated in the frame of an expression itself. -/
def Expr.operands : Expr → List Expr
  | .tuple first second => [first, second]
  | .projection _ source => [source]
  | .binary _ lhs rhs => [lhs, rhs]
  | .letIn _ value next => [value, next]
  | .print inner => [inner]
  | .cond condition consequent alternative => [condition, consequent, alternative]
  | .call callee arguments => callee :: arguments
  | _ => []

/-- A value that has no values and no code inside. -/
def Value.IsAtom : Value → Prop
  | .tuple _ _ => False
  | .closure _ => False
  | _ => True

/-! ## Frames -/

/-- All values of the frame satisfy `P`. -/
def Env.All (P : Value → Prop) (env : Env) : Prop :=
  ∀ name value, env.get? name = some value → P value

theorem Env.All.empty (P : Value → Prop) : Env.empty.All P := nofun

theorem Env.All.set {P : Value → Prop} {env : Env} (h : env.All P) {name : String}
    {value : Value} (hvalue : P value) : (env.set name value).All P := by
  intro other w hother
  rw [Env.get?_set] at hother
  split at hother
  · cases hother
    exact hvalue
  · exact h other w hother

theorem Env.All.inherit {P : Value → Prop} {frame caller : Env} (hframe : frame.All P)
    (hcaller : caller.All P) : (frame.inherit caller).All P := by
  intro name value hname
  rw [Env.get?_inherit, Option.or_eq_some_iff] at hname
  rcases hname with hname | ⟨-, hname⟩
  · exact hframe name value hname
  · exact hcaller name value hname

theorem Env.contains_set {env : Env} {name other : String} {value : Value} :
    (env.set name value).contains other = true ↔ other = name ∨ env.contains other = true := by
  unfold Env.contains
  rw [Env.get?_set]
  split <;> simp [*]

theorem Env.bindParam_eq_ok {frame frame' : Env} {param : String} {value : Value}
    (h : frame.bindParam param value = .ok frame') : frame' = frame.set param value := by
  unfold Env.bindParam at h
  split at h
  · cases h
  · cases h
    rfl

theorem Env.bindParam_eq_error {frame : Env} {param : String} {value : Value} {cause : EvalError}
    (h : frame.bindParam param value = .error cause) :
    frame.contains param = true ∧ cause = .duplicateParameter param := by
  unfold Env.bindParam at h
  split at h
  · rename_i hcontains
    cases h
    exact ⟨hcontains, rfl⟩
  · cases h

/-! ## Contracts -/

/-- The errors that an expression raises by itself, not by one of its operands, in a frame `env` and
where all values are in `values`. -/
inductive Expr.Raises (limit : Option Nat) (values : Value → Prop) (env : Env) :
    Expr → EvalError → Prop where
  /-- A name that is not bound. -/
  | unbound {name : String} (hname : env.get? name = none) :
      Raises limit values env (.var name) (.undefinedVariable name)
  /-- A component of what is no pair. -/
  | projection {side : Side} {source : Expr} {value : Value} {cause : EvalError}
      (hvalue : values value) (hproject : value.project side = .error cause) :
      Raises limit values env (.projection side source) cause
  /-- An operator that has no result. -/
  | binary {op : String} {lhs rhs : Expr} {left right : Value} {cause : EvalError}
      (hleft : values left) (hright : values right)
      (happly : Op.applyNamed op left right = .error cause) :
      Raises limit values env (.binary op lhs rhs) cause
  /-- A condition that is no truth value. -/
  | condition {condition consequent alternative : Expr} {value : Value} {cause : EvalError}
      (hvalue : values value) (htruth : value.truth = .error cause) :
      Raises limit values env (.cond condition consequent alternative) cause
  /-- A line that the sink refuses. -/
  | output {inner : Expr} {fault : WriteFault} :
      Raises limit values env (.print inner) (.output fault)
  /-- A value that is not called with so many arguments. -/
  | callee {callee : Expr} {arguments : List Expr} {value : Value} {cause : EvalError}
      (hvalue : values value) (hcallee : value.callee arguments.length = .error cause) :
      Raises limit values env (.call callee arguments) cause
  /-- A call that would be nested too deep. -/
  | limit {callee : Expr} {arguments : List Expr} {l : Nat} (hlimit : limit = some l) :
      Raises limit values env (.call callee arguments) (.recursionLimit l)
  /-- A function that lists a parameter twice. -/
  | duplicate {callee : Expr} {arguments : List Expr} {f : Lambda} {name : String}
      (hf : values (.closure f)) (hname : 2 ≤ f.params.count name) :
      Raises limit values env (.call callee arguments) (.duplicateParameter name)

/-- What is known of an evaluation and what holds of its ending. The index is what all expressions
that are evaluated in one frame have in common. -/
structure Contract (ι : Type) where
  /-- The expressions that are evaluated. -/
  expr : ι → Expr → Prop
  /-- What holds of the frame, before an evaluation and after it. -/
  env : ι → Env → Prop
  /-- What holds of the values. -/
  value : ι → Value → Prop
  /-- What holds of the errors and the frames that are left with them. -/
  error : ι → Env → EvalError → Prop

/-! ## Results of operators

They have no values inside. -/

section

variable {op : Op} {left right value : Value}

theorem Op.isAtom_addValues (h : Op.addValues left right = .ok value) : value.IsAtom := by
  unfold Op.addValues at h
  split at h
  all_goals cases h
  all_goals trivial

theorem Op.isAtom_onInts {f : Int32 → Int32 → Value} (hf : ∀ a b, (f a b).IsAtom)
    (h : op.onInts f left right = .ok value) : value.IsAtom := by
  unfold Op.onInts at h
  split at h
  · cases h
    exact hf _ _
  · cases h

theorem Op.isAtom_onDivisor {f : Int32 → Int32 → Int32}
    (h : op.onDivisor f left right = .ok value) : value.IsAtom := by
  unfold Op.onDivisor at h
  split at h
  · split at h
    · cases h
    · cases h
      trivial
  · cases h

theorem Op.isAtom_onBools {f : Bool → Bool → Bool} (h : op.onBools f left right = .ok value) :
    value.IsAtom := by
  unfold Op.onBools at h
  split at h
  all_goals cases h
  all_goals trivial

/-- What an operator results in has no values inside. -/
theorem Op.isAtom_applyNamed {name : String} (h : Op.applyNamed name left right = .ok value) :
    value.IsAtom := by
  unfold Op.applyNamed at h
  split at h
  · rename_i op _
    cases op with
    | add => exact isAtom_addValues h
    | div | rem => exact isAtom_onDivisor h
    | and | or => exact isAtom_onBools h
    | eq | neq =>
      cases h
      trivial
    | _ =>
      refine isAtom_onInts ?_ h
      intro a b
      trivial
  · cases h

end

namespace Contract

/-- What has to be shown of a contract: each form keeps it if its parts do. -/
structure Kept {ι : Type} (c : Contract ι) (limit : Option Nat) : Prop where
  /-- The contract extends to the operands. -/
  operand : ∀ {i e part}, c.expr i e → part ∈ e.operands → c.expr i part
  /-- Literals and results of operators. -/
  atom : ∀ {i} {value : Value}, value.IsAtom → c.value i value
  /-- Pairs and their components. -/
  tuple : ∀ {i first second},
    c.value i (.tuple first second) ↔ c.value i first ∧ c.value i second
  /-- The values of function literals. -/
  closure : ∀ {i params body}, c.expr i (.function params body) →
    c.value i (.closure ⟨params, body⟩)
  /-- The values of names. -/
  lookup : ∀ {i env}, c.env i env → env.All (c.value i)
  /-- The frame in which a name has been bound. -/
  assign : ∀ {i env name value next v}, c.expr i (.letIn name value next) → c.env i env →
    c.value i v → c.env i (env.set name v)
  /-- The body of a function has a contract that gives back what is promised to the caller. -/
  call : ∀ {i f env frame}, c.value i (.closure f) → c.env i env → Env.All (c.value i) frame →
    ∃ j, c.expr j f.body ∧ c.env j (Env.inherit frame env) ∧
      (∀ value, c.value j value → c.value i value) ∧
      ∀ env' cause, c.env j env' → c.error j env' cause → c.error i env cause
  /-- The errors that a form raises by itself. -/
  raise : ∀ {i e env cause}, c.expr i e → c.env i env → e.Raises limit (c.value i) env cause →
    c.error i env cause

section

variable {ι α β : Type} {c : Contract ι} {i : ι} {P : α → Prop} {Q : β → Prop}

/-- The ending is one that the contract admits, and a result satisfies `P`. -/
structure Met (c : Contract ι) (i : ι) (P : α → Prop) (x : Outcome α) : Prop where
  /-- The frame that is left. -/
  env : c.env i x.2.env
  /-- The result. -/
  value : ∀ a, x.1 = .ok a → P a
  /-- The error. -/
  error : ∀ cause, x.1 = .error cause → c.error i x.2.env cause

/-- Started in a frame that the contract admits, the step ends as the contract says. -/
def Keeps (c : Contract ι) (i : ι) (P : α → Prop) (step : Eval α) : Prop :=
  ∀ s x, c.env i s.env → step s = some x → c.Met i P x

/-! ## Steps -/

theorem Met.ok {a : α} {s : State} (hs : c.env i s.env) (ha : P a) :
    c.Met i P (.ok a, s) := by
  refine ⟨hs, ?_, nofun⟩
  rintro _ ⟨⟩
  exact ha

theorem Met.failed {cause : EvalError} {s : State} (hs : c.env i s.env)
    (hcause : c.error i s.env cause) : c.Met i P (.error cause, s) := by
  refine ⟨hs, nofun, ?_⟩
  rintro _ ⟨⟩
  exact hcause

theorem Keeps.bind {first : Eval α} {next : α → Eval β} (hfirst : c.Keeps i P first)
    (hnext : ∀ a, P a → c.Keeps i Q (next a)) : c.Keeps i Q (first >>= next) := by
  intro s x hs h
  rcases bind_eq_some h with ⟨a, t, h₁, h₂⟩ | ⟨cause, t, h₁, rfl⟩
  · have hmet := hfirst s _ hs h₁
    exact hnext a (hmet.value a rfl) t x hmet.env h₂
  · have hmet := hfirst s _ hs h₁
    exact .failed hmet.env (hmet.error cause rfl)

theorem Keeps.ofExcept {result : Except EvalError α} (hok : ∀ a, result = .ok a → P a)
    (herror : ∀ env cause, c.env i env → result = .error cause → c.error i env cause) :
    c.Keeps i P (Eval.ofExcept result) := by
  intro s x hs h
  cases h
  exact ⟨hs, hok, fun cause => herror s.env cause hs⟩

theorem Keeps.pure {a : α} (ha : P a) : c.Keeps i P (Pure.pure a) := by
  intro s x hs h
  cases h
  exact .ok hs ha

/-- Writing changes no frame. -/
theorem Keeps.write {text : String}
    (herror : ∀ env fault, c.env i env → c.error i env (.output fault)) :
    c.Keeps i (fun _ => True) (Eval.write text) := by
  intro s x hs h
  rcases Eval.write_cases text s with ⟨sink, _, hwrite⟩ | ⟨fault, sink, _, hwrite⟩
  all_goals
    rw [hwrite] at h
    cases h
  · exact .ok hs trivial
  · exact .failed hs (herror s.env fault hs)

theorem Keeps.print {value : Value}
    (herror : ∀ env fault, c.env i env → c.error i env (.output fault)) :
    c.Keeps i (fun _ => True) (Eval.print value) := by
  have hwrite : ∀ text, c.Keeps i (fun _ => True) (Eval.write text) := fun _ => .write herror
  have hvalue : c.Keeps i (fun _ => True) (Eval.writeValue value) := by
    induction value with
    | tuple first second ih₁ ih₂ =>
      exact .bind (hwrite _) fun _ _ => .bind ih₁ fun _ _ => .bind (hwrite _) fun _ _ =>
        .bind ih₂ fun _ _ => hwrite _
    | _ => exact hwrite _
  exact .bind hvalue fun _ _ => hwrite _

theorem Keeps.checkDepth {limit : Option Nat}
    (herror : ∀ env l, c.env i env → limit = some l → c.error i env (.recursionLimit l)) :
    c.Keeps i (fun _ => True) (Eval.checkDepth limit) := by
  intro s x hs h
  rcases Eval.checkDepth_cases limit s with ⟨_, hcheck⟩ | ⟨l, hlimit, _, hcheck⟩
  all_goals
    rw [hcheck] at h
    cases h
  · exact .ok hs trivial
  · exact .failed hs (herror s.env l hs hlimit)

/-- Arguments are bound in a frame whose values keep the contract. The parameters of a function are
those that are bound already and those that are left, so a clash shows a parameter that is listed
twice. -/
theorem Keeps.bindArguments {self : Expr → Eval Value} {params : List String}
    {arguments : List Expr} {frame : Env} (all bound : List String)
    (hself : ∀ argument ∈ arguments, c.Keeps i (c.value i) (self argument))
    (herror : ∀ env name, c.env i env → 2 ≤ all.count name →
      c.error i env (.duplicateParameter name))
    (hall : all = bound ++ params) (hbound : ∀ name, frame.contains name = true → name ∈ bound)
    (hframe : frame.All (c.value i)) :
    c.Keeps i (Env.All (c.value i)) (Expr.bindArguments self frame params arguments) := by
  induction params generalizing bound arguments frame with
  | nil => exact .pure hframe
  | cons param params ih =>
    cases arguments with
    | nil => exact .pure hframe
    | cons argument arguments =>
      refine .bind (hself argument List.mem_cons_self) fun v hv => ?_
      refine .bind (P := fun frame' => frame' = frame.set param v)
        (.ofExcept (fun _ => Env.bindParam_eq_ok) fun env cause henv h => ?_) ?_
      · -- The name is bound, so it is listed once before and once here.
        obtain ⟨hcontains, rfl⟩ := Env.bindParam_eq_error h
        have hcount : 0 < bound.count param := List.count_pos_iff.mpr (hbound param hcontains)
        refine herror env param henv ?_
        rw [hall, List.count_append, List.count_cons_self]
        omega
      · rintro _ rfl
        refine ih (bound ++ [param])
          (fun a ha => hself a (List.mem_cons_of_mem _ ha)) ?_ ?_ (hframe.set hv)
        · rw [hall, List.append_assoc]
          rfl
        · intro name hname
          rcases Env.contains_set.mp hname with rfl | hname
          · simp
          · exact List.mem_append_left _ (hbound name hname)

end

/-! ## Evaluations -/

section

variable {ι : Type} {c : Contract ι} {limit : Option Nat} {i : ι} {self : Expr → Eval Value}

/-- The call of a function keeps the contract if all evaluations do. -/
theorem Kept.inCall (h : c.Kept limit)
    (hself : ∀ j e, c.expr j e → c.Keeps j (c.value j) (self e)) {f : Lambda} {frame : Env}
    (hf : c.value i (.closure f)) (hframe : frame.All (c.value i)) :
    c.Keeps i (c.value i) (Eval.inCall f.params frame (self f.body)) := by
  intro s x hs hx
  obtain ⟨y, hy, rfl⟩ := Eval.inCall_eq_some hx
  obtain ⟨j, hbody, henv, hvalue, herror⟩ := h.call hf hs hframe
  have hmet : c.Met j (c.value j) y := hself j f.body hbody _ y henv hy
  exact ⟨hs, fun v hv => hvalue v (hmet.value v hv),
    fun cause hcause => herror _ cause hmet.env (hmet.error cause hcause)⟩

/-- Every form keeps the contract if all evaluations do. -/
theorem Kept.evalForm (h : c.Kept limit)
    (hself : ∀ j e, c.expr j e → c.Keeps j (c.value j) (self e)) {e : Expr} (he : c.expr i e) :
    c.Keeps i (c.value i) (e.evalForm limit self) := by
  have hoperand : ∀ part ∈ e.operands, c.Keeps i (c.value i) (self part) :=
    fun part hpart => hself i part (h.operand he hpart)
  cases e with
  | str text => exact .pure (h.atom trivial)
  | int value => exact .pure (h.atom trivial)
  | bool value => exact .pure (h.atom trivial)
  | tuple first second =>
    refine .bind (hoperand first (by simp [Expr.operands])) fun v hv => ?_
    refine .bind (hoperand second (by simp [Expr.operands])) fun w hw => ?_
    exact .pure (h.tuple.mpr ⟨hv, hw⟩)
  | projection side source =>
    refine .bind (hoperand source (by simp [Expr.operands])) fun v hv => ?_
    refine .ofExcept (fun w hw => ?_) fun env cause henv hcause =>
      h.raise he henv (.projection hv hcause)
    cases v with
    | tuple first second =>
      cases side with
      | first =>
        cases hw
        exact (h.tuple.mp hv).1
      | second =>
        cases hw
        exact (h.tuple.mp hv).2
    | _ => cases hw
  | binary op lhs rhs =>
    refine .bind (hoperand lhs (by simp [Expr.operands])) fun v hv => ?_
    refine .bind (hoperand rhs (by simp [Expr.operands])) fun w hw => ?_
    exact .ofExcept (fun u hu => h.atom (Op.isAtom_applyNamed hu)) fun env cause henv hcause =>
      h.raise he henv (.binary hv hw hcause)
  | letIn name value next =>
    refine .bind (hoperand value (by simp [Expr.operands])) fun v hv => ?_
    refine .bind (P := fun _ => True) ?_ fun _ _ => hoperand next (by simp [Expr.operands])
    intro s x hs hx
    cases hx
    exact .ok (h.assign he hs hv) trivial
  | var name =>
    intro s x hs hx
    cases hname : s.env.get? name with
    | some v =>
      cases (Eval.lookup_of_some hname).symm.trans hx
      exact .ok hs (h.lookup hs name v hname)
    | none =>
      cases (Eval.lookup_of_none hname).symm.trans hx
      exact .failed hs (h.raise he hs (.unbound hname))
  | print inner =>
    refine .bind (hoperand inner (by simp [Expr.operands])) fun v hv => ?_
    refine .bind (.print fun env fault henv => h.raise he henv .output) fun _ _ => ?_
    exact .pure hv
  | cond condition consequent alternative =>
    refine .bind (hoperand condition (by simp [Expr.operands])) fun v hv => ?_
    refine .bind (P := fun _ => True) (.ofExcept (fun _ _ => trivial)
      fun env cause henv hcause => h.raise he henv (.condition hv hcause)) fun truth _ => ?_
    cases truth with
    | true => exact hoperand consequent (by simp [Expr.operands])
    | false => exact hoperand alternative (by simp [Expr.operands])
  | function params body => exact .pure (h.closure he)
  | call callee arguments =>
    refine .bind (hoperand callee (by simp [Expr.operands])) fun v hv => ?_
    refine .bind (P := fun f => c.value i (.closure f)) (.ofExcept (fun f hf => ?_)
      fun env cause henv hcause => h.raise he henv (.callee hv hcause)) fun f hf => ?_
    · cases v with
      | closure g =>
        simp only [Value.callee] at hf
        split at hf
        · cases hf
          exact hv
        · cases hf
      | _ => cases hf
    · refine .bind (.checkDepth fun env l henv hl => h.raise he henv (.limit hl)) fun _ _ => ?_
      refine .bind (.bindArguments f.params [] (fun a ha => hoperand a ?_)
        (fun env name henv hname => h.raise he henv (.duplicate hf hname)) rfl
        (fun _ hname => absurd hname Bool.false_ne_true) (.empty _))
        fun frame hframe => h.inCall hself hf hframe
      exact List.mem_cons_of_mem _ ha

/-- Evaluations keep a contract that is kept by single forms. -/
theorem Kept.evaluate? (h : c.Kept limit) {e : Expr} (he : c.expr i e) :
    c.Keeps i (c.value i) (e.evaluate? limit) := by
  intro s x hs hx
  -- The body of a function has another index, so the induction is for all of them.
  refine Expr.evaluate?_induction limit
    (fun e s x => ∀ i, c.expr i e → c.env i s.env → c.Met i (c.value i) x) ?_ hx i he hs
  intro self hself e s x hx i he hs
  rw [Expr.evalVia_apply] at hx
  have hself' : ∀ j e, c.expr j e → c.Keeps j (c.value j) (self e) :=
    fun j e he s x hs hx => hself e s x hx j he hs
  exact h.evalForm hself' he (s.started e) x hs hx

end

end Contract

end TreeLang
