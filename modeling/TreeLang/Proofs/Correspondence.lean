import Mathlib.Data.List.Forall2
import TreeLang.Proofs.Contract
import TreeLang.Proofs.Limit

/-!
# Evaluations side by side

Some facts about evaluations compare two that do not start alike: the expressions, the frames or
the limits differ, but what one evaluation works on corresponds to what the other works on. If
corresponding expressions have the same form with corresponding parts, and if what is bound and
looked up corresponds, then the evaluations go on side by side and end alike. Their logs do not
matter.

`Correspondence.Lawful` lists what has to be shown of a correspondence, and
`Correspondence.Lawful.evaluate?` concludes for whole evaluations. That the second evaluation ends
only if the first does needs no second induction: under a limit both end, so
`Expr.ends_of_corresponds` derives it from the first direction.
-/

namespace TreeLang

open Eval (bind_of_ok bind_of_error bind_eq_some)

/-! ## Values -/

/-- The values are the same up to their functions, which are related. -/
inductive Value.Alike (lambda : Lambda → Lambda → Prop) : Value → Value → Prop where
  | str (text : String) : Alike lambda (.str text) (.str text)
  | int (n : Int32) : Alike lambda (.int n) (.int n)
  | bool (b : Bool) : Alike lambda (.bool b) (.bool b)
  | tuple {first first' second second' : Value} (hfirst : Alike lambda first first')
      (hsecond : Alike lambda second second') :
      Alike lambda (.tuple first second) (.tuple first' second')
  | closure {f f' : Lambda} (hf : lambda f f') : Alike lambda (.closure f) (.closure f')

section

variable {lambda : Lambda → Lambda → Prop} {v v' w w' : Value}

/-- A value without values or functions inside is like itself. -/
theorem Value.Alike.of_isAtom (h : v.IsAtom) : Value.Alike lambda v v := by
  cases v with
  | str text => exact .str text
  | int n => exact .int n
  | bool b => exact .bool b
  | tuple first second => exact h.elim
  | closure f => exact h.elim

/-- Functions do not show in the text of a value. -/
theorem Value.Alike.render_eq (h : Value.Alike lambda v v') : v'.render = v.render := by
  induction h with
  | tuple _ _ ih₁ ih₂ => rw [Value.render, Value.render, ih₁, ih₂]
  | _ => rfl

theorem Value.Alike.writeValue_eq (h : Value.Alike lambda v v') :
    (Eval.writeValue v' : Eval Unit) = Eval.writeValue v := by
  induction h with
  | tuple _ _ ih₁ ih₂ => rw [Eval.writeValue, Eval.writeValue, ih₁, ih₂]
  | _ => rfl

/-- Values are equal exactly where the values that are like them are, if that is so of functions. -/
theorem Value.Alike.eq_iff
    (hunique : ∀ {f f' g g'}, lambda f f' → lambda g g' → (f = g ↔ f' = g'))
    (hv : Value.Alike lambda v v') (hw : Value.Alike lambda w w') : v = w ↔ v' = w' := by
  induction hv generalizing w w' with
  | tuple _ _ ih₁ ih₂ =>
    cases hw with
    | tuple h₁ h₂ => rw [Value.tuple.injEq, Value.tuple.injEq, ih₁ h₁, ih₂ h₂]
    | _ => simp
  | closure hf =>
    cases hw with
    | closure hg => rw [Value.closure.injEq, Value.closure.injEq, hunique hf hg]
    | _ => simp
  | _ => cases hw <;> simp

end

/-! ## Correspondences -/

/-- The error names neither a variable nor a parameter nor a limit. -/
def EvalError.Nameless : EvalError → Prop
  | undefinedVariable _ => False
  | duplicateParameter _ => False
  | recursionLimit _ => False
  | _ => True

/-- What corresponds to what in two evaluations. -/
structure Correspondence where
  /-- The numbers of active calls. -/
  depth : Nat → Nat → Prop
  /-- The expressions that are evaluated. -/
  expr : Expr → Expr → Prop
  /-- The functions in values. -/
  lambda : Lambda → Lambda → Prop
  /-- The frames in which expressions are evaluated. -/
  env : Env → Env → Prop
  /-- The frames in which only arguments are bound so far. -/
  frame : Env → Env → Prop
  /-- The errors. -/
  error : EvalError → EvalError → Prop

namespace Correspondence

variable {α β γ δ : Type}

/-- Corresponding values. -/
def value (c : Correspondence) : Value → Value → Prop := Value.Alike c.lambda

/-- Two results correspond: both are errors, or both are related by `P`. -/
inductive Result (c : Correspondence) (P : α → β → Prop) :
    Except EvalError α → Except EvalError β → Prop where
  | ok {a : α} {b : β} (h : P a b) : Result c P (.ok a) (.ok b)
  | error {cause cause' : EvalError} (h : c.error cause cause') :
      Result c P (.error cause) (.error cause')

/-- The expressions have the same form and corresponding parts. Names may differ if they do the same
to corresponding frames. -/
inductive Form (c : Correspondence) : Expr → Expr → Prop where
  | str (text : String) : Form c (.str text) (.str text)
  | int (n : Int32) : Form c (.int n) (.int n)
  | bool (b : Bool) : Form c (.bool b) (.bool b)
  | tuple {first first' second second' : Expr} (hfirst : c.expr first first')
      (hsecond : c.expr second second') : Form c (.tuple first second) (.tuple first' second')
  | projection (side : Side) {source source' : Expr} (hsource : c.expr source source') :
      Form c (.projection side source) (.projection side source')
  | binary (op : String) {lhs lhs' rhs rhs' : Expr} (hlhs : c.expr lhs lhs')
      (hrhs : c.expr rhs rhs') : Form c (.binary op lhs rhs) (.binary op lhs' rhs')
  /-- The bindings of corresponding values. -/
  | letIn {name name' : String} {value value' next next' : Expr}
      (hassign : ∀ {env env' v v'}, c.env env env' → c.value v v' →
        c.env (env.set name v) (env'.set name' v'))
      (hvalue : c.expr value value') (hnext : c.expr next next') :
      Form c (.letIn name value next) (.letIn name' value' next')
  /-- Names that are both bound, to corresponding values, or both not bound. -/
  | var {name name' : String}
      (hlookup : ∀ {env env'}, c.env env env' →
        Option.Rel c.value (env.get? name) (env'.get? name'))
      (hunbound : c.error (.undefinedVariable name) (.undefinedVariable name')) :
      Form c (.var name) (.var name')
  | print {inner inner' : Expr} (hinner : c.expr inner inner') :
      Form c (.print inner) (.print inner')
  | cond {condition condition' consequent consequent' alternative alternative' : Expr}
      (hcondition : c.expr condition condition') (hconsequent : c.expr consequent consequent')
      (halternative : c.expr alternative alternative') :
      Form c (.cond condition consequent alternative) (.cond condition' consequent' alternative')
  | function {params params' : List String} {body body' : Expr}
      (hfunction : c.lambda ⟨params, body⟩ ⟨params', body'⟩) :
      Form c (.function params body) (.function params' body')
  | call {callee callee' : Expr} {arguments arguments' : List Expr}
      (hcallee : c.expr callee callee') (harguments : List.Forall₂ c.expr arguments arguments') :
      Form c (.call callee arguments) (.call callee' arguments')

/-- An expression has its own form if its parts and its names correspond to themselves. -/
theorem Form.self {c : Correspondence} {e : Expr}
    (hoperands : ∀ part ∈ e.operands, c.expr part part)
    (hassign : ∀ {name env env' v v'}, c.env env env' → c.value v v' →
      c.env (env.set name v) (env'.set name v'))
    (hlookup : ∀ name, e = .var name → ∀ {env env'}, c.env env env' →
      Option.Rel c.value (env.get? name) (env'.get? name))
    (hunbound : ∀ name, c.error (.undefinedVariable name) (.undefinedVariable name))
    (hfunction : ∀ params body, e = .function params body →
      c.lambda ⟨params, body⟩ ⟨params, body⟩) : c.Form e e := by
  cases e with
  | str text => exact .str text
  | int n => exact .int n
  | bool b => exact .bool b
  | tuple first second => exact .tuple (hoperands _ (.head _)) (hoperands _ (.tail _ (.head _)))
  | projection side source => exact .projection side (hoperands _ (.head _))
  | binary op lhs rhs =>
    exact .binary op (hoperands _ (.head _)) (hoperands _ (.tail _ (.head _)))
  | letIn name value next =>
    exact .letIn hassign (hoperands _ (.head _)) (hoperands _ (.tail _ (.head _)))
  | var name => exact .var (hlookup name rfl) (hunbound name)
  | print inner => exact .print (hoperands _ (.head _))
  | cond condition consequent alternative =>
    exact .cond (hoperands _ (.head _)) (hoperands _ (.tail _ (.head _)))
      (hoperands _ (.tail _ (.tail _ (.head _))))
  | function params body => exact .function (hfunction params body rfl)
  | call callee arguments =>
    obtain ⟨hcallee, harguments⟩ := List.forall_mem_cons.mp hoperands
    exact .call hcallee (List.forall₂_same.mpr harguments)

/-- The parameters do the same to corresponding frames. -/
def Param (c : Correspondence) (param param' : String) : Prop :=
  ∀ {frame frame' v v'}, c.frame frame frame' → c.value v v' →
    c.Result c.frame (frame.bindParam param v) (frame'.bindParam param' v')

/-- What has to be shown of a correspondence between evaluations with these limits. -/
structure Lawful (c : Correspondence) (limit limit' : Option Nat) : Prop where
  /-- Both limits admit one more call, or none of them does. -/
  admits : ∀ {depth depth'}, c.depth depth depth' →
    ((∀ l, limit = some l → depth < l) ∧ (∀ l, limit' = some l → depth' < l)) ∨
      ∃ l l', limit = some l ∧ l ≤ depth ∧ limit' = some l' ∧ l' ≤ depth' ∧
        c.error (.recursionLimit l) (.recursionLimit l')
  /-- Inside one more call it is the same. -/
  deeper : ∀ {depth depth'}, c.depth depth depth' → c.depth (depth + 1) (depth' + 1)
  /-- Corresponding expressions have the same form. -/
  form : ∀ {e e'}, c.expr e e' → c.Form e e'
  /-- Corresponding functions have corresponding parameters. -/
  params : ∀ {f f'}, c.lambda f f' → List.Forall₂ c.Param f.params f'.params
  /-- So are their bodies. -/
  body : ∀ {f f'}, c.lambda f f' → c.expr f.body f'.body
  /-- Different functions do not correspond to the same one. -/
  unique : ∀ {f f' g g'}, c.lambda f f' → c.lambda g g' → (f = g ↔ f' = g')
  /-- Frames without bindings correspond. -/
  empty : c.frame Env.empty Env.empty
  /-- So do frames of calls, once they inherit the bindings of the callers. -/
  inherit : ∀ {frame frame' env env'}, c.frame frame frame' → c.env env env' →
    c.env (frame.inherit env) (frame'.inherit env')
  /-- Errors without names correspond to themselves. -/
  nameless : ∀ {cause : EvalError}, cause.Nameless → c.error cause cause

/-! ## Operators -/

section

variable {c : Correspondence} {limit limit' : Option Nat} {v v' w w' : Value}

theorem Lawful.project (h : c.Lawful limit limit') (hv : c.value v v') (side : Side) :
    c.Result c.value (v.project side) (v'.project side) := by
  cases hv with
  | tuple hfirst hsecond =>
    cases side with
    | first => exact .ok hfirst
    | second => exact .ok hsecond
  | _ => exact .error (h.nameless trivial)

theorem Lawful.truth (h : c.Lawful limit limit') (hv : c.value v v') :
    c.Result Eq v.truth v'.truth := by
  cases hv with
  | bool b => exact .ok rfl
  | _ => exact .error (h.nameless trivial)

theorem Lawful.callee (h : c.Lawful limit limit') (hv : c.value v v') (received : Nat) :
    c.Result c.lambda (v.callee received) (v'.callee received) := by
  cases hv with
  | @closure f f' hf =>
    have harity : f'.arity = f.arity := (h.params hf).length_eq.symm
    by_cases hreceived : f.arity = received
    · rw [Value.callee_closure hreceived, Value.callee_closure (harity.trans hreceived)]
      exact .ok hf
    · rw [Value.callee_closure_of_ne hreceived,
        Value.callee_closure_of_ne (fun heq => hreceived (harity.symm.trans heq)), harity]
      exact .error (h.nameless trivial)
  | _ => exact .error (h.nameless trivial)

theorem Lawful.addValues (h : c.Lawful limit limit') (hv : c.value v v') (hw : c.value w w') :
    c.Result c.value (Op.addValues v w) (Op.addValues v' w') := by
  have hv' : v'.render = v.render := hv.render_eq
  have hw' : w'.render = w.render := hw.render_eq
  have htext : ∀ {text text' : String}, text' = text →
      c.Result c.value (.ok (.str text)) (.ok (.str text')) := by
    intro text text' heq
    rw [heq]
    exact .ok (.str text)
  cases hv with
  | str a => exact htext (by rw [hw'])
  | int a =>
    cases hw with
    | str b => exact htext rfl
    | int b => exact .ok (.int _)
    | _ => exact .error (h.nameless trivial)
  | _ =>
    cases hw with
    | str b => exact htext (by rw [hv'])
    | _ => exact .error (h.nameless trivial)

theorem Lawful.onInts (h : c.Lawful limit limit') (hv : c.value v v') (hw : c.value w w') (op : Op)
    {f : Int32 → Int32 → Value} (hf : ∀ a b, (f a b).IsAtom) :
    c.Result c.value (op.onInts f v w) (op.onInts f v' w') := by
  cases hv with
  | int a =>
    cases hw with
    | int b => exact .ok (.of_isAtom (hf a b))
    | _ => exact .error (h.nameless trivial)
  | _ => cases hw <;> exact .error (h.nameless trivial)

theorem Lawful.onDivisor (h : c.Lawful limit limit') (hv : c.value v v') (hw : c.value w w')
    (op : Op) (f : Int32 → Int32 → Int32) :
    c.Result c.value (op.onDivisor f v w) (op.onDivisor f v' w') := by
  cases hv with
  | int a =>
    cases hw with
    | int b =>
      have hdivisor : op.onDivisor f (.int a) (.int b) =
          if b = 0 then .error (.divisionByZero op) else .ok (.int (f a b)) := rfl
      rw [hdivisor]
      split
      · exact .error (h.nameless trivial)
      · exact .ok (.int _)
    | _ => exact .error (h.nameless trivial)
  | _ => cases hw <;> exact .error (h.nameless trivial)

theorem Lawful.onBools (h : c.Lawful limit limit') (hv : c.value v v') (hw : c.value w w') (op : Op)
    (f : Bool → Bool → Bool) : c.Result c.value (op.onBools f v w) (op.onBools f v' w') := by
  cases hv with
  | bool a =>
    cases hw with
    | bool b => exact .ok (.bool _)
    | _ => exact .error (h.nameless trivial)
  | _ => cases hw <;> exact .error (h.nameless trivial)

/-- Operators have corresponding results on corresponding operands. -/
theorem Lawful.applyNamed (h : c.Lawful limit limit') (hv : c.value v v') (hw : c.value w w')
    (name : String) :
    c.Result c.value (Op.applyNamed name v w) (Op.applyNamed name v' w') := by
  have hequal : v = w ↔ v' = w' := hv.eq_iff h.unique hw
  unfold Op.applyNamed
  split
  · rename_i op _
    cases op with
    | add => exact h.addValues hv hw
    | div | rem => exact h.onDivisor hv hw _ _
    | and | or => exact h.onBools hv hw _ _
    | eq | neq =>
      simp only [Op.apply, ne_eq, hequal]
      exact .ok (.bool _)
    | _ => exact h.onInts hv hw _ fun _ _ => trivial
  · exact .error (h.nameless trivial)

end

/-! ## Steps -/

/-- States inside so many calls, with corresponding frames and the same sink. -/
structure Related (c : Correspondence) (depth depth' : Nat) (s s' : State) : Prop where
  /-- The frames correspond. -/
  env : c.env s.env s'.env
  /-- So many calls are active in the first state. -/
  depth : s.depth = depth
  /-- So many calls are active in the second state. -/
  depth' : s'.depth = depth'
  /-- The sinks are equal. -/
  sink : s'.sink = s.sink

/-- If the first step ends, the second one does so with a corresponding result, and both are back
inside as many calls. -/
def Matches (c : Correspondence) (depth depth' : Nat) (P : α → β → Prop) (first : Eval α)
    (second : Eval β) : Prop :=
  ∀ s s' x, c.Related depth depth' s s' → first s = some x →
    ∃ x', second s' = some x' ∧ c.Result P x.1 x'.1 ∧ c.Related depth depth' x.2 x'.2

section

variable {c : Correspondence} {limit limit' : Option Nat} {depth depth' : Nat}
  {P : α → β → Prop} {Q : γ → δ → Prop}

theorem Matches.bind {first : Eval α} {second : Eval β} {next : α → Eval γ} {next' : β → Eval δ}
    (h : c.Matches depth depth' P first second)
    (hnext : ∀ a b, P a b → c.Matches depth depth' Q (next a) (next' b)) :
    c.Matches depth depth' Q (first >>= next) (second >>= next') := by
  intro s s' x hs hx
  rcases bind_eq_some hx with ⟨a, t, h₁, h₂⟩ | ⟨cause, t, h₁, rfl⟩
  · obtain ⟨⟨_, t'⟩, h₁', ⟨⟩ | _, ht⟩ := h s s' _ hs h₁
    rename_i b hab
    obtain ⟨x', h₂', hresult, hend⟩ := hnext a b hab t t' x ht h₂
    exact ⟨x', (bind_of_ok h₁').trans h₂', hresult, hend⟩
  · obtain ⟨⟨_, t'⟩, h₁', _ | hcause, ht⟩ := h s s' _ hs h₁
    exact ⟨_, bind_of_error h₁', .error hcause, ht⟩

/-- Passing on corresponding results. -/
theorem Matches.ofExcept {result : Except EvalError α} {result' : Except EvalError β}
    (h : c.Result P result result') :
    c.Matches depth depth' P (Eval.ofExcept result) (Eval.ofExcept result') := by
  intro s s' x hs hx
  cases hx
  exact ⟨_, rfl, h, hs⟩

theorem Matches.pure {a : α} {b : β} (h : P a b) :
    c.Matches depth depth' P (Pure.pure a) (Pure.pure b) :=
  .ofExcept (.ok h)

theorem Matches.assign {name name' : String} {v v' : Value}
    (h : ∀ {env env'}, c.env env env' → c.env (env.set name v) (env'.set name' v')) :
    c.Matches depth depth' (fun _ _ => True) (Eval.assign name v) (Eval.assign name' v') := by
  intro s s' x hs hx
  cases hx
  exact ⟨_, rfl, .ok trivial, h hs.env, hs.depth, hs.depth', hs.sink⟩

theorem Matches.lookup {name name' : String}
    (hlookup : ∀ {env env'}, c.env env env' →
      Option.Rel c.value (env.get? name) (env'.get? name'))
    (hunbound : c.error (.undefinedVariable name) (.undefinedVariable name')) :
    c.Matches depth depth' c.value (Eval.lookup name) (Eval.lookup name') := by
  intro s s' x hs hx
  have hrel := hlookup hs.env
  cases hname : s.env.get? name with
  | some v =>
    cases (Eval.lookup_of_some hname).symm.trans hx
    rw [hname] at hrel
    cases hname' : s'.env.get? name' with
    | some v' =>
      rw [hname'] at hrel
      cases hrel with
      | some hv => exact ⟨_, Eval.lookup_of_some hname', .ok hv, hs⟩
    | none =>
      rw [hname'] at hrel
      cases hrel
  | none =>
    cases (Eval.lookup_of_none hname).symm.trans hx
    rw [hname] at hrel
    cases hname' : s'.env.get? name' with
    | some v' =>
      rw [hname'] at hrel
      cases hrel
    | none => exact ⟨_, Eval.lookup_of_none hname', .error hunbound, hs⟩

/-- The same text is written to equal sinks. -/
theorem Matches.write (h : c.Lawful limit limit') (text : String) :
    c.Matches depth depth' (fun _ _ => True) (Eval.write text) (Eval.write text) := by
  intro s s' x hs hx
  rcases Eval.write_cases text s with ⟨sink, hsink, hwrite⟩ | ⟨fault, sink, hsink, hwrite⟩
  all_goals
    cases hwrite.symm.trans hx
    rw [← hs.sink] at hsink
  · exact ⟨_, Eval.write_of_none hsink, .ok trivial, hs.env, hs.depth, hs.depth', rfl⟩
  · exact ⟨_, Eval.write_of_some hsink, .error (h.nameless trivial), hs.env, hs.depth, hs.depth',
      rfl⟩

theorem Matches.print (h : c.Lawful limit limit') {v v' : Value} (hv : c.value v v') :
    c.Matches depth depth' (fun _ _ => True) (Eval.print v) (Eval.print v') := by
  have hvalue : c.Matches depth depth' (fun _ _ => True) (Eval.writeValue v)
      (Eval.writeValue v) := by
    clear hv
    induction v with
    | tuple first second ih₁ ih₂ =>
      exact .bind (.write h _) fun _ _ _ => .bind ih₁ fun _ _ _ => .bind (.write h _) fun _ _ _ =>
        .bind ih₂ fun _ _ _ => .write h _
    | _ => exact .write h _
  unfold Eval.print
  rw [hv.writeValue_eq]
  exact .bind hvalue fun _ _ _ => .write h _

theorem Matches.checkDepth (h : c.Lawful limit limit') (hdepth : c.depth depth depth') :
    c.Matches depth depth' (fun _ _ => True) (Eval.checkDepth limit)
      (Eval.checkDepth limit') := by
  intro s s' x hs hx
  have hadmits := h.admits hdepth
  rw [← hs.depth, ← hs.depth'] at hadmits
  rcases hadmits with ⟨hlt, hlt'⟩ | ⟨l, l', hl, hle, hl', hle', hcause⟩
  · rw [Eval.checkDepth_of_lt hlt] at hx
    cases hx
    exact ⟨_, Eval.checkDepth_of_lt hlt', .ok trivial, hs⟩
  · rw [hl, Eval.checkDepth_of_le hle] at hx
    cases hx
    rw [hl']
    exact ⟨_, Eval.checkDepth_of_le hle', .error hcause, hs⟩

variable {self self' : Expr → Eval Value}

theorem Matches.bindArguments {params params' : List String} {arguments arguments' : List Expr}
    {frame frame' : Env}
    (hself : ∀ e e', c.expr e e' → c.Matches depth depth' c.value (self e) (self' e'))
    (hparams : List.Forall₂ c.Param params params')
    (harguments : List.Forall₂ c.expr arguments arguments') (hframe : c.frame frame frame') :
    c.Matches depth depth' c.frame (Expr.bindArguments self frame params arguments)
      (Expr.bindArguments self' frame' params' arguments') := by
  induction hparams generalizing arguments arguments' frame frame' with
  | nil => exact .pure hframe
  | cons hparam _ ih =>
    cases harguments with
    | nil => exact .pure hframe
    | cons hargument harguments =>
      exact .bind (hself _ _ hargument) fun v v' hv =>
        .bind (.ofExcept (hparam hframe hv)) fun frame frame' hframe => ih harguments hframe

/-- The bodies of corresponding functions are evaluated inside one more call each. -/
theorem Matches.inCall (h : c.Lawful limit limit') {f f' : Lambda} {frame frame' : Env}
    {body body' : Eval Value} (hframe : c.frame frame frame')
    (hbody : c.Matches (depth + 1) (depth' + 1) c.value body body') :
    c.Matches depth depth' c.value (Eval.inCall f.params frame body)
      (Eval.inCall f'.params frame' body') := by
  intro s s' x hs hx
  obtain ⟨y, hy, rfl⟩ := Eval.inCall_eq_some hx
  have hentered : c.Related (depth + 1) (depth' + 1) (s.entered f.params frame)
      (s'.entered f'.params frame') :=
    ⟨h.inherit hframe hs.env, congrArg (· + 1) hs.depth, congrArg (· + 1) hs.depth', hs.sink⟩
  obtain ⟨y', hy', hresult, hleft⟩ := hbody _ _ y hentered hy
  refine ⟨_, Eval.inCall_of_some hy', hresult, hs.env, ?_, ?_, hleft.sink⟩
  · show y.2.depth - 1 = depth
    rw [hleft.depth]
    rfl
  · show y'.2.depth - 1 = depth'
    rw [hleft.depth']
    rfl

end

/-! ## Evaluations -/

section

variable {c : Correspondence} {limit limit' : Option Nat} {depth depth' : Nat}
  {self self' : Expr → Eval Value} {e e' : Expr}

/-- Corresponding expressions do the same if all evaluations do. -/
theorem Lawful.evalForm (h : c.Lawful limit limit') (hdepth : c.depth depth depth')
    (hself : ∀ {depth depth' e e'}, c.depth depth depth' → c.expr e e' →
      c.Matches depth depth' c.value (self e) (self' e')) (he : c.expr e e') :
    c.Matches depth depth' c.value (e.evalForm limit self) (e'.evalForm limit' self') := by
  have hpart : ∀ e e', c.expr e e' → c.Matches depth depth' c.value (self e) (self' e') :=
    fun _ _ => hself hdepth
  cases h.form he with
  | str text => exact .pure (.str text)
  | int n => exact .pure (.int n)
  | bool b => exact .pure (.bool b)
  | tuple hfirst hsecond =>
    exact .bind (hpart _ _ hfirst) fun _ _ hv => .bind (hpart _ _ hsecond) fun _ _ hw =>
      .pure (.tuple hv hw)
  | projection side hsource =>
    exact .bind (hpart _ _ hsource) fun _ _ hv => .ofExcept (h.project hv side)
  | binary op hlhs hrhs =>
    exact .bind (hpart _ _ hlhs) fun _ _ hv => .bind (hpart _ _ hrhs) fun _ _ hw =>
      .ofExcept (h.applyNamed hv hw op)
  | letIn hassign hvalue hnext =>
    exact .bind (hpart _ _ hvalue) fun _ _ hv =>
      .bind (.assign fun henv => hassign henv hv) fun _ _ _ => hpart _ _ hnext
  | var hlookup hunbound => exact .lookup hlookup hunbound
  | print hinner =>
    exact .bind (hpart _ _ hinner) fun _ _ hv => .bind (.print h hv) fun _ _ _ => .pure hv
  | cond hcondition hconsequent halternative =>
    refine .bind (hpart _ _ hcondition) fun _ _ hv => .bind (.ofExcept (h.truth hv)) ?_
    rintro truth _ rfl
    cases truth with
    | true => exact hpart _ _ hconsequent
    | false => exact hpart _ _ halternative
  | function hfunction => exact .pure (.closure hfunction)
  | call hcallee harguments =>
    rw [Expr.evalForm, Expr.evalForm, harguments.length_eq]
    refine .bind (hpart _ _ hcallee) fun _ _ hv => .bind (.ofExcept (h.callee hv _)) ?_
    intro f f' hf
    have hbound : c.Matches depth depth' c.frame
        (Expr.bindArguments self Env.empty f.params _)
        (Expr.bindArguments self' Env.empty f'.params _) :=
      .bindArguments hpart (h.params hf) harguments h.empty
    have hbody : c.Matches (depth + 1) (depth' + 1) c.value (self f.body) (self' f'.body) :=
      hself (h.deeper hdepth) (h.body hf)
    exact .bind (.checkDepth h hdepth) fun _ _ _ => .bind hbound fun _ _ hframe =>
      .inCall h hframe hbody

/-- Corresponding expressions are evaluated side by side. -/
theorem Lawful.evaluate? (h : c.Lawful limit limit') (hdepth : c.depth depth depth')
    (he : c.expr e e') :
    c.Matches depth depth' c.value (e.evaluate? limit) (e'.evaluate? limit') := by
  intro s s' x hs hx
  -- Bodies of functions are evaluated inside more calls, so the induction is for all depths.
  refine Expr.evaluate?_induction limit
    (fun e s x => ∀ depth depth' e' s', c.depth depth depth' → c.expr e e' →
      c.Related depth depth' s s' → ∃ x', e'.evaluate? limit' s' = some x' ∧
        c.Result c.value x.1 x'.1 ∧ c.Related depth depth' x.2 x'.2)
    ?_ hx depth depth' e' s' hdepth he hs
  intro self hself e s x hx depth depth' e' s' hdepth he hs
  rw [Expr.evalVia_apply] at hx
  rw [Expr.evaluate?_apply]
  refine h.evalForm hdepth ?_ he (s.started e) (s'.started e') x ?_ hx
  · intro depth depth' e e' hdepth he s s' x hs hx
    exact hself e s x hx depth depth' e' s' hdepth he hs
  · exact ⟨hs.env, hs.depth, hs.depth', hs.sink⟩

end

end Correspondence

/-! ## Evaluations that do not end -/

/-- Let an evaluation end whenever another one does, under each limit and with the error of a limit
if the other one fails with it. Then the other one ends whenever this one does. -/
theorem Expr.ends_of_corresponds {e e' : Expr} {s s' : State}
    (h : ∀ limit x, e.evaluate? limit s = some x → ∃ x', e'.evaluate? limit s' = some x' ∧
      ∀ l, x.1 = .error (.recursionLimit l) → x'.1 = .error (.recursionLimit l))
    {limit : Option Nat} {x' : Outcome Value} (hx' : e'.evaluate? limit s' = some x') :
    ∃ x, e.evaluate? limit s = some x := by
  have htotal : ∀ l, ∃ x, e.evaluate? (some l) s = some x := by
    intro l
    obtain ⟨x, -, hx, -⟩ := e.follows_evalBounded l s.depth s rfl
    exact ⟨x, hx⟩
  cases limit with
  | some l => exact htotal l
  | none =>
    -- A limit that is large enough for the one is so for the other.
    obtain ⟨l, hl⟩ := Eval.simulation_sufficient.evaluate? e' s' x' hx'
    obtain ⟨x, hx⟩ := htotal l
    obtain ⟨y, hy, hlimit⟩ := h (some l) x hx
    obtain rfl : y = x' := Option.some.inj (hy.symm.trans (hl l (Nat.le_refl l)))
    have hnone : ∀ l', (none : Option Nat) = some l' → l ≤ l' := nofun
    refine ⟨x, (Eval.simulation_admitted hnone).evaluate? e s x hx fun k hk => ?_⟩
    cases (Eval.simulation_limitError none).evaluate? e' s' y hx' k (hlimit k hk)

namespace Correspondence

/-- The two evaluations end alike. -/
structure Ends (c : Correspondence) (done done' : Evaluation) : Prop where
  /-- The results correspond. -/
  result : c.Result c.value done.result done'.result
  /-- So do the frames that are left. -/
  env : c.env done.env done'.env
  /-- The sinks are equal. -/
  sink : done'.evaluator.sink = done.evaluator.sink

/-- If an evaluation ends, then so does one that corresponds to it, alike. -/
theorem Lawful.evaluate?_ends {c : Correspondence} {ev ev' : Evaluator}
    (h : c.Lawful ev.limit ev'.limit) (hdepth : c.depth ev.depth ev'.depth)
    (hsink : ev'.sink = ev.sink) {e e' : Expr} (he : c.expr e e') {env env' : Env}
    (henv : c.env env env') {done : Evaluation} (hdone : ev.evaluate? e env = some done) :
    ∃ done', ev'.evaluate? e' env' = some done' ∧ c.Ends done done' := by
  obtain ⟨x, hx, rfl⟩ := Evaluator.evaluate?_eq_some.mp hdone
  obtain ⟨x', hx', hresult, hend⟩ :=
    h.evaluate? hdepth he (ev.before env) (ev'.before env') x ⟨henv, rfl, rfl, hsink⟩ hx
  exact ⟨ev'.after x', Evaluator.evaluate?_eq_some.mpr ⟨x', hx', rfl⟩, hresult, hend.env, hend.sink⟩

/-- With the same limit and the same sink, corresponding evaluations both end, alike, or both do not
end. -/
theorem Lawful.evaluate?_rel {c : Correspondence} (h : ∀ limit, c.Lawful limit limit)
    (hrecursion : ∀ {l cause}, c.error (.recursionLimit l) cause → cause = .recursionLimit l)
    {ev ev' : Evaluator} (hlimit : ev'.limit = ev.limit) (hdepth : c.depth ev.depth ev'.depth)
    (hsink : ev'.sink = ev.sink) {e e' : Expr} (he : c.expr e e') {env env' : Env}
    (henv : c.env env env') : Option.Rel c.Ends (ev.evaluate? e env) (ev'.evaluate? e' env') := by
  have hlawful : c.Lawful ev.limit ev'.limit := by
    rw [hlimit]
    exact h ev.limit
  cases hdone : ev.evaluate? e env with
  | some done =>
    obtain ⟨done', hdone', hends⟩ := hlawful.evaluate?_ends hdepth hsink he henv hdone
    rw [hdone']
    exact .some hends
  | none =>
    cases hdone' : ev'.evaluate? e' env' with
    | none => exact .none
    | some done' =>
      obtain ⟨x', hx', -⟩ := Evaluator.evaluate?_eq_some.mp hdone'
      have hs : c.Related ev.depth ev'.depth (ev.before env) (ev'.before env') :=
        ⟨henv, rfl, rfl, hsink⟩
      have hends : ∃ x, e.evaluate? ev'.limit (ev.before env) = some x := by
        refine Expr.ends_of_corresponds (fun limit x hx => ?_) hx'
        obtain ⟨⟨result, t⟩, hx', hresult, -⟩ := (h limit).evaluate? hdepth he _ _ x hs hx
        refine ⟨_, hx', fun l hl => ?_⟩
        rw [hl] at hresult
        cases hresult with
        | error hcause => rw [hrecursion hcause]
      obtain ⟨x, hx⟩ := hends
      rw [hlimit] at hx
      cases hdone.symm.trans (Evaluator.evaluate?_eq_some.mpr ⟨x, hx, rfl⟩)

section

variable {α β γ : Type} {P : α → β → Prop}

/-- What holds of all runs that end alike. -/
theorem rel_imp {Q : α → β → Prop} (himp : ∀ done done', P done done' → Q done done')
    {first : Option α} {second : Option β} (h : Option.Rel P first second) :
    Option.Rel Q first second := by
  cases h with
  | none => exact .none
  | some h => exact .some (himp _ _ h)

/-- The same for what becomes of the first ones. -/
theorem rel_map_first {Q : γ → β → Prop} {f : α → γ}
    (himp : ∀ done done', P done done' → Q (f done) done') {first : Option α} {second : Option β}
    (h : Option.Rel P first second) : Option.Rel Q (first.map f) second := by
  cases h with
  | none => exact .none
  | some h => exact .some (himp _ _ h)

/-- The same for what becomes of the second ones. -/
theorem rel_map_second {Q : α → γ → Prop} {f : β → γ}
    (himp : ∀ done done', P done done' → Q done (f done')) {first : Option α} {second : Option β}
    (h : Option.Rel P first second) : Option.Rel Q first (second.map f) := by
  cases h with
  | none => exact .none
  | some h => exact .some (himp _ _ h)

theorem exists_of_rel {first : Option α} {done' : β} (h : Option.Rel P first (some done')) :
    ∃ done, first = some done ∧ P done done' := by
  cases h with
  | some h => exact ⟨_, rfl, h⟩

theorem exists_of_some_rel {first : Option α} {second : Option β} {done : α}
    (h : Option.Rel P first second) (hfirst : first = some done) :
    ∃ done', second = some done' ∧ P done done' := by
  subst hfirst
  cases h with
  | some h => exact ⟨_, rfl, h⟩

end

/-- A limit corresponds to itself inside as many calls. -/
theorem admits_self (limit : Option Nat) (depth : Nat) {error : EvalError → EvalError → Prop}
    (herror : ∀ l, error (.recursionLimit l) (.recursionLimit l)) :
    ((∀ l, limit = some l → depth < l) ∧ (∀ l, limit = some l → depth < l)) ∨
      ∃ l l', limit = some l ∧ l ≤ depth ∧ limit = some l' ∧ l' ≤ depth ∧
        error (.recursionLimit l) (.recursionLimit l') := by
  by_cases hlt : ∀ l, limit = some l → depth < l
  · exact .inl ⟨hlt, hlt⟩
  · obtain ⟨l, hl⟩ := not_forall.mp hlt
    obtain ⟨hl, hle⟩ := Classical.not_imp.mp hl
    have hle : l ≤ depth := Nat.le_of_not_lt hle
    exact .inr ⟨l, l, hl, hle, hl, hle, herror l⟩

end Correspondence

end TreeLang
