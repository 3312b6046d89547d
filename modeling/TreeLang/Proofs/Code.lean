import TreeLang.Proofs.Contract

/-!
# Evaluations bring no code of their own

The code of an evaluation is what occurs in its expression and in the functions that are in the
frame where it starts. An evaluation makes functions only by evaluating function literals, so
whatever occurs in a function that it makes, returns, binds or calls is from this code; and its
errors are raised by expressions of this code, on values with functions of this code.
-/

namespace TreeLang

/-- An expression occurs in another one, at any depth and also in the bodies of functions. -/
inductive Expr.OccursIn (part : Expr) : Expr → Prop where
  | here : OccursIn part part
  | operand {e operand : Expr} (hoperand : operand ∈ e.operands) (h : OccursIn part operand) :
      OccursIn part e
  | body {params : List String} {body : Expr} (h : OccursIn part body) :
      OccursIn part (.function params body)

/-- An expression occurs in a function that is the value or is inside it. A function counts as the
literal of which it is the value. -/
inductive Expr.OccursInValue (part : Expr) : Value → Prop where
  | closure {f : Lambda} (h : part.OccursIn (.function f.params f.body)) :
      OccursInValue part (.closure f)
  | first {first second : Value} (h : OccursInValue part first) :
      OccursInValue part (.tuple first second)
  | second {first second : Value} (h : OccursInValue part second) :
      OccursInValue part (.tuple first second)

/-- An expression occurs in a function of the frame. -/
def Expr.OccursInEnv (part : Expr) (env : Env) : Prop :=
  ∃ name value, env.get? name = some value ∧ part.OccursInValue value

/-- What occurs in the functions of a value is from `code`. -/
def Value.CodeFrom (code : Expr → Prop) (value : Value) : Prop :=
  ∀ part, part.OccursInValue value → code part

/-- All code is from `code`, and errors are raised by it. -/
def Contract.code (limit : Option Nat) (code : Expr → Prop) : Contract Unit where
  expr := fun _ e => ∀ part, part.OccursIn e → code part
  env := fun _ env => env.All (Value.CodeFrom code)
  value := fun _ value => value.CodeFrom code
  error := fun _ _ cause => ∃ env node, code node ∧
    node.Raises limit (Value.CodeFrom code) env cause

theorem Contract.kept_code (limit : Option Nat) (code : Expr → Prop) :
    (Contract.code limit code).Kept limit where
  operand := fun he hoperand part h => he part (.operand hoperand h)
  atom := by
    intro _ value hatom part h
    cases h with
    | closure _ => exact hatom.elim
    | first _ => exact hatom.elim
    | second _ => exact hatom.elim
  tuple := by
    intro _ first second
    constructor
    · exact fun h => ⟨fun part hpart => h part (.first hpart),
        fun part hpart => h part (.second hpart)⟩
    · rintro ⟨hfirst, hsecond⟩ part h
      cases h with
      | first h => exact hfirst part h
      | second h => exact hsecond part h
  closure := by
    intro _ params body he part h
    cases h with
    | closure h => exact he part h
  lookup := fun henv => henv
  assign := fun _ henv hv => henv.set hv
  call := by
    intro _ f env frame hf henv hframe
    -- The body runs under the same contract: there is one set of code for all frames.
    have hbody : ∀ part, part.OccursIn f.body → code part :=
      fun part h => hf part (.closure (.body h))
    have hstart : (frame.inherit env).All (Value.CodeFrom code) := hframe.inherit henv
    exact ⟨(), hbody, hstart, fun _ h => h, fun _ _ _ h => h⟩
  raise := fun he _ h => ⟨_, _, he _ .here, h⟩

/-- What occurs in the functions that an evaluation leaves in the frame or returns is from its
expression or from the functions of the frame in which it starts, and so are the expressions that
raise errors. -/
theorem Expr.code_evaluate? {limit : Option Nat} {e : Expr} {s : State} {x : Outcome Value}
    (h : e.evaluate? limit s = some x) :
    let code : Expr → Prop := fun part => part.OccursIn e ∨ part.OccursInEnv s.env
    (Contract.code limit code).Met () (Value.CodeFrom code) x := by
  intro code
  have hs : s.env.All (Value.CodeFrom code) := fun name value hname part hpart =>
    .inr ⟨name, value, hname, hpart⟩
  exact (Contract.kept_code limit code).evaluate? (i := ()) (fun _ => .inl) s x hs h

/-! ## Errors of values -/

section

variable {value : Value} {cause : EvalError}

theorem Value.project_eq_error {side : Side} (h : value.project side = .error cause) :
    cause = .type (.projection value.type) := by
  cases value with
  | tuple first second => cases side <;> cases h
  | _ =>
    cases h
    rfl

theorem Value.truth_eq_error (h : value.truth = .error cause) :
    cause = .type (.condition value.type) := by
  cases value with
  | bool b => cases h
  | _ =>
    cases h
    rfl

theorem Value.callee_eq_error {received : Nat} (h : value.callee received = .error cause) :
    (value.type ≠ .closure ∧ cause = .notCallable value.type) ∨
      ∃ f, value = .closure f ∧ f.arity ≠ received ∧ cause = .arity f.arity received := by
  by_cases htype : value.type = .closure
  · cases value with
    | closure f =>
      by_cases harity : f.arity = received
      · rw [Value.callee_closure harity] at h
        cases h
      · rw [Value.callee_closure_of_ne harity] at h
        cases h
        exact .inr ⟨f, rfl, harity, rfl⟩
    | _ => cases htype
  · rw [Value.callee_of_ne htype] at h
    cases h
    exact .inl ⟨htype, rfl⟩

end

/-! ## Errors of operators -/

section

variable {op : Op} {left right : Value} {cause : EvalError}

theorem Op.addValues_eq_error (h : Op.addValues left right = .error cause) :
    cause = .type .sum := by
  unfold Op.addValues at h
  split at h
  all_goals cases h
  rfl

theorem Op.onInts_eq_error {f : Int32 → Int32 → Value} (h : op.onInts f left right = .error cause) :
    cause = op.mismatch .int left right := by
  unfold Op.onInts at h
  split at h
  all_goals cases h
  rfl

theorem Op.onDivisor_eq_error {f : Int32 → Int32 → Int32}
    (h : op.onDivisor f left right = .error cause) :
    cause = .divisionByZero op ∨ cause = op.mismatch .int left right := by
  unfold Op.onDivisor at h
  split at h
  · split at h
    all_goals cases h
    exact .inl rfl
  · cases h
    exact .inr rfl

theorem Op.onBools_eq_error {f : Bool → Bool → Bool} (h : op.onBools f left right = .error cause) :
    cause = op.mismatch .bool left right := by
  unfold Op.onBools at h
  split at h
  all_goals cases h
  rfl

/-- If an operator has no result, there is none of its name, or it divides by zero, or an operand
has a wrong type. -/
theorem Op.applyNamed_eq_error {name : String} (h : Op.applyNamed name left right = .error cause) :
    (Op.ofName? name = none ∧ cause = .unknownOperator name) ∨
      (∃ op, Op.ofName? name = some op ∧ (op = .div ∨ op = .rem) ∧ cause = .divisionByZero op) ∨
      ∃ type, cause = .type type := by
  unfold Op.applyNamed at h
  split at h
  · rename_i op hop
    right
    cases op with
    | add => exact .inr ⟨_, addValues_eq_error h⟩
    | div =>
      rcases onDivisor_eq_error h with rfl | rfl
      · exact .inl ⟨.div, hop, .inl rfl, rfl⟩
      · exact .inr ⟨_, rfl⟩
    | rem =>
      rcases onDivisor_eq_error h with rfl | rfl
      · exact .inl ⟨.rem, hop, .inr rfl, rfl⟩
      · exact .inr ⟨_, rfl⟩
    | and | or => exact .inr ⟨_, onBools_eq_error h⟩
    | eq | neq => cases h
    | _ => exact .inr ⟨_, onInts_eq_error h⟩
  · rename_i hop
    cases h
    exact .inl ⟨hop, rfl⟩

end

end TreeLang
