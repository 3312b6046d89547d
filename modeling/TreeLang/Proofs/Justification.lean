import TreeLang.Evaluator
import TreeLang.Proofs.Code

/-!
# Errors are justified by the code

Each error says something: which name is not bound, which operator does not exist, how many
arguments were needed and given. `EvalError.JustifiedBy` says what has to be in the code for this to
be true, and all errors of evaluations are justified in this way. Refused output is justified by the
sink, which has the same capacity and the same fault throughout.
-/

namespace TreeLang

open Eval (bind_eq_some)

/-- A sink with a capacity refuses output with the fault that it has for that. -/
def Sink.Refuses (sink : Sink) (fault : WriteFault) : Prop :=
  sink.capacity.isSome ∧ fault = sink.fullFault

theorem Sink.refuses_of_write {sink sink' : Sink} {bytes : ByteArray} {fault : WriteFault}
    (h : sink.write bytes = (some fault, sink')) : sink.Refuses fault := by
  unfold Sink.write at h
  split at h
  · cases h
  · rename_i capacity hcapacity
    dsimp only at h
    split at h
    · cases h
    · cases h
      exact ⟨by rw [hcapacity, Option.isSome_some], rfl⟩

/-- A sink refuses later what it refuses now, for only what it holds changes. -/
theorem Sink.GrowsTo.refuses_iff {sink later : Sink} (h : sink.GrowsTo later) {fault : WriteFault} :
    sink.Refuses fault ↔ later.Refuses fault := by
  obtain ⟨bytes, rfl⟩ := h
  exact Iff.rfl

/-- What a wrong type needs in the code: the expression whose operands are checked. The types that
the error tells are not the ones that are needed. -/
def TypeError.JustifiedBy (code : Expr → Prop) : TypeError → Prop
  | sum => ∃ lhs rhs, code (.binary Op.add.name lhs rhs)
  | operands op needed left right =>
    ¬(left = needed ∧ right = needed) ∧ ∃ lhs rhs, code (.binary op.name lhs rhs)
  | projection found => found ≠ .tuple ∧ ∃ side source, code (.projection side source)
  | condition found =>
    found ≠ .bool ∧ ∃ condition consequent alternative,
      code (.cond condition consequent alternative)

/-- What an error needs in the code, and what holds of the things that it tells. -/
def EvalError.JustifiedBy (limit : Option Nat) (sink : Sink) (code : Expr → Prop) :
    EvalError → Prop
  | type cause => cause.JustifiedBy code
  | undefinedVariable name => code (.var name)
  | notCallable found => found ≠ .closure ∧ ∃ callee arguments, code (.call callee arguments)
  | arity expected received =>
    expected ≠ received ∧
      (∃ f : Lambda, code (.function f.params f.body) ∧ f.arity = expected) ∧
      ∃ callee arguments, code (.call callee arguments) ∧ arguments.length = received
  | unknownOperator op => op ∉ Op.all.map Op.name ∧ ∃ lhs rhs, code (.binary op lhs rhs)
  | divisionByZero op => (op = .div ∨ op = .rem) ∧ ∃ lhs rhs, code (.binary op.name lhs rhs)
  | duplicateParameter name =>
    (∃ params body, code (.function params body) ∧ 2 ≤ params.count name) ∧
      ∃ callee arguments, code (.call callee arguments)
  | recursionLimit l => limit = some l ∧ ∃ callee arguments, code (.call callee arguments)
  | output fault => sink.Refuses fault ∧ ∃ inner, code (.print inner)

/-! ## Operators -/

section

variable {op : Op} {left right : Value} {cause : EvalError}

theorem Value.eq_int_of_type {v : Value} (h : v.type = .int) : ∃ n, v = .int n := by
  cases v with
  | int n => exact ⟨n, rfl⟩
  | _ => cases h

theorem Value.eq_bool_of_type {v : Value} (h : v.type = .bool) : ∃ b, v = .bool b := by
  cases v with
  | bool b => exact ⟨b, rfl⟩
  | _ => cases h

/-- The error of an operator on integers is not about two integers. -/
theorem Op.justified_onInts {f : Int32 → Int32 → Value}
    (h : op.onInts f left right = .error cause) :
    cause = op.mismatch .int left right ∧ ¬(left.type = .int ∧ right.type = .int) := by
  refine ⟨onInts_eq_error h, ?_⟩
  rintro ⟨hleft, hright⟩
  obtain ⟨a, rfl⟩ := Value.eq_int_of_type hleft
  obtain ⟨b, rfl⟩ := Value.eq_int_of_type hright
  cases h

theorem Op.justified_onBools {f : Bool → Bool → Bool}
    (h : op.onBools f left right = .error cause) :
    cause = op.mismatch .bool left right ∧ ¬(left.type = .bool ∧ right.type = .bool) := by
  refine ⟨onBools_eq_error h, ?_⟩
  rintro ⟨hleft, hright⟩
  obtain ⟨a, rfl⟩ := Value.eq_bool_of_type hleft
  obtain ⟨b, rfl⟩ := Value.eq_bool_of_type hright
  cases h

/-- A division fails if the divisor is zero, and else as an operator on integers. -/
theorem Op.justified_onDivisor {f : Int32 → Int32 → Int32}
    (h : op.onDivisor f left right = .error cause) :
    cause = .divisionByZero op ∨
      cause = op.mismatch .int left right ∧ ¬(left.type = .int ∧ right.type = .int) := by
  by_cases hints : left.type = .int ∧ right.type = .int
  · left
    obtain ⟨a, rfl⟩ := Value.eq_int_of_type hints.1
    obtain ⟨b, rfl⟩ := Value.eq_int_of_type hints.2
    by_cases hzero : b = 0
    · rw [Op.onDivisor, if_pos hzero] at h
      exact (Except.error.inj h).symm
    · rw [Op.onDivisor, if_neg hzero] at h
      cases h
  · rcases onDivisor_eq_error h with h | h
    · exact .inl h
    · exact .inr ⟨h, hints⟩

/-- The name of an operator is found. -/
theorem Op.ofName?_eq_some {name : String} (h : Op.ofName? name = some op) : op.name = name := by
  simpa using List.find?_some h

theorem Op.notMem_of_ofName? {name : String} (h : Op.ofName? name = none) :
    name ∉ Op.all.map Op.name := by
  intro hmem
  obtain ⟨op, hop, rfl⟩ := List.mem_map.mp hmem
  have hfree := List.find?_eq_none.mp h op hop
  exact hfree (by simp)

variable {limit : Option Nat} {sink : Sink} {code : Expr → Prop}

/-- An operator without a result is there, or its name is no operator's. -/
theorem Op.justified_applyNamed {name : String} {lhs rhs : Expr}
    (h : Op.applyNamed name left right = .error cause) (hcode : code (.binary name lhs rhs)) :
    cause.JustifiedBy limit sink code := by
  unfold Op.applyNamed at h
  split at h
  · rename_i op hop
    obtain rfl : op.name = name := Op.ofName?_eq_some hop
    have hmismatch : ∀ needed, cause = op.mismatch needed left right ∧
        ¬(left.type = needed ∧ right.type = needed) → cause.JustifiedBy limit sink code := by
      rintro needed ⟨rfl, htypes⟩
      exact ⟨htypes, lhs, rhs, hcode⟩
    cases op with
    | add =>
      obtain rfl : cause = .type .sum := addValues_eq_error h
      exact ⟨lhs, rhs, hcode⟩
    | div =>
      rcases justified_onDivisor h with rfl | h
      · exact ⟨.inl rfl, lhs, rhs, hcode⟩
      · exact hmismatch .int h
    | rem =>
      rcases justified_onDivisor h with rfl | h
      · exact ⟨.inr rfl, lhs, rhs, hcode⟩
      · exact hmismatch .int h
    | and | or => exact hmismatch .bool (justified_onBools h)
    | eq | neq => cases h
    | _ => exact hmismatch .int (justified_onInts h)
  · rename_i hop
    cases h
    exact ⟨Op.notMem_of_ofName? hop, lhs, rhs, hcode⟩

end

/-! ## Sinks -/

/-- An error of output is a refusal of the sink with which the evaluation starts. -/
theorem Eval.simulation_refuses (limit : Option Nat) :
    Eval.Simulation limit (fun _ : Unit => limit) fun s x _ =>
      s.sink.GrowsTo x.2.sink ∧ ∀ fault, x.1 = .error (.output fault) → s.sink.Refuses fault where
  act := by
    intro α f hf s x hx
    cases hx
    refine ⟨?_, fun fault hfault => (hf.ofProgram s _ hfault).elim⟩
    rw [hf.sink s]
    exact .refl _
  write := by
    intro text s x hx
    rcases Eval.write_cases text s with ⟨sink, hwritten, hwrite⟩ | ⟨fault, sink, hwritten, hwrite⟩
    all_goals
      have hgrows : s.sink.GrowsTo sink := by
        have h := s.sink.growsTo_write text.toUTF8
        rw [hwritten] at h
        exact h
      rw [hwrite] at hx
      cases hx
    · exact ⟨hgrows, nofun⟩
    · refine ⟨hgrows, ?_⟩
      rintro _ ⟨⟩
      exact Sink.refuses_of_write hwritten
  checkDepth := by
    intro s x hx
    rcases Eval.checkDepth_cases limit s with ⟨-, hcheck⟩ | ⟨l, -, -, hcheck⟩
    all_goals
      rw [hcheck] at hx
      cases hx
      exact ⟨.refl _, nofun⟩
  bind := by
    intro α β first second next next' hfirst hnext s x hx
    rcases bind_eq_some hx with ⟨a, t, h₁, h₂⟩ | ⟨cause, t, h₁, rfl⟩
    · obtain ⟨hgrows, -⟩ := hfirst s _ h₁
      obtain ⟨hgrows', hrefuses⟩ := hnext a t x h₂
      exact ⟨hgrows.trans hgrows', fun fault hfault => hgrows.refuses_iff.mpr (hrefuses fault hfault)⟩
    · obtain ⟨hgrows, hrefuses⟩ := hfirst s _ h₁
      refine ⟨hgrows, fun fault hfault => hrefuses fault ?_⟩
      cases hfault
      rfl
  inCall := by
    intro params arguments first second h s x hx
    obtain ⟨y, hy, rfl⟩ := Eval.inCall_eq_some hx
    exact h (s.entered params arguments) y hy

/-! ## Evaluations -/

theorem Value.type_ne_of_project {side : Side} {value : Value} {cause : EvalError}
    (h : value.project side = .error cause) : value.type ≠ .tuple := by
  intro htype
  cases value with
  | tuple first second => cases side <;> cases h
  | _ => cases htype

theorem Value.type_ne_of_truth {value : Value} {cause : EvalError}
    (h : value.truth = .error cause) : value.type ≠ .bool := by
  intro htype
  obtain ⟨b, rfl⟩ := Value.eq_bool_of_type htype
  cases h

/-- What an expression of the code raises is justified by the code. -/
theorem Expr.Raises.justified {limit : Option Nat} {sink : Sink} {code : Expr → Prop} {env : Env}
    {node : Expr} {cause : EvalError} (h : node.Raises limit (Value.CodeFrom code) env cause)
    (hnode : code node) (hsink : ∀ fault, cause = .output fault → sink.Refuses fault) :
    cause.JustifiedBy limit sink code := by
  cases h with
  | unbound _ => exact hnode
  | projection _ hproject =>
    have htype := Value.type_ne_of_project hproject
    obtain rfl := Value.project_eq_error hproject
    exact ⟨htype, _, _, hnode⟩
  | binary _ _ happly => exact Op.justified_applyNamed happly hnode
  | condition _ htruth =>
    have htype := Value.type_ne_of_truth htruth
    obtain rfl := Value.truth_eq_error htruth
    exact ⟨htype, _, _, _, hnode⟩
  | output => exact ⟨hsink _ rfl, _, hnode⟩
  | callee hvalue hcallee =>
    rcases Value.callee_eq_error hcallee with ⟨htype, rfl⟩ | ⟨f, rfl, harity, rfl⟩
    · exact ⟨htype, _, _, hnode⟩
    · exact ⟨harity, ⟨f, hvalue _ (.closure .here), rfl⟩, _, _, hnode, rfl⟩
  | limit hlimit => exact ⟨hlimit, _, _, hnode⟩
  | duplicate hf hname => exact ⟨⟨_, _, hf _ (.closure .here), hname⟩, _, _, hnode⟩

/-- No code is invented, and every error is justified by the code. The code of an evaluation is what
occurs in its expression and in the functions of its environment, at any depth, with the literals
that such functions have in their bodies. If the evaluation ends, then all functions in its result
and in the environment that it leaves are from the code; and if it fails, then the error is true of
the code: the operator, the name or the function of which it tells is there and is as the error
says. -/
theorem Evaluator.evaluate?_justified {ev : Evaluator} {e : Expr} {env : Env} {done : Evaluation}
    (h : ev.evaluate? e env = some done) :
    let code : Expr → Prop := fun part => part.OccursIn e ∨ part.OccursInEnv env
    (∀ value, done.result = .ok value → value.CodeFrom code) ∧
    done.env.All (Value.CodeFrom code) ∧
    ∀ cause, done.result = .error cause → cause.JustifiedBy ev.limit ev.sink code := by
  intro code
  unfold Evaluator.evaluate? at h
  obtain ⟨x, hx, rfl⟩ := Option.map_eq_some_iff.mp h
  have hmet : (Contract.code ev.limit code).Met () (Value.CodeFrom code) x :=
    Expr.code_evaluate? hx
  obtain ⟨-, hsink⟩ := (Eval.simulation_refuses ev.limit).evaluate? e _ x hx
  refine ⟨hmet.value, hmet.env, fun cause hcause => ?_⟩
  obtain ⟨_, node, hnode, hraises⟩ := hmet.error cause hcause
  refine hraises.justified hnode ?_
  rintro fault rfl
  exact hsink fault hcause

/-- A function of the environment calls one that the expression binds, which uses an operator that
does not exist. -/
theorem Evaluator.evaluate?_justified_unknown :
    let g : Lambda := ⟨["x"], .binary "Xor" (.var "x") (.int 1)⟩
    let e : Expr := .letIn "g" (.function g.params g.body) (.call (.var "h") [.var "g"])
    let env := Env.empty.set "h" (.closure ⟨["k"], .call (.var "k") [.int 3]⟩)
    let code : Expr → Prop := fun part => part.OccursIn e ∨ part.OccursInEnv env
    let ev := Evaluator.new (some 2) Sink.unlimited Log.off
    ∃ done, ev.evaluate? e env = some done ∧ done.result = .error (.unknownOperator "Xor") ∧
      (EvalError.unknownOperator "Xor").JustifiedBy (some 2) Sink.unlimited code ∧
      done.env.get? "g" = some (.closure g) ∧ (Value.closure g).CodeFrom code := by
  intro g e env code ev
  have hdone : ev.evaluate? e env =
      some ⟨.error (.unknownOperator "Xor"), env.set "g" (.closure g), ev⟩ := by
    subst ev env e g
    exact Evaluator.evaluate?_of_within 5 rfl
  obtain ⟨-, henv, herror⟩ := Evaluator.evaluate?_justified hdone
  have hg : (env.set "g" (.closure g)).get? "g" = some (.closure g) := by
    rw [Env.get?_set, if_pos rfl]
  exact ⟨_, hdone, rfl, herror _ rfl, hg, henv _ _ hg⟩

end TreeLang
