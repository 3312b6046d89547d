import TreeLang.Proofs.Limit
import Mathlib.Order.Lattice.Nat

/-!
# The threshold of the limit on nested calls

How large a limit has to be is a matter of the calls that an evaluation comes to: those whose
callee turns out to be a function of as many parameters as there are arguments. Such a call counts
even if its arguments fail, since the check of the limit is made before they are evaluated. The
arguments are evaluated inside as many calls as the call itself, and the body inside one more.

An evaluation that comes to a call inside `k` active calls is interrupted by every limit that is
not above `k`, and one that is interrupted by a limit `l` comes to a call inside `l` or more. So the
least sufficient limit is one more than the depth of the innermost call.
-/

namespace TreeLang

mutual

/-- `Calls depth e env k` says that `e`, evaluated without a limit in a frame `env` and inside
`depth` active calls, comes to a call while `k` calls are active. -/
inductive Calls : Nat → Expr → Env → Nat → Prop where
  /-- The call that an expression is. -/
  | here {depth : Nat} {callee : Expr} {arguments : List Expr} {f : Lambda} {env env₁ : Env}
      {out : ByteArray}
      (hcallee : Evaluates none depth callee env (.ok (.closure f)) env₁ out)
      (harity : f.arity = arguments.length) :
      Calls depth (.call callee arguments) env depth
  /-- A call in the first component of a pair. -/
  | tupleFirst {depth k : Nat} {first second : Expr} {env : Env}
      (hfirst : Calls depth first env k) : Calls depth (.tuple first second) env k
  /-- A call in the second component of a pair. -/
  | tupleSecond {depth k : Nat} {first second : Expr} {env env₁ : Env} {v : Value}
      {out : ByteArray} (hfirst : Evaluates none depth first env (.ok v) env₁ out)
      (hsecond : Calls depth second env₁ k) : Calls depth (.tuple first second) env k
  /-- A call in what a component is taken of. -/
  | projection {depth k : Nat} {side : Side} {source : Expr} {env : Env}
      (hsource : Calls depth source env k) : Calls depth (.projection side source) env k
  /-- A call in a left operand. -/
  | binaryLhs {depth k : Nat} {op : String} {lhs rhs : Expr} {env : Env}
      (hlhs : Calls depth lhs env k) : Calls depth (.binary op lhs rhs) env k
  /-- A call in a right operand. -/
  | binaryRhs {depth k : Nat} {op : String} {lhs rhs : Expr} {env env₁ : Env} {v : Value}
      {out : ByteArray} (hlhs : Evaluates none depth lhs env (.ok v) env₁ out)
      (hrhs : Calls depth rhs env₁ k) : Calls depth (.binary op lhs rhs) env k
  /-- A call in the value of a binding. -/
  | letValue {depth k : Nat} {name : String} {value next : Expr} {env : Env}
      (hvalue : Calls depth value env k) : Calls depth (.letIn name value next) env k
  /-- A call in what follows a binding. -/
  | letNext {depth k : Nat} {name : String} {value next : Expr} {env env₁ : Env} {v : Value}
      {out : ByteArray} (hvalue : Evaluates none depth value env (.ok v) env₁ out)
      (hnext : Calls depth next (env₁.set name v) k) : Calls depth (.letIn name value next) env k
  /-- A call in what is printed. -/
  | print {depth k : Nat} {inner : Expr} {env : Env} (hinner : Calls depth inner env k) :
      Calls depth (.print inner) env k
  /-- A call in a condition. -/
  | condCondition {depth k : Nat} {condition consequent alternative : Expr} {env : Env}
      (hcondition : Calls depth condition env k) :
      Calls depth (.cond condition consequent alternative) env k
  /-- A call in the branch that a true condition chooses. -/
  | condConsequent {depth k : Nat} {condition consequent alternative : Expr} {env env₁ : Env}
      {out : ByteArray} (hcondition : Evaluates none depth condition env (.ok (.bool true)) env₁ out)
      (hbranch : Calls depth consequent env₁ k) :
      Calls depth (.cond condition consequent alternative) env k
  /-- A call in the branch that a false condition chooses. -/
  | condAlternative {depth k : Nat} {condition consequent alternative : Expr} {env env₁ : Env}
      {out : ByteArray}
      (hcondition : Evaluates none depth condition env (.ok (.bool false)) env₁ out)
      (hbranch : Calls depth alternative env₁ k) :
      Calls depth (.cond condition consequent alternative) env k
  /-- A call in a callee. -/
  | callee {depth k : Nat} {callee : Expr} {arguments : List Expr} {env : Env}
      (hcallee : Calls depth callee env k) : Calls depth (.call callee arguments) env k
  /-- A call in the arguments. -/
  | arguments {depth k : Nat} {callee : Expr} {arguments : List Expr} {f : Lambda}
      {env env₁ : Env} {out : ByteArray}
      (hcallee : Evaluates none depth callee env (.ok (.closure f)) env₁ out)
      (harity : f.arity = arguments.length)
      (harguments : ArgumentsCall depth Env.empty f.params arguments env₁ k) :
      Calls depth (.call callee arguments) env k
  /-- A call in the body. -/
  | body {depth k : Nat} {callee : Expr} {arguments : List Expr} {f : Lambda}
      {env env₁ env₂ frame : Env} {out₁ out₂ : ByteArray}
      (hcallee : Evaluates none depth callee env (.ok (.closure f)) env₁ out₁)
      (harity : f.arity = arguments.length)
      (harguments : BindsArguments none depth Env.empty f.params arguments env₁ (.ok frame) env₂
        out₂)
      (hbody : Calls (depth + 1) f.body (frame.inherit env₂) k) :
      Calls depth (.call callee arguments) env k

/-- The same for arguments that are bound to parameters. -/
inductive ArgumentsCall : Nat → Env → List String → List Expr → Env → Nat → Prop where
  /-- A call in the first argument. -/
  | argument {depth k : Nat} {param : String} {params : List String} {argument : Expr}
      {arguments : List Expr} {frame env : Env} (hargument : Calls depth argument env k) :
      ArgumentsCall depth frame (param :: params) (argument :: arguments) env k
  /-- A call in a later argument. -/
  | rest {depth k : Nat} {param : String} {params : List String} {argument : Expr}
      {arguments : List Expr} {frame env env₁ : Env} {v : Value} {out : ByteArray}
      (hargument : Evaluates none depth argument env (.ok v) env₁ out)
      (hparam : frame.contains param = false)
      (hrest : ArgumentsCall depth (frame.set param v) params arguments env₁ k) :
      ArgumentsCall depth frame (param :: params) (argument :: arguments) env k

end

/-! ## Calls that a limit does not admit -/

section Exceeds

variable {l depth k : Nat} {e : Expr} {env : Env}

/-- The evaluation of an expression is interrupted by a limit. -/
def Exceeds (l depth : Nat) (e : Expr) (env : Env) : Prop :=
  ∃ env' out, Evaluates (some l) depth e env (.error (.recursionLimit l)) env' out

/-- The evaluation of arguments is interrupted by a limit. -/
def ArgumentsExceed (l depth : Nat) (frame : Env) (params : List String) (arguments : List Expr)
    (env : Env) : Prop :=
  ∃ env' out, BindsArguments (some l) depth frame params arguments env (.error (.recursionLimit l))
    env' out

/-- A limit that is not above the depth of a call interrupts the evaluation. -/
theorem Calls.exceeds (h : Calls depth e env k) (hl : l ≤ k) : Exceeds l depth e env := by
  -- What comes before the call ends as it does without a limit, or is interrupted itself.
  induction h using fun P => @Calls.rec P fun depth frame params arguments env k _ =>
    l ≤ k → ArgumentsExceed l depth frame params arguments env with
  | here hcallee harity =>
    rcases hcallee.interrupted l with hcallee | ⟨_, _, _, hcallee, _⟩
    · exact ⟨_, _, .callDepth hcallee harity rfl hl⟩
    · exact ⟨_, _, .callCallee hcallee⟩
  | tupleFirst _ hfirst =>
    obtain ⟨_, _, hfirst⟩ := hfirst hl
    exact ⟨_, _, .tupleFirst hfirst⟩
  | tupleSecond hfirst _ hsecond =>
    obtain ⟨_, _, hsecond⟩ := hsecond hl
    rcases hfirst.interrupted l with hfirst | ⟨_, _, _, hfirst, _⟩
    · exact ⟨_, _, .tupleSecond hfirst hsecond⟩
    · exact ⟨_, _, .tupleFirst hfirst⟩
  | projection _ hsource =>
    obtain ⟨_, _, hsource⟩ := hsource hl
    exact ⟨_, _, .projectionSource hsource⟩
  | binaryLhs _ hlhs =>
    obtain ⟨_, _, hlhs⟩ := hlhs hl
    exact ⟨_, _, .binaryLhs hlhs⟩
  | binaryRhs hlhs _ hrhs =>
    obtain ⟨_, _, hrhs⟩ := hrhs hl
    rcases hlhs.interrupted l with hlhs | ⟨_, _, _, hlhs, _⟩
    · exact ⟨_, _, .binaryRhs hlhs hrhs⟩
    · exact ⟨_, _, .binaryLhs hlhs⟩
  | letValue _ hvalue =>
    obtain ⟨_, _, hvalue⟩ := hvalue hl
    exact ⟨_, _, .letValue hvalue⟩
  | letNext hvalue _ hnext =>
    obtain ⟨_, _, hnext⟩ := hnext hl
    rcases hvalue.interrupted l with hvalue | ⟨_, _, _, hvalue, _⟩
    · exact ⟨_, _, .letNext hvalue hnext⟩
    · exact ⟨_, _, .letValue hvalue⟩
  | print _ hinner =>
    obtain ⟨_, _, hinner⟩ := hinner hl
    exact ⟨_, _, .printInner hinner⟩
  | condCondition _ hcondition =>
    obtain ⟨_, _, hcondition⟩ := hcondition hl
    exact ⟨_, _, .condCondition hcondition⟩
  | condConsequent hcondition _ hbranch =>
    obtain ⟨_, _, hbranch⟩ := hbranch hl
    rcases hcondition.interrupted l with hcondition | ⟨_, _, _, hcondition, _⟩
    · exact ⟨_, _, .condConsequent hcondition hbranch⟩
    · exact ⟨_, _, .condCondition hcondition⟩
  | condAlternative hcondition _ hbranch =>
    obtain ⟨_, _, hbranch⟩ := hbranch hl
    rcases hcondition.interrupted l with hcondition | ⟨_, _, _, hcondition, _⟩
    · exact ⟨_, _, .condAlternative hcondition hbranch⟩
    · exact ⟨_, _, .condCondition hcondition⟩
  | callee _ hcallee =>
    obtain ⟨_, _, hcallee⟩ := hcallee hl
    exact ⟨_, _, .callCallee hcallee⟩
  | @arguments depth _ _ _ _ _ _ _ hcallee harity _ harguments =>
    obtain ⟨_, _, harguments⟩ := harguments hl
    rcases hcallee.interrupted l with hcallee | ⟨_, _, _, hcallee, _⟩
    · by_cases hdepth : l ≤ depth
      · exact ⟨_, _, .callDepth hcallee harity rfl hdepth⟩
      · exact ⟨_, _, .callArguments hcallee harity (by rintro _ ⟨⟩; omega) harguments⟩
    · exact ⟨_, _, .callCallee hcallee⟩
  | @body depth _ _ _ _ _ _ _ _ _ _ hcallee harity harguments _ hbody =>
    obtain ⟨_, _, hbody⟩ := hbody hl
    rcases hcallee.interrupted l with hcallee | ⟨_, _, _, hcallee, _⟩
    · by_cases hdepth : l ≤ depth
      · exact ⟨_, _, .callDepth hcallee harity rfl hdepth⟩
      · have hadmits : ∀ l', some l = some l' → depth < l' := by
          rintro _ ⟨⟩
          omega
        rcases harguments.interrupted l with harguments | ⟨_, _, harguments⟩
        · exact ⟨_, _, .callBody hcallee harity hadmits harguments hbody⟩
        · exact ⟨_, _, .callArguments hcallee harity hadmits harguments⟩
    · exact ⟨_, _, .callCallee hcallee⟩
  | argument _ hargument hl =>
    obtain ⟨_, _, hargument⟩ := hargument hl
    exact ⟨_, _, .argument hargument⟩
  | rest hargument hparam _ hrest hl =>
    obtain ⟨_, _, hrest⟩ := hrest hl
    rcases hargument.interrupted l with hargument | ⟨_, _, _, hargument, _⟩
    · exact ⟨_, _, .rest hargument hparam hrest⟩
    · exact ⟨_, _, .argument hargument⟩

/-- An evaluation that a limit interrupts comes to a call that the limit does not admit. -/
theorem Exceeds.calls (h : Exceeds l depth e env) : ∃ k, l ≤ k ∧ Calls depth e env k := by
  obtain ⟨env', out, h⟩ := h
  generalize hresult : Except.error (EvalError.recursionLimit l) = result at h
  -- Only failures matter, and what succeeds before them does so without a limit, too.
  induction h using fun P => @Evaluates.rec (some l) P
    fun depth frame params arguments env result env' out _ =>
      .error (.recursionLimit l) = result →
        ∃ k, l ≤ k ∧ ArgumentsCall depth frame params arguments env k with
  | tupleFirst _ hfirst =>
    obtain ⟨k, hk, hfirst⟩ := hfirst hresult
    exact ⟨k, hk, .tupleFirst hfirst⟩
  | tupleSecond hfirst _ _ hsecond =>
    obtain ⟨k, hk, hsecond⟩ := hsecond hresult
    exact ⟨k, hk, .tupleSecond hfirst.unlimited hsecond⟩
  | projectionSource _ hsource =>
    obtain ⟨k, hk, hsource⟩ := hsource hresult
    exact ⟨k, hk, .projection hsource⟩
  | binaryLhs _ hlhs =>
    obtain ⟨k, hk, hlhs⟩ := hlhs hresult
    exact ⟨k, hk, .binaryLhs hlhs⟩
  | binaryRhs hlhs _ _ hrhs =>
    obtain ⟨k, hk, hrhs⟩ := hrhs hresult
    exact ⟨k, hk, .binaryRhs hlhs.unlimited hrhs⟩
  | binaryOp _ _ hop =>
    cases hresult
    exact (Op.ofProgram_applyNamed hop).elim
  | letValue _ hvalue =>
    obtain ⟨k, hk, hvalue⟩ := hvalue hresult
    exact ⟨k, hk, .letValue hvalue⟩
  | letNext hvalue _ _ hnext =>
    obtain ⟨k, hk, hnext⟩ := hnext hresult
    exact ⟨k, hk, .letNext hvalue.unlimited hnext⟩
  | printInner _ hinner =>
    obtain ⟨k, hk, hinner⟩ := hinner hresult
    exact ⟨k, hk, .print hinner⟩
  | condCondition _ hcondition =>
    obtain ⟨k, hk, hcondition⟩ := hcondition hresult
    exact ⟨k, hk, .condCondition hcondition⟩
  | condConsequent hcondition _ _ hbranch =>
    obtain ⟨k, hk, hbranch⟩ := hbranch hresult
    exact ⟨k, hk, .condConsequent hcondition.unlimited hbranch⟩
  | condAlternative hcondition _ _ hbranch =>
    obtain ⟨k, hk, hbranch⟩ := hbranch hresult
    exact ⟨k, hk, .condAlternative hcondition.unlimited hbranch⟩
  | callCallee _ hcallee =>
    obtain ⟨k, hk, hcallee⟩ := hcallee hresult
    exact ⟨k, hk, .callee hcallee⟩
  | callDepth hcallee harity hlimit hdepth =>
    cases hlimit
    exact ⟨_, hdepth, .here hcallee.unlimited harity⟩
  | callArguments hcallee harity _ _ _ harguments =>
    cases hresult
    obtain ⟨k, hk, harguments⟩ := harguments rfl
    exact ⟨k, hk, .arguments hcallee.unlimited harity harguments⟩
  | callBody hcallee harity _ harguments _ _ _ hbody =>
    obtain ⟨k, hk, hbody⟩ := hbody hresult
    exact ⟨k, hk, .body hcallee.unlimited harity harguments.unlimited hbody⟩
  | argument _ hargument hresult =>
    cases hresult
    obtain ⟨k, hk, hargument⟩ := hargument rfl
    exact ⟨k, hk, .argument hargument⟩
  | rest hargument hparam _ _ hrest hresult =>
    obtain ⟨k, hk, hrest⟩ := hrest hresult
    exact ⟨k, hk, .rest hargument.unlimited hparam hrest⟩
  | nil hresult => cases hresult
  | cons _ _ _ _ _ hresult => cases hresult
  | duplicate _ _ _ hresult => cases hresult
  | _ => cases hresult

end Exceeds

/-! ## The threshold -/

section Threshold

variable {l depth : Nat} {e : Expr} {env env' : Env} {result : Except EvalError Value}
  {out : ByteArray}

/-- The numbers of active calls in the bodies that an expression comes to, with the calls whose
arguments fail counted as if they did not, and zero. -/
def Expr.nestings (depth : Nat) (e : Expr) (env : Env) : Set Nat :=
  insert 0 {n | ∃ k, Calls depth e env k ∧ n = k + 1}

/-- An evaluation that ends under a limit as it does without one is not interrupted. -/
theorem Evaluates.not_exceeds (h : Evaluates none depth e env result env' out)
    (hl : Evaluates (some l) depth e env result env' out) : ¬ Exceeds l depth e env := by
  rintro ⟨env'', out', hexceeds⟩
  obtain ⟨rfl, -, -⟩ := hl.unique hexceeds
  cases h.limit_eq

/-- A limit interrupts an evaluation if it is below one of the nestings. -/
theorem Expr.exceeds_of_mem_nestings {n : Nat} (hn : n ∈ e.nestings depth env) (hl : l < n) :
    Exceeds l depth e env := by
  rcases hn with rfl | ⟨k, hcalls, rfl⟩
  · omega
  · exact hcalls.exceeds (by omega)

/-- An evaluation that ends has a largest nesting. -/
theorem Evaluates.isGreatest_nestings (h : Evaluates none depth e env result env' out) :
    ∃ d, IsGreatest (e.nestings depth env) d := by
  obtain ⟨l, hl⟩ := h.sufficient
  have hbound : l ∈ upperBounds (e.nestings depth env) := by
    intro n hn
    by_contra hlt
    exact h.not_exceeds (hl l le_rfl) (Expr.exceeds_of_mem_nestings hn (not_le.mp hlt))
  have hmem : sSup (e.nestings depth env) ∈ e.nestings depth env :=
    Nat.sSup_mem ⟨0, Set.mem_insert 0 _⟩ ⟨l, hbound⟩
  exact ⟨_, hmem, fun n hn => le_csSup ⟨l, hbound⟩ hn⟩

/-- A limit that is no nesting short leaves an evaluation as it is. -/
theorem Evaluates.limited (h : Evaluates none depth e env result env' out) {d : Nat}
    (hd : IsGreatest (e.nestings depth env) d) (hl : d ≤ l) :
    Evaluates (some l) depth e env result env' out := by
  rcases h.interrupted l with hsame | ⟨env'', out', _, hexceeds, _⟩
  · exact hsame
  · obtain ⟨k, hk, hcalls⟩ := Exceeds.calls ⟨env'', out', hexceeds⟩
    have hkd : k + 1 ≤ d := hd.2 (.inr ⟨k, hcalls, rfl⟩)
    omega

/-- A smaller limit interrupts it, and what is printed by then is the beginning of the output. -/
theorem Evaluates.cut (h : Evaluates none depth e env result env' out) {d : Nat}
    (hd : IsGreatest (e.nestings depth env) d) (hl : l < d) :
    ∃ env'' out' rest, Evaluates (some l) depth e env (.error (.recursionLimit l)) env'' out' ∧
      out = out' ++ rest := by
  rcases h.interrupted l with hsame | hcut
  · exact absurd (Expr.exceeds_of_mem_nestings hd.1 hl) (h.not_exceeds hsame)
  · exact hcut

/-- An evaluation does not end exactly if every limit interrupts it. -/
theorem Evaluates.none_iff_exceeds :
    (¬ ∃ result env' out, Evaluates none depth e env result env' out) ↔
      ∀ l, Exceeds l depth e env := by
  constructor
  · intro hnone l
    by_contra hl
    obtain ⟨result, env', out, h⟩ := Evaluates.total l depth e env
    refine hnone ⟨result, env', out, h.admitted ?_ nofun⟩
    rintro l' rfl
    obtain rfl : l = l' := Option.some.inj h.limit_eq
    exact hl ⟨env', out, h⟩
  · rintro hall ⟨result, env', out, h⟩
    obtain ⟨l, hl⟩ := h.sufficient
    exact h.not_exceeds (hl l le_rfl) (hall l)

end Threshold

/-- The limit on nested calls is transparent and its threshold is exact. Without a limit, its error
does not occur. What ends under a limit with anything but its error ends alike under every larger
limit and under none. What ends without a limit ends alike under the limits that are not below its
largest nesting, and is interrupted by the others when a beginning of the output is printed. So an
evaluation without a limit does not end exactly if every limit interrupts it. -/
theorem Expr.outcome?_limits (log : Log) (e : Expr) (env : Env) :
    (∀ l env' out, e.outcome? none log env ≠ some (.error (.recursionLimit l), env', out)) ∧
    (∀ l result env' out, e.outcome? (some l) log env = some (result, env', out) →
      (∀ l', result ≠ .error (.recursionLimit l')) →
      (∀ l' ≥ l, e.outcome? (some l') log env = some (result, env', out)) ∧
        e.outcome? none log env = some (result, env', out)) ∧
    (∀ result env' out, e.outcome? none log env = some (result, env', out) →
      ∃ d, IsGreatest (e.nestings 0 env) d ∧
        (∀ l ≥ d, e.outcome? (some l) log env = some (result, env', out)) ∧
        ∀ l < d, ∃ env'' out' rest,
          e.outcome? (some l) log env = some (.error (.recursionLimit l), env'', out') ∧
            out = out' ++ rest) ∧
    (e.outcome? none log env = none ↔ ∀ l, ∃ env' out,
      e.outcome? (some l) log env = some (.error (.recursionLimit l), env', out)) := by
  simp only [Expr.outcome?_eq_none, Expr.outcome?_eq_some, ne_eq]
  refine ⟨fun l env' out h => ?_, fun l result env' out h hne => ⟨fun l' hl' => ?_, ?_⟩,
    fun result env' out h => ?_, Evaluates.none_iff_exceeds⟩
  · cases h.limit_eq
  · refine h.admitted hne ?_
    rintro _ ⟨⟩
    exact hl'
  · exact h.admitted hne nofun
  · obtain ⟨d, hd⟩ := h.isGreatest_nestings
    exact ⟨d, hd, fun l hl => h.limited hd hl, fun l hl => h.cut hd hl⟩

end TreeLang
