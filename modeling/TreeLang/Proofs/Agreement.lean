import TreeLang.Proofs.BigStep

/-!
# The evaluator and the big-step semantics

On a sink that never fails, the evaluator ends with a result, a frame and an output exactly if the
rules derive these. So it does not end exactly if the rules derive nothing.

One direction follows the evaluator: what is derived for the steps of an expression is put together
to a derivation for the expression. The other one follows the derivation.
-/

namespace TreeLang

open Eval (bind_of_ok bind_of_error bind_eq_some)

/-! ## Output -/

/-- From `s` to `t`, exactly `out` is printed, and every call that is entered is left. -/
structure State.Printed (s t : State) (out : ByteArray) : Prop where
  /-- The sink has the output behind what it held. -/
  sink : t.sink = s.sink.append out
  /-- The same calls are active. -/
  depth : t.depth = s.depth

/-- Nothing is printed by a step that leaves the sink alone. -/
theorem State.Printed.nothing {s t : State} (hsink : t.sink = s.sink) (hdepth : t.depth = s.depth) :
    s.Printed t ByteArray.empty := by
  refine ⟨?_, hdepth⟩
  rw [hsink, Sink.append, ByteArray.append_empty]

theorem State.Printed.trans {s t u : State} {out₁ out₂ : ByteArray} (h₁ : s.Printed t out₁)
    (h₂ : t.Printed u out₂) : s.Printed u (out₁ ++ out₂) := by
  refine ⟨?_, h₂.depth.trans h₁.depth⟩
  rw [h₂.sink, h₁.sink]
  simp [Sink.append, ByteArray.append_assoc]

/-- Only one output takes a state to another. -/
theorem State.Printed.unique {s t : State} {out out' : ByteArray} (h : s.Printed t out)
    (h' : s.Printed t out') : out = out' := by
  have hwritten : s.sink.written ++ out = s.sink.written ++ out' :=
    congrArg Sink.written (h.sink.symm.trans h'.sink)
  exact (ByteArray.append_right_inj _).mp hwritten

theorem State.Printed.capacity {s t : State} {out : ByteArray} (h : s.Printed t out)
    (hs : s.sink.capacity = none) : t.sink.capacity = none := by
  rw [h.sink]
  exact hs

/-- The state in which more bytes have been written. -/
def State.appended (s : State) (bytes : ByteArray) : State :=
  { s with sink := s.sink.append bytes }

theorem State.appended_appended (s : State) (bytes bytes' : ByteArray) :
    (s.appended bytes).appended bytes' = s.appended (bytes ++ bytes') := by
  simp [State.appended, Sink.append, ByteArray.append_assoc]

/-- Writing a text succeeds on a sink without a capacity. -/
theorem Eval.write_apply (text : String) {s : State} (hs : s.sink.capacity = none) :
    (Eval.write text : Eval Unit) s = some (.ok (), s.appended text.toByteArray) :=
  Eval.write_of_none (Sink.write_of_capacity hs _)

/-- The pieces of the text of a value make up the text. -/
theorem Eval.writeValue_apply (value : Value) {s : State} (hs : s.sink.capacity = none) :
    (Eval.writeValue value : Eval Unit) s = some (.ok (), s.appended value.render.toByteArray) := by
  induction value generalizing s with
  | tuple first second ih₁ ih₂ =>
    rw [Eval.writeValue]
    refine (bind_of_ok (Eval.write_apply "(" hs)).trans ?_
    refine (bind_of_ok (ih₁ (by exact hs))).trans ?_
    refine (bind_of_ok (Eval.write_apply ", " (by exact hs))).trans ?_
    refine (bind_of_ok (ih₂ (by exact hs))).trans ?_
    refine (Eval.write_apply ")" (by exact hs)).trans ?_
    simp only [State.appended_appended, Value.render, String.toByteArray_append]
  | _ => exact Eval.write_apply _ hs

theorem Eval.print_apply (value : Value) {s : State} (hs : s.sink.capacity = none) :
    (Eval.print value : Eval Unit) s =
      some (.ok (), s.appended value.line) := by
  refine (bind_of_ok (Eval.writeValue_apply value hs)).trans ?_
  refine (Eval.write_apply "\n" (by exact hs)).trans ?_
  simp only [State.appended_appended, Value.line, String.toUTF8_eq_toByteArray,
    String.toByteArray_append]

/-! ## From evaluations to derivations -/

section Sound

variable {limit : Option Nat} {self : Expr → Eval Value}

/-- All that `self` ends with on a sink without a capacity is derived by the rules. -/
def Sound (limit : Option Nat) (self : Expr → Eval Value) : Prop :=
  ∀ e s x, self e s = some x → s.sink.capacity = none →
    ∃ out, Evaluates limit s.depth e s.env x.1 x.2.env out ∧ s.Printed x.2 out

/-- The first of several steps has a derivation, and either succeeds or is the last one. -/
theorem Sound.bind {α : Type} (hself : Sound limit self) {e : Expr} {next : Value → Eval α}
    {s : State} {x : Outcome α} (h : (self e >>= next) s = some x)
    (hs : s.sink.capacity = none) :
    (∃ v t out, Evaluates limit s.depth e s.env (.ok v) t.env out ∧ s.Printed t out ∧
      t.sink.capacity = none ∧ next v t = some x) ∨
    ∃ cause t out, x = (.error cause, t) ∧
      Evaluates limit s.depth e s.env (.error cause) t.env out ∧ s.Printed t out := by
  rcases bind_eq_some h with ⟨v, t, hfirst, hnext⟩ | ⟨cause, t, hfirst, rfl⟩
  · obtain ⟨out, hderived, hprinted⟩ := hself e s _ hfirst hs
    exact .inl ⟨v, t, out, hderived, hprinted, hprinted.capacity hs, hnext⟩
  · obtain ⟨out, hderived, hprinted⟩ := hself e s _ hfirst hs
    exact .inr ⟨cause, t, out, rfl, hderived, hprinted⟩

/-- Arguments are bound by the rules. -/
theorem Sound.bindArguments (hself : Sound limit self) {frame : Env} {params : List String}
    {arguments : List Expr} {s : State} {x : Outcome Env}
    (h : Expr.bindArguments self frame params arguments s = some x)
    (hlength : params.length = arguments.length) (hs : s.sink.capacity = none) :
    ∃ out, BindsArguments limit s.depth frame params arguments s.env x.1 x.2.env out ∧
      s.Printed x.2 out := by
  induction params generalizing frame arguments s with
  | nil =>
    obtain rfl := List.length_eq_zero_iff.mp hlength.symm
    cases h
    exact ⟨_, .nil, .nothing rfl rfl⟩
  | cons param params ih =>
    cases arguments with
    | nil => cases hlength
    | cons argument arguments =>
      rcases hself.bind h hs with ⟨v, t, out, hargument, hprinted, ht, h⟩ |
        ⟨cause, t, out, rfl, hargument, hprinted⟩
      · by_cases hparam : frame.contains param = true
        · rw [Env.bindParam_of_contains hparam] at h
          cases h
          exact ⟨_, .duplicate hargument hparam, hprinted⟩
        · have hfree : frame.contains param = false := by simpa using hparam
          rw [Env.bindParam_of_not_contains hfree] at h
          obtain ⟨out', hrest, hprinted'⟩ := ih h (Nat.succ.inj hlength) ht
          rw [hprinted.depth] at hrest
          obtain ⟨cause | frame', u⟩ := x
          · exact ⟨_, .rest hargument hfree hrest, hprinted.trans hprinted'⟩
          · exact ⟨_, .cons hargument hfree hrest, hprinted.trans hprinted'⟩
      · exact ⟨_, .argument hargument, hprinted⟩

/-- What follows the callee of a call is done by the rules. -/
theorem Sound.call (hself : Sound limit self) {f : Lambda} {arguments : List Expr} {t : State}
    {x : Outcome Value}
    (h : (do
      Eval.checkDepth limit
      let frame ← Expr.bindArguments self Env.empty f.params arguments
      Eval.inCall f.params frame (self f.body)) t = some x)
    (harity : f.arity = arguments.length) (ht : t.sink.capacity = none) :
    ∃ out', (∀ {callee : Expr} {env : Env} {out : ByteArray},
      Evaluates limit t.depth callee env (.ok (.closure f)) t.env out →
      Evaluates limit t.depth (.call callee arguments) env x.1 x.2.env (out ++ out')) ∧
      t.Printed x.2 out' := by
  rcases Eval.checkDepth_cases limit t with ⟨hdepth, hcheck⟩ | ⟨l, hlimit, hdepth, hcheck⟩
  · rw [bind_of_ok hcheck] at h
    rcases bind_eq_some h with ⟨frame, u, harguments, h⟩ | ⟨cause, u, harguments, rfl⟩
    · obtain ⟨out₂, harguments, hprinted₂⟩ := hself.bindArguments harguments harity ht
      obtain ⟨y, hbody, rfl⟩ := Eval.inCall_eq_some h
      obtain ⟨out₃, hbody, hprinted₃⟩ := hself f.body _ y hbody (hprinted₂.capacity ht)
      have hentered : (u.entered f.params frame).depth = t.depth + 1 :=
        congrArg (· + 1) hprinted₂.depth
      rw [hentered] at hbody
      have hleft : u.Printed (y.2.left u.env) out₃ := by
        refine ⟨hprinted₃.sink, ?_⟩
        show y.2.depth - 1 = u.depth
        rw [hprinted₃.depth]
        rfl
      refine ⟨out₂ ++ out₃, fun hcallee => ?_, hprinted₂.trans hleft⟩
      rw [← ByteArray.append_assoc]
      obtain ⟨cause | v, w⟩ := y
      · exact .callBody hcallee harity hdepth harguments hbody
      · exact .call hcallee harity hdepth harguments hbody
    · obtain ⟨out₂, harguments, hprinted₂⟩ := hself.bindArguments harguments harity ht
      exact ⟨out₂, fun hcallee => .callArguments hcallee harity hdepth harguments, hprinted₂⟩
  · rw [bind_of_error hcheck] at h
    cases h
    refine ⟨ByteArray.empty, fun hcallee => ?_, .nothing rfl rfl⟩
    rw [ByteArray.append_empty]
    exact .callDepth hcallee harity hlimit hdepth

/-- All that a form of expression ends with is derived if this is so for its parts and for the
bodies of functions. -/
theorem Sound.evalForm (hself : Sound limit self) : Sound limit (Expr.evalForm limit self) := by
  intro e s x h hs
  cases e with
  | str text =>
    cases h
    exact ⟨_, .str, .nothing rfl rfl⟩
  | int value =>
    cases h
    exact ⟨_, .int, .nothing rfl rfl⟩
  | bool value =>
    cases h
    exact ⟨_, .bool, .nothing rfl rfl⟩
  | tuple first second =>
    rcases hself.bind h hs with ⟨v, t, out, hfirst, hprinted, ht, h⟩ |
      ⟨cause, t, out, rfl, hfirst, hprinted⟩
    · rcases hself.bind h ht with ⟨w, u, out', hsecond, hprinted', _, h⟩ |
        ⟨cause, u, out', rfl, hsecond, hprinted'⟩
      · rw [hprinted.depth] at hsecond
        cases h
        exact ⟨_, .tuple hfirst hsecond, hprinted.trans hprinted'⟩
      · rw [hprinted.depth] at hsecond
        exact ⟨_, .tupleSecond hfirst hsecond, hprinted.trans hprinted'⟩
    · exact ⟨_, .tupleFirst hfirst, hprinted⟩
  | projection side source =>
    rcases hself.bind h hs with ⟨v, t, out, hsource, hprinted, _, h⟩ |
      ⟨cause, t, out, rfl, hsource, hprinted⟩
    · cases v with
      | tuple a b =>
        cases side with
        | first =>
          cases h
          exact ⟨_, .first hsource, hprinted⟩
        | second =>
          cases h
          exact ⟨_, .second hsource, hprinted⟩
      | _ =>
        cases h
        exact ⟨_, .projectionType hsource (by simp [Value.type]), hprinted⟩
    · exact ⟨_, .projectionSource hsource, hprinted⟩
  | binary op lhs rhs =>
    rcases hself.bind h hs with ⟨v, t, out, hlhs, hprinted, ht, h⟩ |
      ⟨cause, t, out, rfl, hlhs, hprinted⟩
    · rcases hself.bind h ht with ⟨w, u, out', hrhs, hprinted', _, h⟩ |
        ⟨cause, u, out', rfl, hrhs, hprinted'⟩
      · rw [hprinted.depth] at hrhs
        cases hop : Op.applyNamed op v w with
        | ok result =>
          rw [hop] at h
          cases h
          exact ⟨_, .binary hlhs hrhs hop, hprinted.trans hprinted'⟩
        | error cause =>
          rw [hop] at h
          cases h
          exact ⟨_, .binaryOp hlhs hrhs hop, hprinted.trans hprinted'⟩
      · rw [hprinted.depth] at hrhs
        exact ⟨_, .binaryRhs hlhs hrhs, hprinted.trans hprinted'⟩
    · exact ⟨_, .binaryLhs hlhs, hprinted⟩
  | letIn name value next =>
    rcases hself.bind h hs with ⟨v, t, out, hvalue, hprinted, ht, h⟩ |
      ⟨cause, t, out, rfl, hvalue, hprinted⟩
    · rw [bind_of_ok (t := t.assigned name v) (a := ()) rfl] at h
      obtain ⟨out', hnext, hprinted'⟩ := hself next _ x h ht
      rw [show (t.assigned name v).depth = s.depth from hprinted.depth] at hnext
      have hall : s.Printed x.2 (out ++ out') :=
        hprinted.trans ⟨hprinted'.sink, hprinted'.depth⟩
      obtain ⟨cause | w, u⟩ := x
      · exact ⟨_, .letNext hvalue hnext, hall⟩
      · exact ⟨_, .letIn hvalue hnext, hall⟩
    · exact ⟨_, .letValue hvalue, hprinted⟩
  | var name =>
    cases hname : s.env.get? name with
    | some v =>
      cases (Eval.lookup_of_some hname).symm.trans h
      exact ⟨_, .var hname, .nothing rfl rfl⟩
    | none =>
      cases (Eval.lookup_of_none hname).symm.trans h
      exact ⟨_, .varUnbound hname, .nothing rfl rfl⟩
  | print inner =>
    rcases hself.bind h hs with ⟨v, t, out, hinner, hprinted, ht, h⟩ |
      ⟨cause, t, out, rfl, hinner, hprinted⟩
    · rw [bind_of_ok (Eval.print_apply v ht)] at h
      cases h
      exact ⟨_, .print hinner, hprinted.trans ⟨rfl, rfl⟩⟩
    · exact ⟨_, .printInner hinner, hprinted⟩
  | cond condition consequent alternative =>
    rcases hself.bind h hs with ⟨v, t, out, hcondition, hprinted, ht, h⟩ |
      ⟨cause, t, out, rfl, hcondition, hprinted⟩
    · cases v with
      | bool truth =>
        cases truth with
        | true =>
          obtain ⟨out', hbranch, hprinted'⟩ := hself consequent t x h ht
          rw [hprinted.depth] at hbranch
          obtain ⟨cause | w, u⟩ := x
          · exact ⟨_, .condConsequent hcondition hbranch, hprinted.trans hprinted'⟩
          · exact ⟨_, .condTrue hcondition hbranch, hprinted.trans hprinted'⟩
        | false =>
          obtain ⟨out', hbranch, hprinted'⟩ := hself alternative t x h ht
          rw [hprinted.depth] at hbranch
          obtain ⟨cause | w, u⟩ := x
          · exact ⟨_, .condAlternative hcondition hbranch, hprinted.trans hprinted'⟩
          · exact ⟨_, .condFalse hcondition hbranch, hprinted.trans hprinted'⟩
      | _ =>
        cases h
        exact ⟨_, .condType hcondition (by simp [Value.type]), hprinted⟩
    · exact ⟨_, .condCondition hcondition, hprinted⟩
  | function params body =>
    cases h
    exact ⟨_, .function, .nothing rfl rfl⟩
  | call callee arguments =>
    rcases hself.bind h hs with ⟨v, t, out, hcallee, hprinted, ht, h⟩ |
      ⟨cause, t, out, rfl, hcallee, hprinted⟩
    · cases v with
      | closure f =>
        by_cases harity : f.arity = arguments.length
        · rw [Value.callee_closure harity] at h
          obtain ⟨out', hcall, hprinted'⟩ := hself.call h harity ht
          rw [hprinted.depth] at hcall
          exact ⟨_, hcall hcallee, hprinted.trans hprinted'⟩
        · rw [Value.callee_closure_of_ne harity] at h
          cases h
          exact ⟨_, .callArity hcallee harity, hprinted⟩
      | _ =>
        cases h
        exact ⟨_, .callType hcallee (by simp [Value.type]), hprinted⟩
    · exact ⟨_, .callCallee hcallee, hprinted⟩

/-- What an evaluation ends with on a sink without a capacity is derived by the rules. -/
theorem Sound.evaluate? (limit : Option Nat) : Sound limit (Expr.evaluate? limit) := by
  intro e s x h
  refine Expr.evaluate?_induction limit (fun e s x => s.sink.capacity = none →
    ∃ out, Evaluates limit s.depth e s.env x.1 x.2.env out ∧ s.Printed x.2 out) ?_ h
  intro self hself e s x h hs
  rw [Expr.evalVia_apply] at h
  obtain ⟨out, hderived, hprinted⟩ := Sound.evalForm hself e (s.started e) x h hs
  exact ⟨out, hderived, hprinted.sink, hprinted.depth⟩

/-- What an evaluation on a sink without a capacity ends with and prints is derived by the rules. -/
theorem Evaluates.of_evaluate? {e : Expr} {s t : State} {result : Except EvalError Value}
    {out : ByteArray} (h : e.evaluate? limit s = some (result, t)) (hs : s.sink.capacity = none)
    (hprinted : s.Printed t out) : Evaluates limit s.depth e s.env result t.env out := by
  obtain ⟨out', hderived, hprinted'⟩ := Sound.evaluate? limit e s _ h hs
  rw [hprinted.unique hprinted']
  exact hderived

end Sound

/-! ## From derivations to evaluations

What single steps end with, how endings are put together when steps are, and from that what whole
evaluations end with. -/

section Complete

variable {α β : Type} {limit : Option Nat} {depth : Nat} {env env₁ env₂ : Env}
  {out out₁ out₂ : ByteArray}

/-- Started inside `depth` calls in the frame `env`, on a sink without a capacity, the step ends
with `result`, leaves the frame `env'` and prints `out`. -/
def Ends (step : Eval α) (depth : Nat) (env : Env) (result : Except EvalError α) (env' : Env)
    (out : ByteArray) : Prop :=
  ∀ s : State, s.depth = depth → s.env = env → s.sink.capacity = none →
    ∃ t, step s = some (result, t) ∧ t.env = env' ∧ s.Printed t out

theorem Ends.ofExcept {result : Except EvalError α} :
    Ends (Eval.ofExcept result) depth env result env ByteArray.empty :=
  fun s _ henv _ => ⟨s, rfl, henv, .nothing rfl rfl⟩

theorem Ends.pure {a : α} : Ends (Pure.pure a) depth env (.ok a) env ByteArray.empty :=
  Ends.ofExcept

theorem Ends.bind {first : Eval α} {next : α → Eval β} {a : α} {result : Except EvalError β}
    (h₁ : Ends first depth env (.ok a) env₁ out₁) (h₂ : Ends (next a) depth env₁ result env₂ out₂) :
    Ends (first >>= next) depth env result env₂ (out₁ ++ out₂) := by
  intro s hdepth henv hs
  obtain ⟨t, hfirst, ht, hprinted₁⟩ := h₁ s hdepth henv hs
  obtain ⟨u, hnext, hu, hprinted₂⟩ :=
    h₂ t (hprinted₁.depth.trans hdepth) ht (hprinted₁.capacity hs)
  exact ⟨u, (bind_of_ok hfirst).trans hnext, hu, hprinted₁.trans hprinted₂⟩

theorem Ends.bind_silent {first : Eval α} {next : α → Eval β} {a : α}
    {result : Except EvalError β} (h₁ : Ends first depth env (.ok a) env₁ out)
    (h₂ : Ends (next a) depth env₁ result env₂ ByteArray.empty) :
    Ends (first >>= next) depth env result env₂ out := by
  have h := h₁.bind h₂
  rwa [ByteArray.append_empty] at h

theorem Ends.silent_bind {first : Eval α} {next : α → Eval β} {a : α}
    {result : Except EvalError β} (h₁ : Ends first depth env (.ok a) env₁ ByteArray.empty)
    (h₂ : Ends (next a) depth env₁ result env₂ out) :
    Ends (first >>= next) depth env result env₂ out := by
  have h := h₁.bind h₂
  rwa [ByteArray.empty_append] at h

theorem Ends.bind_error {first : Eval α} {next : α → Eval β} {cause : EvalError}
    (h : Ends first depth env (.error cause) env₁ out) :
    Ends (first >>= next) depth env (.error cause) env₁ out := by
  intro s hdepth henv hs
  obtain ⟨t, hfirst, ht, hprinted⟩ := h s hdepth henv hs
  exact ⟨t, bind_of_error hfirst, ht, hprinted⟩

theorem Ends.assign {name : String} {v : Value} :
    Ends (Eval.assign name v) depth env (.ok ()) (env.set name v) ByteArray.empty := by
  rintro s - rfl -
  exact ⟨s.assigned name v, rfl, rfl, .nothing rfl rfl⟩

theorem Ends.lookup {name : String} {v : Value} (hname : env.get? name = some v) :
    Ends (Eval.lookup name) depth env (.ok v) env ByteArray.empty := by
  rintro s - rfl -
  exact ⟨s, Eval.lookup_of_some hname, rfl, .nothing rfl rfl⟩

theorem Ends.lookup_unbound {name : String} (hname : env.get? name = none) :
    Ends (Eval.lookup name) depth env (.error (.undefinedVariable name)) env
      ByteArray.empty := by
  rintro s - rfl -
  exact ⟨s, Eval.lookup_of_none hname, rfl, .nothing rfl rfl⟩

theorem Ends.print {v : Value} : Ends (Eval.print v) depth env (.ok ()) env v.line :=
  fun s _ henv hs => ⟨s.appended v.line, Eval.print_apply v hs, henv, ⟨rfl, rfl⟩⟩

theorem Ends.checkDepth (hdepth : ∀ l, limit = some l → depth < l) :
    Ends (Eval.checkDepth limit) depth env (.ok ()) env ByteArray.empty := by
  rintro s rfl henv -
  rcases Eval.checkDepth_cases limit s with ⟨_, hcheck⟩ | ⟨l, hlimit, hle, _⟩
  · exact ⟨s, hcheck, henv, .nothing rfl rfl⟩
  · have hlt := hdepth l hlimit
    omega

theorem Ends.checkDepth_error {l : Nat} (hlimit : limit = some l) (hdepth : l ≤ depth) :
    Ends (Eval.checkDepth limit) depth env (.error (.recursionLimit l)) env ByteArray.empty := by
  rintro s rfl henv -
  rcases Eval.checkDepth_cases limit s with ⟨hlt, _⟩ | ⟨l', hlimit', _, hcheck⟩
  · have hlt := hlt l hlimit
    omega
  · obtain rfl : l = l' := Option.some.inj (hlimit.symm.trans hlimit')
    exact ⟨s, hcheck, henv, .nothing rfl rfl⟩

/-- A body is evaluated in a frame of its own, one call deeper. -/
theorem Ends.inCall {params : List String} {frame : Env} {body : Eval α}
    {result : Except EvalError α}
    (h : Ends body (depth + 1) (frame.inherit env) result env₁ out) :
    Ends (Eval.inCall params frame body) depth env result env out := by
  rintro s rfl rfl hs
  obtain ⟨t, hbody, -, hprinted⟩ := h (s.entered params frame) rfl rfl hs
  refine ⟨t.left s.env, Eval.inCall_of_some hbody, rfl, hprinted.sink, ?_⟩
  show t.depth - 1 = s.depth
  rw [hprinted.depth]
  rfl

/-- An expression ends as its form does. -/
theorem Ends.evaluate? {e : Expr} {result : Except EvalError Value}
    (h : Ends (e.evalForm limit (Expr.evaluate? limit)) depth env result env₁ out) :
    Ends (e.evaluate? limit) depth env result env₁ out := by
  intro s hdepth henv hs
  obtain ⟨t, hform, ht, hprinted⟩ := h (s.started e) hdepth henv hs
  exact ⟨t, (Expr.evaluate?_apply limit e s).trans hform, ht, hprinted.sink, hprinted.depth⟩

end Complete

/-- What the rules derive for an expression is what its evaluation ends with. -/
theorem Evaluates.ends {limit : Option Nat} {depth : Nat} {e : Expr} {env env' : Env}
    {result : Except EvalError Value} {out : ByteArray}
    (h : Evaluates limit depth e env result env' out) :
    Ends (e.evaluate? limit) depth env result env' out := by
  -- What is kept for arguments is the same statement about the step that binds them.
  induction h using fun P => @Evaluates.rec limit P
    fun depth frame params arguments env result env' out _ =>
      Ends (Expr.bindArguments (Expr.evaluate? limit) frame params arguments) depth env result
        env' out with
  | str => exact .evaluate? .pure
  | int => exact .evaluate? .pure
  | bool => exact .evaluate? .pure
  | tuple _ _ hfirst hsecond => exact .evaluate? (hfirst.bind (hsecond.bind_silent .pure))
  | tupleFirst _ hfirst => exact .evaluate? hfirst.bind_error
  | tupleSecond _ _ hfirst hsecond => exact .evaluate? (hfirst.bind hsecond.bind_error)
  | first _ hsource => exact .evaluate? (hsource.bind_silent .ofExcept)
  | second _ hsource => exact .evaluate? (hsource.bind_silent .ofExcept)
  | projectionSource _ hsource => exact .evaluate? hsource.bind_error
  | projectionType _ htype hsource =>
    refine .evaluate? (hsource.bind_silent ?_)
    rw [Value.project_of_ne htype]
    exact .ofExcept
  | binary _ _ hop hlhs hrhs =>
    refine .evaluate? (hlhs.bind (hrhs.bind_silent ?_))
    rw [hop]
    exact .ofExcept
  | binaryLhs _ hlhs => exact .evaluate? hlhs.bind_error
  | binaryRhs _ _ hlhs hrhs => exact .evaluate? (hlhs.bind hrhs.bind_error)
  | binaryOp _ _ hop hlhs hrhs =>
    refine .evaluate? (hlhs.bind (hrhs.bind_silent ?_))
    rw [hop]
    exact .ofExcept
  | letIn _ _ hvalue hnext => exact .evaluate? (hvalue.bind (Ends.assign.silent_bind hnext))
  | letValue _ hvalue => exact .evaluate? hvalue.bind_error
  | letNext _ _ hvalue hnext => exact .evaluate? (hvalue.bind (Ends.assign.silent_bind hnext))
  | var hname => exact .evaluate? (.lookup hname)
  | varUnbound hname => exact .evaluate? (.lookup_unbound hname)
  | print _ hinner => exact .evaluate? (hinner.bind (Ends.print.bind_silent .pure))
  | printInner _ hinner => exact .evaluate? hinner.bind_error
  | condTrue _ _ hcondition hbranch =>
    exact .evaluate? (hcondition.bind (Ends.ofExcept.silent_bind hbranch))
  | condFalse _ _ hcondition hbranch =>
    exact .evaluate? (hcondition.bind (Ends.ofExcept.silent_bind hbranch))
  | condCondition _ hcondition => exact .evaluate? hcondition.bind_error
  | condType _ htype hcondition =>
    refine .evaluate? (hcondition.bind_silent ?_)
    rw [Value.truth_of_ne htype]
    exact Ends.ofExcept.bind_error
  | condConsequent _ _ hcondition hbranch =>
    exact .evaluate? (hcondition.bind (Ends.ofExcept.silent_bind hbranch))
  | condAlternative _ _ hcondition hbranch =>
    exact .evaluate? (hcondition.bind (Ends.ofExcept.silent_bind hbranch))
  | function => exact .evaluate? .pure
  | call _ harity hdepth _ _ hcallee harguments hbody =>
    rw [ByteArray.append_assoc]
    refine .evaluate? (hcallee.bind ?_)
    rw [Value.callee_closure harity]
    refine Ends.ofExcept.silent_bind ((Ends.checkDepth hdepth).silent_bind ?_)
    exact harguments.bind hbody.inCall
  | callCallee _ hcallee => exact .evaluate? hcallee.bind_error
  | callType _ htype hcallee =>
    refine .evaluate? (hcallee.bind_silent ?_)
    rw [Value.callee_of_ne htype]
    exact Ends.ofExcept.bind_error
  | callArity _ harity hcallee =>
    refine .evaluate? (hcallee.bind_silent ?_)
    rw [Value.callee_closure_of_ne harity]
    exact Ends.ofExcept.bind_error
  | callDepth _ harity hlimit hdepth hcallee =>
    refine .evaluate? (hcallee.bind_silent ?_)
    rw [Value.callee_closure harity]
    exact Ends.ofExcept.silent_bind (Ends.checkDepth_error hlimit hdepth).bind_error
  | callArguments _ harity hdepth _ hcallee harguments =>
    refine .evaluate? (hcallee.bind ?_)
    rw [Value.callee_closure harity]
    refine Ends.ofExcept.silent_bind ((Ends.checkDepth hdepth).silent_bind ?_)
    exact harguments.bind_error
  | callBody _ harity hdepth _ _ hcallee harguments hbody =>
    rw [ByteArray.append_assoc]
    refine .evaluate? (hcallee.bind ?_)
    rw [Value.callee_closure harity]
    refine Ends.ofExcept.silent_bind ((Ends.checkDepth hdepth).silent_bind ?_)
    exact harguments.bind hbody.inCall
  | nil => exact .pure
  | cons _ hparam _ hargument hrest =>
    refine hargument.bind ?_
    rw [Env.bindParam_of_not_contains hparam]
    exact Ends.ofExcept.silent_bind hrest
  | argument _ hargument => exact hargument.bind_error
  | duplicate _ hparam hargument =>
    refine hargument.bind_silent ?_
    rw [Env.bindParam_of_contains hparam]
    exact Ends.ofExcept.bind_error
  | rest _ hparam _ hargument hrest =>
    refine hargument.bind ?_
    rw [Env.bindParam_of_not_contains hparam]
    exact Ends.ofExcept.silent_bind hrest

/-! ## Both directions -/

/-- What can be observed of an evaluation that starts inside no call and writes to a sink that never
fails: the result, the frame and the output, if the evaluation ends. -/
def Expr.outcome? (limit : Option Nat) (log : Log) (e : Expr) (env : Env) :
    Option (Except EvalError Value × Env × ByteArray) :=
  ((Evaluator.new limit Sink.unlimited log).evaluate? e env).map fun done =>
    (done.result, done.env, done.evaluator.sink.written)

/-- The state in which an evaluation starts that is observed. -/
def State.initial (log : Log) (env : Env) : State := ⟨env, 0, Sink.unlimited, log⟩

theorem Expr.outcome?_eq (limit : Option Nat) (log : Log) (e : Expr) (env : Env) :
    e.outcome? limit log env =
      (e.evaluate? limit (.initial log env)).map fun x => (x.1, x.2.env, x.2.sink.written) :=
  Option.map_map ..

/-- An ending is observed exactly if the rules derive it. -/
theorem Expr.outcome?_eq_some {limit : Option Nat} {log : Log} {e : Expr} {env env' : Env}
    {result : Except EvalError Value} {out : ByteArray} :
    e.outcome? limit log env = some (result, env', out) ↔
      Evaluates limit 0 e env result env' out := by
  rw [Expr.outcome?_eq, Option.map_eq_some_iff]
  have hwritten : ∀ {t : State} {out' : ByteArray}, (State.initial log env).Printed t out' →
      t.sink.written = out' := fun h => by
    rw [h.sink]
    exact ByteArray.empty_append
  constructor
  · rintro ⟨x, hx, heq⟩
    obtain ⟨out', hderived, hprinted⟩ := Sound.evaluate? limit e _ x hx rfl
    rw [hwritten hprinted] at heq
    cases heq
    exact hderived
  · intro h
    obtain ⟨t, ht, henv, hprinted⟩ := h.ends (.initial log env) rfl rfl rfl
    refine ⟨_, ht, ?_⟩
    rw [henv, hwritten hprinted]

/-- Nothing is observed exactly if the rules derive nothing. -/
theorem Expr.outcome?_eq_none {limit : Option Nat} {log : Log} {e : Expr} {env : Env} :
    e.outcome? limit log env = none ↔
      ¬ ∃ result env' out, Evaluates limit 0 e env result env' out := by
  constructor
  · rintro h ⟨result, env', out, hderived⟩
    rw [Expr.outcome?_eq_some.mpr hderived] at h
    cases h
  · intro h
    rcases hoc : e.outcome? limit log env with _ | ⟨result, env', out⟩
    · rfl
    · exact absurd ⟨result, env', out, Expr.outcome?_eq_some.mp hoc⟩ h

/-- The evaluator is sound and complete for the rules: it ends with a result, a frame and an output
exactly if the rules derive them, and it does not end exactly if the rules derive nothing. -/
theorem Expr.outcome?_agrees (limit : Option Nat) (log : Log) (e : Expr) (env : Env) :
    (∀ result env' out, e.outcome? limit log env = some (result, env', out) ↔
      Evaluates limit 0 e env result env' out) ∧
    (e.outcome? limit log env = none ↔
      ¬ ∃ result env' out, Evaluates limit 0 e env result env' out) :=
  ⟨fun _ _ _ => Expr.outcome?_eq_some, Expr.outcome?_eq_none⟩

end TreeLang
