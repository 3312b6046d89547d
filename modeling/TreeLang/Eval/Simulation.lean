import TreeLang.Eval.Step

/-!
# Simulations

Many facts about evaluations compare two of them that start alike, or say what one of them leaves.
All of these have the same proof: the steps of an evaluation have the fact, and putting steps
together keeps it. `Simulation` lists what has to be shown about steps, and `Simulation.evalVia`
concludes for all that an expression does. The second evaluation may be a whole family of them.

Steps that only look at the frame need no attention one by one: they are `Plain`.
-/

namespace TreeLang

/-- The error is one of the program, neither of a limit nor of the sink. -/
def EvalError.OfProgram : EvalError → Prop
  | recursionLimit _ => False
  | output _ => False
  | _ => True

namespace Eval

variable {α β : Type}

/-! ## Steps in sequence -/

/-- What follows a step that succeeds goes on where the step ends. -/
theorem bind_of_ok {first : Eval α} {next : α → Eval β} {s t : State} {a : α}
    (h : first s = some (.ok a, t)) : (first >>= next) s = next a t := by
  show (first s).bind _ = _
  rw [h]
  rfl

theorem bind_of_error {first : Eval α} {next : α → Eval β} {s t : State} {cause : EvalError}
    (h : first s = some (.error cause, t)) : (first >>= next) s = some (.error cause, t) := by
  show (first s).bind _ = _
  rw [h]
  rfl

theorem bind_of_none {first : Eval α} {next : α → Eval β} {s : State} (h : first s = none) :
    (first >>= next) s = none := by
  show (first s).bind _ = _
  rw [h]
  rfl

/-- Steps in sequence end in one of two ways. -/
theorem bind_eq_some {first : Eval α} {next : α → Eval β} {s : State} {x : Outcome β}
    (h : (first >>= next) s = some x) :
    (∃ a t, first s = some (.ok a, t) ∧ next a t = some x) ∨
      ∃ cause t, first s = some (.error cause, t) ∧ x = (.error cause, t) := by
  rcases hfirst : first s with _ | ⟨cause | a, t⟩
  · rw [bind_of_none hfirst] at h
    cases h
  · rw [bind_of_error hfirst] at h
    exact .inr ⟨cause, t, rfl, (Option.some.inj h).symm⟩
  · rw [bind_of_ok hfirst] at h
    exact .inl ⟨a, t, rfl, h⟩

/-- Steps in sequence succeed only if each of them does. -/
theorem bind_eq_ok {first : Eval α} {next : α → Eval β} {s t : State} {b : β}
    (h : (first >>= next) s = some (.ok b, t)) :
    ∃ a u, first s = some (.ok a, u) ∧ next a u = some (.ok b, t) := by
  rcases bind_eq_some h with hok | ⟨cause, u, -, herror⟩
  · exact hok
  · cases herror

/-- Steps in sequence do not end if one of them does not. -/
theorem bind_eq_none {first : Eval α} {next : α → Eval β} {s : State}
    (h : (first >>= next) s = none) :
    first s = none ∨ ∃ a t, first s = some (.ok a, t) ∧ next a t = none := by
  rcases hfirst : first s with _ | ⟨cause | a, t⟩
  · exact .inl rfl
  · rw [bind_of_error hfirst] at h
    cases h
  · rw [bind_of_ok hfirst] at h
    exact .inr ⟨a, t, rfl, h⟩

/-- A call ends as its body does, back in the frame of the caller. -/
theorem inCall_apply (params : List String) (arguments : Env) (body : Eval α) (s : State) :
    inCall params arguments body s =
      (body (s.entered params arguments)).map fun x => (x.1, x.2.left s.env) := by
  show ((body (s.entered params arguments)).bind _).bind _ = _
  rcases body (s.entered params arguments) with _ | ⟨cause | a, t⟩ <;> rfl

/-- A call whose body ends does so, too. -/
theorem inCall_of_some {params : List String} {arguments : Env} {body : Eval α} {s : State}
    {x : Outcome α} (h : body (s.entered params arguments) = some x) :
    inCall params arguments body s = some (x.1, x.2.left s.env) := by
  rw [inCall_apply, h, Option.map_some]

/-- The body of a call that ends does so, too. -/
theorem inCall_eq_some {params : List String} {arguments : Env} {body : Eval α} {s : State}
    {x : Outcome α} (h : inCall params arguments body s = some x) :
    ∃ y, body (s.entered params arguments) = some y ∧ x = (y.1, y.2.left s.env) := by
  rw [inCall_apply, Option.map_eq_some_iff] at h
  obtain ⟨y, hy, rfl⟩ := h
  exact ⟨y, hy, rfl⟩

/-- Where the limit admits one more call, its check passes. -/
theorem checkDepth_of_lt {limit : Option Nat} {s : State} (h : ∀ l, limit = some l → s.depth < l) :
    (checkDepth limit : Eval Unit) s = some (.ok (), s) := by
  cases limit with
  | none => rfl
  | some l => exact congrArg some (if_neg (Nat.not_le_of_lt (h l rfl)))

theorem checkDepth_of_le {l : Nat} {s : State} (h : l ≤ s.depth) :
    (checkDepth (some l) : Eval Unit) s = some (.error (.recursionLimit l), s) :=
  congrArg some (if_pos h)

/-- The check of a limit passes where the limit admits one more call, and fails elsewhere. -/
theorem checkDepth_cases (limit : Option Nat) (s : State) :
    ((∀ l, limit = some l → s.depth < l) ∧
      (checkDepth limit : Eval Unit) s = some (.ok (), s)) ∨
    ∃ l, limit = some l ∧ l ≤ s.depth ∧
      (checkDepth limit : Eval Unit) s = some (.error (.recursionLimit l), s) := by
  cases limit with
  | none => exact .inl ⟨nofun, checkDepth_of_lt nofun⟩
  | some l =>
    by_cases hdepth : l ≤ s.depth
    · exact .inr ⟨l, rfl, hdepth, checkDepth_of_le hdepth⟩
    · have hlt : ∀ l', some l = some l' → s.depth < l' := by
        rintro _ ⟨⟩
        omega
      exact .inl ⟨hlt, checkDepth_of_lt hlt⟩

/-- A name that is bound is found. -/
theorem lookup_of_some {name : String} {s : State} {value : Value}
    (h : s.env.get? name = some value) : (lookup name : Eval Value) s = some (.ok value, s) := by
  simp only [lookup, act, h]
  rfl

theorem lookup_of_none {name : String} {s : State} (h : s.env.get? name = none) :
    (lookup name : Eval Value) s = some (.error (.undefinedVariable name), s) := by
  simp only [lookup, act, h]
  rfl

/-- A text that the sink takes is written. -/
theorem write_of_none {text : String} {s : State} {sink : Sink}
    (h : s.sink.write text.toUTF8 = (none, sink)) :
    (write text : Eval Unit) s = some (.ok (), { s with sink }) := by
  simp only [write, act, h]
  rfl

theorem write_of_some {text : String} {s : State} {fault : WriteFault} {sink : Sink}
    (h : s.sink.write text.toUTF8 = (some fault, sink)) :
    (write text : Eval Unit) s = some (.error (.output fault), { s with sink }) := by
  simp only [write, act, h]
  rfl

/-- A write passes where the sink takes the text, and fails elsewhere. -/
theorem write_cases (text : String) (s : State) :
    (∃ sink, s.sink.write text.toUTF8 = (none, sink) ∧
      (write text : Eval Unit) s = some (.ok (), { s with sink })) ∨
    ∃ fault sink, s.sink.write text.toUTF8 = (some fault, sink) ∧
      (write text : Eval Unit) s = some (.error (.output fault), { s with sink }) := by
  rcases hsink : s.sink.write text.toUTF8 with ⟨_ | fault, sink⟩
  · exact .inl ⟨sink, rfl, write_of_none hsink⟩
  · exact .inr ⟨fault, sink, rfl, write_of_some hsink⟩

/-! ## Plain steps -/

/-- A step that only looks at the frame and extends it or the log. -/
structure Plain (f : State → Outcome α) : Prop where
  /-- It fails only because of the program. -/
  ofProgram : ∀ s cause, (f s).1 = .error cause → cause.OfProgram
  /-- It does not count calls. -/
  depth : ∀ s, (f s).2.depth = s.depth
  /-- It writes nothing. -/
  sink : ∀ s, (f s).2.sink = s.sink
  /-- It does not depend on the sink. -/
  withSink : ∀ s sink, f { s with sink } = ((f s).1, { (f s).2 with sink })

/-- Passing on a result is plain, unless that is an error of a limit or of the sink. -/
theorem plain_ofExcept {result : Except EvalError α}
    (h : ∀ cause, result = .error cause → cause.OfProgram) : Plain fun s => (result, s) where
  ofProgram := fun _ => h
  depth := fun _ => rfl
  sink := fun _ => rfl
  withSink := fun _ _ => rfl

theorem plain_start (e : Expr) : Plain fun s => (.ok (), s.started e) where
  ofProgram := by intro s cause h; cases h
  depth := fun _ => rfl
  sink := fun _ => rfl
  withSink := fun _ _ => rfl

theorem plain_assign (name : String) (value : Value) :
    Plain fun s => (.ok (), s.assigned name value) where
  ofProgram := by intro s cause h; cases h
  depth := fun _ => rfl
  sink := fun _ => rfl
  withSink := fun _ _ => rfl

theorem plain_lookup (name : String) :
    Plain fun s => match s.env.get? name with
      | some value => (.ok value, s)
      | none => (.error (.undefinedVariable name), s) where
  ofProgram := by
    intro s cause h
    split at h
    · cases h
    · cases h
      trivial
  depth := by intro s; split <;> rfl
  sink := by intro s; split <;> rfl
  withSink := by intro s sink; dsimp only; split <;> rfl

/-! ## Simulations -/

section

variable {ι : Type}

/-- Every ending of the first evaluation is related to the family of second ones. -/
def Simulates (rel : ∀ {α : Type}, State → Outcome α → (ι → Eval α) → Prop) (first : Eval α)
    (second : ι → Eval α) : Prop :=
  ∀ s x, first s = some x → rel s x second

/-- What a relation between an ending and a family of evaluations has to respect. The first
evaluation is limited to `limit` active calls, and those of the family to `limits`. -/
structure Simulation (limit : Option Nat) (limits : ι → Option Nat)
    (rel : ∀ {α : Type}, State → Outcome α → (ι → Eval α) → Prop) : Prop where
  /-- A plain step is related to itself. -/
  act : ∀ {α : Type} {f : State → Outcome α}, Plain f →
    Simulates rel (Eval.act f) fun _ => Eval.act f
  /-- Writing is related to itself. -/
  write : ∀ text, Simulates rel (Eval.write text) fun _ => Eval.write text
  /-- So are the checks of the limits. -/
  checkDepth : Simulates rel (Eval.checkDepth limit) fun i => Eval.checkDepth (limits i)
  /-- Steps in sequence are related if each of them is. -/
  bind : ∀ {α β : Type} {first : Eval α} {second : ι → Eval α} {next : α → Eval β}
    {next' : ι → α → Eval β}, Simulates rel first second →
    (∀ a, Simulates rel (next a) fun i => next' i a) →
    Simulates rel (first >>= next) fun i => second i >>= next' i
  /-- Calls are related if their bodies are. -/
  inCall : ∀ params arguments {first : Eval Value} {second : ι → Eval Value},
    Simulates rel first second →
    Simulates rel (Eval.inCall params arguments first) fun i =>
      Eval.inCall params arguments (second i)

end

end Eval

/-- An expression does what its form does, once that is noted. -/
theorem Expr.evalVia_apply (limit : Option Nat) (self : Expr → Eval Value) (e : Expr) (s : State) :
    e.evalVia limit self s = e.evalForm limit self (s.started e) :=
  Eval.bind_of_ok rfl

/-! ## Errors of plain steps

They are errors of the program, none of a limit or of the sink. -/

theorem Value.ofProgram_project {side : Side} {value : Value} {cause : EvalError}
    (h : value.project side = .error cause) : cause.OfProgram := by
  cases value <;> cases side <;> simp only [Value.project, reduceCtorEq, Except.error.injEq] at h
  all_goals subst h; trivial

theorem Value.ofProgram_truth {value : Value} {cause : EvalError}
    (h : value.truth = .error cause) : cause.OfProgram := by
  cases value <;> simp only [Value.truth, reduceCtorEq, Except.error.injEq] at h
  all_goals subst h; trivial

theorem Value.ofProgram_callee {received : Nat} {value : Value} {cause : EvalError}
    (h : value.callee received = .error cause) : cause.OfProgram := by
  cases value with
  | closure f =>
    simp only [Value.callee] at h
    split at h
    · cases h
    · cases h
      trivial
  | _ =>
    cases h
    trivial

theorem Env.ofProgram_bindParam {frame : Env} {param : String} {value : Value}
    {cause : EvalError} (h : frame.bindParam param value = .error cause) : cause.OfProgram := by
  unfold Env.bindParam at h
  split at h
  · cases h
    trivial
  · cases h

theorem Op.ofProgram_apply {op : Op} {lhs rhs : Value} {cause : EvalError}
    (h : op.apply lhs rhs = .error cause) : cause.OfProgram := by
  cases op <;> cases lhs <;> cases rhs <;>
    simp only [Op.apply, Op.addValues, Op.onInts, Op.onDivisor, Op.onBools, Op.mismatch,
      reduceCtorEq, Except.error.injEq] at h
  all_goals first
    | subst h; trivial
    | split at h <;> cases h; trivial

/-- A name of an operator fails only because of the program. -/
theorem Op.ofProgram_applyNamed {name : String} {lhs rhs : Value} {cause : EvalError}
    (h : Op.applyNamed name lhs rhs = .error cause) : cause.OfProgram := by
  unfold Op.applyNamed at h
  split at h
  · exact Op.ofProgram_apply h
  · cases h
    trivial

namespace Eval.Simulation

variable {ι : Type} {limit : Option Nat} {limits : ι → Option Nat}
  {rel : ∀ {α : Type}, State → Outcome α → (ι → Eval α) → Prop}

theorem ofExcept {α : Type} (h : Simulation limit limits rel) {result : Except EvalError α}
    (hresult : ∀ cause, result = .error cause → cause.OfProgram) :
    Simulates rel (Eval.ofExcept result) fun _ => Eval.ofExcept result :=
  h.act (plain_ofExcept hresult)

theorem pure {α : Type} (h : Simulation limit limits rel) (a : α) :
    Simulates rel (Pure.pure a : Eval α) fun _ => (Pure.pure a : Eval α) :=
  h.act (plain_ofExcept fun _ h => nomatch h)

theorem writeValue (h : Simulation limit limits rel) (value : Value) :
    Simulates rel (Eval.writeValue value) fun _ => Eval.writeValue value := by
  induction value with
  | tuple first second ih₁ ih₂ =>
    exact h.bind (h.write _) fun _ => h.bind ih₁ fun _ => h.bind (h.write _) fun _ =>
      h.bind ih₂ fun _ => h.write _
  | _ => exact h.write _

theorem print (h : Simulation limit limits rel) (value : Value) :
    Simulates rel (Eval.print value) fun _ => Eval.print value :=
  h.bind (h.writeValue value) fun _ => h.write _

variable {self : Expr → Eval Value} {self' : ι → Expr → Eval Value}

/-- The evaluations of arguments are related if those of all expressions are. -/
theorem bindArguments (h : Simulation limit limits rel)
    (hself : ∀ e, Simulates rel (self e) fun i => self' i e) (frame : Env)
    (params : List String) (arguments : List Expr) :
    Simulates rel (Expr.bindArguments self frame params arguments) fun i =>
      Expr.bindArguments (self' i) frame params arguments := by
  induction params generalizing frame arguments with
  | nil => exact h.pure frame
  | cons param params ih =>
    cases arguments with
    | nil => exact h.pure frame
    | cons argument arguments =>
      exact h.bind (hself argument) fun value =>
        h.bind (h.ofExcept fun _ => Env.ofProgram_bindParam) fun frame => ih frame arguments

/-- All that an expression does is related if the evaluations of its parts and of the bodies of
functions are. -/
theorem evalVia (h : Simulation limit limits rel)
    (hself : ∀ e, Simulates rel (self e) fun i => self' i e) (e : Expr) :
    Simulates rel (e.evalVia limit self) fun i => e.evalVia (limits i) (self' i) := by
  refine h.bind (h.act (plain_start e)) fun _ => ?_
  cases e with
  | str text => exact h.pure _
  | int value => exact h.pure _
  | bool value => exact h.pure _
  | tuple first second =>
    exact h.bind (hself first) fun _ => h.bind (hself second) fun _ => h.pure _
  | projection side source =>
    exact h.bind (hself source) fun _ => h.ofExcept fun _ => Value.ofProgram_project
  | binary op lhs rhs =>
    exact h.bind (hself lhs) fun _ => h.bind (hself rhs) fun _ =>
      h.ofExcept fun _ => Op.ofProgram_applyNamed
  | letIn name value next =>
    exact h.bind (hself value) fun value => h.bind (h.act (plain_assign name value)) fun _ =>
      hself next
  | var name => exact h.act (plain_lookup name)
  | print inner =>
    exact h.bind (hself inner) fun value => h.bind (h.print value) fun _ => h.pure _
  | cond condition consequent alternative =>
    refine h.bind (hself condition) fun value =>
      h.bind (h.ofExcept fun _ => Value.ofProgram_truth) fun truth => ?_
    cases truth with
    | true => exact hself consequent
    | false => exact hself alternative
  | function params body => exact h.pure _
  | call callee arguments =>
    exact h.bind (hself callee) fun value =>
      h.bind (h.ofExcept fun _ => Value.ofProgram_callee) fun f =>
        h.bind h.checkDepth fun _ =>
          h.bind (h.bindArguments hself Env.empty f.params arguments) fun frame =>
            h.inCall f.params frame (hself f.body)

end Eval.Simulation

end TreeLang
