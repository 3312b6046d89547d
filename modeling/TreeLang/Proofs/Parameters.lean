import Mathlib.Data.List.Nodup
import TreeLang.Proofs.Code
import TreeLang.Proofs.Denotation
import TreeLang.Proofs.Output

/-!
# Parameters have different names

Building refuses function literals that list a parameter twice, and so does the evaluation when such
a function is called. The second check never finds anything in a program that has passed the first
one: all functions of an evaluation are from the code with which it starts.
-/

namespace TreeLang

/-- All function literals of an expression have parameters with different names. -/
def Expr.DistinctParams (e : Expr) : Prop :=
  ∀ params body, (Expr.function params body).OccursIn e → params.Nodup

/-- All functions in a value, and the literals in their bodies, have parameters with different
names. -/
def Value.DistinctParams (value : Value) : Prop :=
  ∀ params body, (Expr.function params body).OccursInValue value → params.Nodup

/-- The same for all values of a frame. -/
def Env.DistinctParams (env : Env) : Prop :=
  env.All Value.DistinctParams

/-! ## Built expressions -/

/-- Each expression of a list is denoted by a tree of its own. -/
theorem DenotesAll.exists_denotes {items : List Tree} {es : List Expr} {e : Expr}
    (h : DenotesAll items es) (he : e ∈ es) : ∃ item, Denotes item e := by
  induction es generalizing items with
  | nil => cases he
  | cons first rest ih =>
    cases h with
    | cons hitem hitems =>
      rcases List.mem_cons.mp he with rfl | he
      · exact ⟨_, hitem⟩
      · exact ih hitems he

/-- The operands of an expression that is denoted by a tree are denoted by trees. -/
theorem Denotes.exists_operand {tree : Tree} {e operand : Expr} (h : Denotes tree e)
    (hoperand : operand ∈ e.operands) : ∃ tree, Denotes tree operand := by
  obtain ⟨-, hform⟩ := h
  cases hform with
  | call _ _ ha harguments =>
    rcases List.mem_cons.mp hoperand with rfl | hmem
    · exact ⟨_, ha⟩
    · exact harguments.exists_denotes hmem
  | tuple _ _ ha hb | binary _ _ _ ha hb | letIn _ _ _ _ ha hb =>
    simp only [Expr.operands, List.mem_cons, List.not_mem_nil, or_false] at hoperand
    rcases hoperand with rfl | rfl
    · exact ⟨_, ha⟩
    · exact ⟨_, hb⟩
  | first _ ha | second _ ha | print _ ha =>
    cases List.mem_singleton.mp hoperand
    exact ⟨_, ha⟩
  | cond _ _ _ ha hb hc =>
    simp only [Expr.operands, List.mem_cons, List.not_mem_nil, or_false] at hoperand
    rcases hoperand with rfl | rfl | rfl
    · exact ⟨_, ha⟩
    · exact ⟨_, hb⟩
    · exact ⟨_, hc⟩
  | _ => cases hoperand

/-- All that occurs in an expression that is denoted by a tree is denoted by trees. -/
theorem Denotes.exists_of_occursIn {tree : Tree} {e part : Expr} (h : Denotes tree e)
    (hpart : part.OccursIn e) : ∃ tree, Denotes tree part := by
  -- By induction on the way down to the part; at each step the child is denoted by a tree.
  induction hpart generalizing tree with
  | here => exact ⟨tree, h⟩
  | operand hoperand _ ih =>
    obtain ⟨_, hchild⟩ := h.exists_operand hoperand
    exact ih hchild
  | body _ ih =>
    obtain ⟨-, hform⟩ := h
    cases hform with
    | function _ _ _ _ ha => exact ih ha

/-- A tree denotes no function that lists a parameter twice, at any depth. -/
theorem Denotes.distinctParams {tree : Tree} {e : Expr} (h : Denotes tree e) :
    e.DistinctParams := by
  intro params body hliteral
  obtain ⟨_, -, hform⟩ := h.exists_of_occursIn hliteral
  cases hform with
  | function _ _ hnodup _ _ => exact hnodup

/-- What is built from a tree or from the tree of a program lists no parameter twice. -/
theorem Expr.distinctParams_of_built {tree : Tree} {log : Log} {e : Expr}
    (h : Build.answer (Expr.ofTree tree) log = .ok e ∨
      Build.answer (Expr.ofProgram tree) log = .ok e) : e.DistinctParams := by
  rcases h with h | h
  · exact ((Expr.accepts_ofTree tree log e).mp h).distinctParams
  · obtain ⟨_, -, -, hdenotes⟩ := (Expr.accepts_ofProgram tree log e).mp h
    exact hdenotes.distinctParams

/-! ## Evaluations -/

/-- No expression raises an error for a parameter that is listed twice, unless a function does
that. -/
theorem Expr.Raises.ne_duplicateParameter {limit : Option Nat} {values : Value → Prop} {env : Env}
    {e : Expr} {cause : EvalError} (h : e.Raises limit values env cause)
    (hvalues : ∀ f, values (.closure f) → f.params.Nodup) (name : String) :
    cause ≠ .duplicateParameter name := by
  rintro rfl
  cases h with
  | projection _ hproject => cases Value.project_eq_error hproject
  | binary _ _ happly =>
    rcases Op.applyNamed_eq_error happly with ⟨-, h⟩ | ⟨_, -, -, h⟩ | ⟨_, h⟩
    all_goals cases h
  | condition _ htruth => cases Value.truth_eq_error htruth
  | callee _ hcallee =>
    rcases Value.callee_eq_error hcallee with ⟨-, h⟩ | ⟨_, -, -, h⟩
    all_goals cases h
  | duplicate hf hcount =>
    have hle := List.nodup_iff_count_le_one.mp (hvalues _ hf) name
    omega

/-- In an expression and a frame without functions that list a parameter twice, an evaluation ends
without such functions, and not with an error for one. -/
theorem Expr.distinctParams_evaluate? {limit : Option Nat} {e : Expr} {s : State}
    {x : Outcome Value} (h : e.evaluate? limit s = some x) (he : e.DistinctParams)
    (hs : s.env.DistinctParams) :
    x.2.env.DistinctParams ∧ (∀ value, x.1 = .ok value → value.DistinctParams) ∧
      ∀ name, x.1 ≠ .error (.duplicateParameter name) := by
  have hcode : ∀ params body, (Expr.function params body).OccursIn e ∨
      (Expr.function params body).OccursInEnv s.env → params.Nodup := by
    rintro params body (hmem | ⟨name, value, hname, hmem⟩)
    · exact he params body hmem
    · exact hs name value hname params body hmem
  have hmet := Expr.code_evaluate? h
  refine ⟨fun name value hname params body hmem => ?_, fun value hvalue params body hmem => ?_,
    fun name hname => ?_⟩
  · exact hcode params body (hmet.env name value hname _ hmem)
  · exact hcode params body (hmet.value value hvalue _ hmem)
  · obtain ⟨env, node, -, hraises⟩ := hmet.error _ hname
    refine hraises.ne_duplicateParameter (fun f hf => ?_) name rfl
    exact hcode f.params f.body (hf _ (.closure .here))

/-- Flushing the sink does not fail with an error for a parameter. -/
theorem Run.resultOf_ne_duplicateParameter {result : Except EvalError Value}
    {flushFault : Option WriteFault} {name : String}
    (h : result ≠ .error (.duplicateParameter name)) :
    Run.resultOf result flushFault ≠ .error (.eval (.duplicateParameter name)) := by
  intro heq
  cases result with
  | ok value => cases flushFault <;> cases heq
  | error cause =>
    cases heq
    exact h rfl

/-- The two checks for parameters agree: a program that is run never fails with the error for a
parameter that is listed twice. More generally, let an expression be built from a tree, and let no
function in an environment list a parameter twice, wherever it stands in a value or in the body of a
function. Then an evaluation ends with such an environment, it has such a result, and it does not
fail with this error. -/
theorem Tree.run?_distinctParams (tree : Tree) :
    (∀ limit sink log run, tree.run? limit sink log = some run →
      ∀ name, run.result ≠ .error (.eval (.duplicateParameter name))) ∧
    ∀ log e, (Build.answer (Expr.ofTree tree) log = .ok e ∨
        Build.answer (Expr.ofProgram tree) log = .ok e) →
      ∀ (ev : Evaluator) (env : Env) (done : Evaluation), env.DistinctParams →
        ev.evaluate? e env = some done →
          done.env.DistinctParams ∧
          (∀ value, done.result = .ok value → value.DistinctParams) ∧
          ∀ name, done.result ≠ .error (.duplicateParameter name) := by
  refine ⟨fun limit sink log run hrun name => ?_, fun log e he ev env done henv hdone => ?_⟩
  · unfold Tree.run? at hrun
    split at hrun
    · rename_i e log' hbuilt
      rw [Expr.run?_eq, Option.map_eq_some_iff] at hrun
      obtain ⟨x, hx, rfl⟩ := hrun
      have hanswer : Build.answer (Expr.ofProgram tree) (tree.announce log) = .ok e := by
        unfold Build.answer
        rw [hbuilt]
      have he : e.DistinctParams := Expr.distinctParams_of_built (.inr hanswer)
      obtain ⟨-, -, hne⟩ := Expr.distinctParams_evaluate? hx he (.empty _)
      exact Run.resultOf_ne_duplicateParameter (hne name)
    · cases hrun
      nofun
  · unfold Evaluator.evaluate? at hdone
    obtain ⟨x, hx, rfl⟩ := Option.map_eq_some_iff.mp hdone
    exact Expr.distinctParams_evaluate? hx (Expr.distinctParams_of_built he) henv

/-- A program that calls a function with a function, by itself and in an environment that has a
function in a pair. -/
theorem Tree.run?_distinctParams_call :
    let f : Lambda := ⟨["y", "z"], .var "z"⟩
    let e : Expr := .call (.function ["x"] (.var "x")) [.function ["y", "z"] (.var "z")]
    let name (text : String) : Tree := .object [("text", .str text)]
    let var (text : String) : Tree := .object [("kind", .str "Var"), ("text", .str text)]
    let function (params : List Tree) (body : Tree) : Tree :=
      .object [("kind", .str "Function"), ("parameters", .array params), ("value", body)]
    let tree : Tree := .object [("expression", .object [("kind", .str "Call"),
      ("callee", function [name "x"] (var "x")),
      ("arguments", .array [function [name "y", name "z"] (var "z")])])]
    let env := Env.empty.set "g" (.tuple (.int 1) (.closure ⟨["a"], .var "a"⟩))
    (∃ run, tree.run? none Sink.unlimited Log.off = some run ∧ run.result = .ok (.closure f) ∧
      ∀ name, run.result ≠ .error (.eval (.duplicateParameter name))) ∧
    Build.answer (Expr.ofProgram tree) Log.off = .ok e ∧ env.DistinctParams ∧
    ∃ done, (Evaluator.new none Sink.unlimited Log.off).evaluate? e env = some done ∧
      done.result = .ok (.closure f) ∧ done.env.DistinctParams ∧
        (Value.closure f).DistinctParams := by
  intro f e name var function tree env
  have hof : Expr.ofProgram tree (tree.announce Log.off) = .ok e Log.off := by
    subst tree function var name e
    with_unfolding_all rfl
  have hrun : tree.run? none Sink.unlimited Log.off =
      some ⟨.ok (.closure f), Sink.unlimited, Log.off⟩ := by
    rw [Tree.run?_of_ok hof, Expr.run?_eq, Expr.evaluate?_of_within 2 rfl]
    rfl
  have hbuilt : Build.answer (Expr.ofProgram tree) Log.off = .ok e := by
    rw [Build.answer, show Expr.ofProgram tree Log.off = .ok e Log.off from hof]
  have hdone : (Evaluator.new none Sink.unlimited Log.off).evaluate? e env =
      some ⟨.ok (.closure f), env, Evaluator.new none Sink.unlimited Log.off⟩ :=
    Evaluator.evaluate?_of_within 2 rfl
  have henv : env.DistinctParams := by
    refine (Env.All.empty _).set fun params body hliteral => ?_
    cases hliteral with
    | first h => cases h
    | second h =>
      rcases h with ⟨_ | ⟨hoperand, -⟩ | h⟩
      · decide
      · cases hoperand
      · cases h with
        | operand hoperand _ => cases hoperand
  obtain ⟨hne, hkept⟩ := Tree.run?_distinctParams tree
  obtain ⟨hdone', hvalue, -⟩ := hkept Log.off e (.inr hbuilt) _ env _ henv hdone
  exact ⟨⟨_, hrun, rfl, hne none Sink.unlimited Log.off _ hrun⟩, hbuilt, henv, _, hdone, rfl,
    hdone', hvalue _ rfl⟩

end TreeLang
