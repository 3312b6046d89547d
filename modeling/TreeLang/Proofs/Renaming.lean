import Mathlib.Logic.Embedding.Basic
import Mathlib.Data.List.Nodup
import TreeLang.Proofs.Correspondence

/-!
# Names do not matter

Names are bound, looked up and listed as parameters, and functions are compared by the names in
them. All of this asks only which names are equal. So if names are replaced by others such that
different ones stay different, in an expression and in the environment in which it is evaluated,
then nothing changes but the names: the evaluations go on side by side, with the same output.
-/

namespace TreeLang

/-! ## Renamed expressions and values -/

mutual

/-- The expression with other names. Text literals and operators are no names. -/
def Expr.rename (r : String → String) : Expr → Expr
  | .str text => .str text
  | .int n => .int n
  | .bool b => .bool b
  | .tuple first second => .tuple (first.rename r) (second.rename r)
  | .projection side source => .projection side (source.rename r)
  | .binary op lhs rhs => .binary op (lhs.rename r) (rhs.rename r)
  | .letIn name value next => .letIn (r name) (value.rename r) (next.rename r)
  | .var name => .var (r name)
  | .print inner => .print (inner.rename r)
  | .cond condition consequent alternative =>
    .cond (condition.rename r) (consequent.rename r) (alternative.rename r)
  | .function params body => .function (params.map r) (body.rename r)
  | .call callee arguments => .call (callee.rename r) (Expr.renameAll r arguments)

/-- The expressions with other names. -/
def Expr.renameAll (r : String → String) : List Expr → List Expr
  | [] => []
  | e :: es => e.rename r :: Expr.renameAll r es

end

/-- The function with other names. -/
def Lambda.rename (r : String → String) (f : Lambda) : Lambda :=
  ⟨f.params.map r, f.body.rename r⟩

/-- The value with other names in its functions. -/
def Value.rename (r : String → String) : Value → Value
  | .str text => .str text
  | .int n => .int n
  | .bool b => .bool b
  | .tuple first second => .tuple (first.rename r) (second.rename r)
  | .closure f => .closure (f.rename r)

/-- The error with another name, if it has one. -/
def EvalError.rename (r : String → String) : EvalError → EvalError
  | undefinedVariable name => undefinedVariable (r name)
  | duplicateParameter name => duplicateParameter (r name)
  | cause => cause

/-- The environment where other names are bound, to values with other names. -/
def Env.rename (r : String ↪ String) (env : Env) : Env where
  bindings := env.bindings.map fun b => (r b.1, b.2.rename r)
  nodup := by
    have hnames : (env.bindings.map fun b => (r b.1, b.2.rename r)).map Prod.fst =
        (env.bindings.map Prod.fst).map r := by
      rw [List.map_map, List.map_map]
      rfl
    rw [hnames]
    exact env.nodup.map r.injective

/-! ## Different functions stay different -/

section

variable {r back : String → String}

mutual

/-- Where the names can be renamed back, so can expressions. -/
theorem Expr.leftInverse_rename (h : Function.LeftInverse back r) :
    (e : Expr) → (e.rename r).rename back = e
  | .str _ | .int _ | .bool _ => rfl
  | .tuple first second => by
    rw [Expr.rename, Expr.rename, leftInverse_rename h first, leftInverse_rename h second]
  | .projection _ source => by rw [Expr.rename, Expr.rename, leftInverse_rename h source]
  | .binary _ lhs rhs => by
    rw [Expr.rename, Expr.rename, leftInverse_rename h lhs, leftInverse_rename h rhs]
  | .letIn name value next => by
    rw [Expr.rename, Expr.rename, h name, leftInverse_rename h value, leftInverse_rename h next]
  | .var name => by rw [Expr.rename, Expr.rename, h name]
  | .print inner => by rw [Expr.rename, Expr.rename, leftInverse_rename h inner]
  | .cond condition consequent alternative => by
    rw [Expr.rename, Expr.rename, leftInverse_rename h condition, leftInverse_rename h consequent,
      leftInverse_rename h alternative]
  | .function params body => by
    rw [Expr.rename, Expr.rename, leftInverse_rename h body, List.map_map, h.comp_eq_id,
      List.map_id]
  | .call callee arguments => by
    rw [Expr.rename, Expr.rename, leftInverse_rename h callee, leftInverse_renameAll h arguments]

theorem Expr.leftInverse_renameAll (h : Function.LeftInverse back r) :
    (es : List Expr) → Expr.renameAll back (Expr.renameAll r es) = es
  | [] => rfl
  | e :: es => by
    rw [Expr.renameAll, Expr.renameAll, leftInverse_rename h e, leftInverse_renameAll h es]

end

end

theorem Lambda.rename_injective (r : String ↪ String) : Function.Injective (Lambda.rename r) := by
  obtain ⟨back, hback⟩ := r.injective.hasLeftInverse
  rintro ⟨params, body⟩ ⟨params', body'⟩ heq
  obtain ⟨hparams, hbody⟩ := Lambda.mk.inj heq
  have hinverse : Function.LeftInverse (Expr.rename back) (Expr.rename r) :=
    Expr.leftInverse_rename hback
  rw [Lambda.mk.injEq]
  exact ⟨r.injective.list_map hparams, hinverse.injective hbody⟩

/-! ## Renamed environments -/

namespace Env

variable (r : String ↪ String)

/-- A renamed name is bound to what the name was bound to, renamed. -/
theorem get?_rename (env : Env) (name : String) :
    (env.rename r).get? (r name) = (env.get? name).map (Value.rename r) := by
  have hlookup : ∀ bindings : List (String × Value),
      (bindings.map fun b => (r b.1, b.2.rename r)).lookup (r name) =
        (bindings.lookup name).map (Value.rename r) := by
    intro bindings
    induction bindings with
    | nil => rfl
    | cons b rest ih =>
      rw [List.map_cons, List.lookup_cons, List.lookup_cons, r.injective.beq_eq]
      cases name == b.1 with
      | true => rfl
      | false => exact ih
  exact hlookup env.bindings

theorem contains_rename (env : Env) (name : String) :
    (env.rename r).contains (r name) = env.contains name := by
  rw [contains, get?_rename, Option.isSome_map, contains]

theorem rename_set (env : Env) (name : String) (value : Value) :
    (env.set name value).rename r = (env.rename r).set (r name) (value.rename r) := by
  refine eq_of_bindings ?_
  simp only [rename, set, List.map_cons, List.filter_map]
  congr 2
  refine List.filter_congr fun b _ => ?_
  simp [r.injective.eq_iff]

theorem rename_inherit (env caller : Env) :
    (env.inherit caller).rename r = (env.rename r).inherit (caller.rename r) := by
  refine eq_of_bindings ?_
  have hfree : (fun b : String × Value => !(env.rename r).contains (r b.1)) =
      fun b => !env.contains b.1 := by
    funext b
    rw [contains_rename]
  show List.map _ (_ ++ _) = _ ++ List.filter _ (List.map _ _)
  rw [List.map_append, List.filter_map, ← hfree]
  rfl

end Env

/-! ## The correspondence -/

/-- In the second evaluation all names are the renamed ones of the first. -/
def Correspondence.renamed (r : String ↪ String) : Correspondence where
  depth := Eq
  expr := fun e e' => e' = e.rename r
  lambda := fun f f' => f' = f.rename r
  env := fun env env' => env' = env.rename r
  frame := fun frame frame' => frame' = frame.rename r
  error := fun cause cause' => cause' = cause.rename r

namespace Correspondence

variable {r : String ↪ String}

theorem value_renamed {v v' : Value} : (renamed r).value v v' ↔ v' = v.rename r := by
  constructor
  · intro h
    induction h with
    | tuple _ _ ih₁ ih₂ => rw [ih₁, ih₂, Value.rename]
    | closure hf => rw [hf, Value.rename]
    | _ => rfl
  · rintro rfl
    induction v with
    | tuple first second ih₁ ih₂ => exact .tuple ih₁ ih₂
    | closure f => exact .closure rfl
    | _ => exact .of_isAtom trivial

theorem renamed_param (param : String) : (renamed r).Param param (r param) := by
  rintro frame _ v v' rfl hv
  obtain rfl := value_renamed.mp hv
  unfold Env.bindParam
  rw [Env.contains_rename]
  split
  · exact .error rfl
  · exact .ok (Env.rename_set ..).symm

theorem renamed_arguments (arguments : List Expr) :
    List.Forall₂ (renamed r).expr arguments (Expr.renameAll r arguments) := by
  induction arguments with
  | nil => exact .nil
  | cons argument rest ih => exact .cons rfl ih

theorem renamed_form (e : Expr) : (renamed r).Form e (e.rename r) := by
  cases e with
  | str text => exact .str text
  | int n => exact .int n
  | bool b => exact .bool b
  | tuple first second => exact .tuple rfl rfl
  | projection side source => exact .projection side rfl
  | binary op lhs rhs => exact .binary op rfl rfl
  | letIn name value next =>
    refine .letIn (fun {env env' v v'} henv hv => ?_) rfl rfl
    obtain rfl : env' = env.rename r := henv
    obtain rfl := value_renamed.mp hv
    exact (Env.rename_set ..).symm
  | var name =>
    refine .var (fun {env env'} henv => ?_) rfl
    obtain rfl : env' = env.rename r := henv
    rw [Env.get?_rename]
    cases env.get? name with
    | none => exact .none
    | some value => exact .some (value_renamed.mpr rfl)
  | print inner => exact .print rfl
  | cond condition consequent alternative => exact .cond rfl rfl rfl
  | function params body => exact .function rfl
  | call callee arguments => exact .call rfl (renamed_arguments arguments)

theorem lawful_renamed (limit : Option Nat) : (renamed r).Lawful limit limit where
  admits := by
    rintro depth _ rfl
    exact admits_self limit depth fun _ => rfl
  deeper := by
    rintro depth _ rfl
    rfl
  form := by
    rintro e _ rfl
    exact renamed_form e
  params := by
    rintro f _ rfl
    refine List.forall₂_map_right_iff.mpr (List.forall₂_same.mpr fun param _ => ?_)
    exact renamed_param param
  body := by
    rintro f _ rfl
    rfl
  unique := by
    rintro f _ g _ rfl rfl
    exact (Lambda.rename_injective r).eq_iff.symm
  empty := rfl
  inherit := by
    rintro frame _ env _ rfl rfl
    exact (Env.rename_inherit ..).symm
  nameless := by
    intro cause hcause
    cases cause with
    | undefinedVariable name | duplicateParameter name | recursionLimit limit => exact hcause.elim
    | _ => rfl

end Correspondence

/-! ## Evaluations -/

/-- The second evaluation ends like the first one, with other names. -/
structure Evaluation.Renamed (r : String ↪ String) (done done' : Evaluation) : Prop where
  /-- The value is renamed, or the error is. -/
  result : done'.result = (done.result.map (Value.rename r)).mapError (EvalError.rename r)
  /-- So is the environment that is left. -/
  env : done'.env = done.env.rename r
  /-- The output is the same. -/
  sink : done'.evaluator.sink = done.evaluator.sink

theorem Correspondence.renamed_of_ends {r : String ↪ String} {done done' : Evaluation}
    (h : (renamed r).Ends done done') : Evaluation.Renamed r done done' := by
  obtain ⟨hresult, henv, hsink⟩ := h
  refine ⟨?_, henv, hsink⟩
  obtain ⟨result, env, ev⟩ := done
  obtain ⟨result', env', ev'⟩ := done'
  cases hresult with
  | ok hv => exact congrArg Except.ok (value_renamed.mp hv)
  | error hcause => exact congrArg Except.error hcause

/-- Names do not matter as long as different ones stay different. If all names in an expression and
in an environment are renamed so, the evaluation ends exactly if it did before, with the renamed
value or error, the renamed environment and the same output. -/
theorem Evaluator.evaluate?_rename (r : String ↪ String) (ev : Evaluator) (e : Expr) (env : Env) :
    Option.Rel (Evaluation.Renamed r) (ev.evaluate? e env)
      (ev.evaluate? (e.rename r) (env.rename r)) := by
  have hends : Option.Rel (Correspondence.renamed r).Ends (ev.evaluate? e env)
      (ev.evaluate? (e.rename r) (env.rename r)) :=
    Correspondence.Lawful.evaluate?_rel Correspondence.lawful_renamed id rfl rfl rfl rfl rfl
  exact Correspondence.rel_imp (fun _ _ => Correspondence.renamed_of_ends) hends

end TreeLang
