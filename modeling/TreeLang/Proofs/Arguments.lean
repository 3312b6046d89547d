import Mathlib.Data.List.Nodup
import Mathlib.Order.Lattice.Nat
import Mathlib.Tactic.Tauto
import TreeLang.Proofs.Moments

/-!
# Arguments of calls

The arguments of a call are evaluated in the frame of the caller, while the frame of the call is
filled with their values. Whatever the arguments do to the frame of the caller, the outcome is that
of a plain description: the first argument that fails, or whose parameter is listed before, ends the
call there; and if there is none, then the body is evaluated where the parameters are bound to the
values and all other names to what the caller binds them to after the last argument.
-/

namespace TreeLang

open Eval (bind_of_ok bind_of_error bind_of_none bind_eq_ok)

/-! ## Frames of calls -/

namespace Env

/-- Binds names to values, one after another. -/
def bindAll (frame : Env) : List String → List Value → Env
  | param :: params, value :: values => (frame.set param value).bindAll params values
  | _, _ => frame

variable {frame : Env} {params : List String} {values : List Value}

theorem get?_bindAll_of_notMem {name : String} (h : name ∉ params) :
    (frame.bindAll params values).get? name = frame.get? name := by
  induction params generalizing frame values with
  | nil => rfl
  | cons param params ih =>
    cases values with
    | nil => rfl
    | cons value values =>
      rw [List.mem_cons, not_or] at h
      rw [bindAll, ih h.2, get?_set, if_neg h.1]

/-- Each of different names is bound to its own value. -/
theorem get?_bindAll (hnodup : params.Nodup) {j : Nat} {param : String} {value : Value}
    (hparam : params[j]? = some param) (hvalue : values[j]? = some value) :
    (frame.bindAll params values).get? param = some value := by
  induction params generalizing frame values j with
  | nil => cases hparam
  | cons first params ih =>
    obtain ⟨hfirst, hnodup⟩ := List.nodup_cons.mp hnodup
    cases values with
    | nil => cases hvalue
    | cons v values =>
      cases j with
      | zero =>
        cases hparam
        cases hvalue
        rw [bindAll, get?_bindAll_of_notMem hfirst, get?_set, if_pos rfl]
      | succ j => exact ih hnodup hparam hvalue

theorem contains_bindAll (hlength : params.length = values.length) {name : String} :
    (frame.bindAll params values).contains name = true ↔
      name ∈ params ∨ frame.contains name = true := by
  induction params generalizing frame values with
  | nil => simp [bindAll]
  | cons param params ih =>
    cases values with
    | nil => cases hlength
    | cons value values =>
      rw [bindAll, ih (Nat.succ.inj hlength), contains_set, List.mem_cons]
      tauto

theorem size_set_of_not_contains {name : String} {value : Value}
    (h : frame.contains name = false) : (frame.set name value).size = frame.size + 1 := by
  have hall : frame.bindings.filter (·.1 ≠ name) = frame.bindings := by
    refine List.filter_eq_self.mpr fun binding hbinding => decide_eq_true ?_
    rintro rfl
    have hbound := (frame.contains_iff _).mpr (List.mem_map_of_mem hbinding)
    rw [h] at hbound
    cases hbound
  rw [size, set, List.length_cons, hall, size]

/-- The names that are free once one more is bound are free before, and are other names. -/
theorem free_set_iff {param : String} {value : Value} :
    (∀ other ∈ params, (frame.set param value).contains other = false) ↔
      param ∉ params ∧ ∀ other ∈ params, frame.contains other = false := by
  have hset : ∀ other, (frame.set param value).contains other = false ↔
      other ≠ param ∧ frame.contains other = false := by
    intro other
    rw [Bool.eq_false_iff, ne_eq, contains_set, not_or, Bool.eq_false_iff]
  constructor
  · intro h
    refine ⟨fun hmem => ((hset param).mp (h param hmem)).1 rfl, fun other hother => ?_⟩
    exact ((hset other).mp (h other hother)).2
  · rintro ⟨hparam, hfree⟩ other hother
    refine (hset other).mpr ⟨?_, hfree other hother⟩
    rintro rfl
    exact hparam hother

theorem size_bindAll (hlength : params.length = values.length) (hnodup : params.Nodup)
    (hfree : ∀ param ∈ params, frame.contains param = false) :
    (frame.bindAll params values).size = frame.size + params.length := by
  induction params generalizing frame values with
  | nil => rfl
  | cons param params ih =>
    obtain ⟨hparam, hnodup⟩ := List.nodup_cons.mp hnodup
    obtain ⟨hfirst, hfree⟩ := List.forall_mem_cons.mp hfree
    cases values with
    | nil => cases hlength
    | cons value values =>
      rw [bindAll, ih (Nat.succ.inj hlength) hnodup (free_set_iff.mpr ⟨hparam, hfree⟩),
        size_set_of_not_contains hfirst, List.length_cons]
      omega

/-- A frame inherits one binding for each name that only the caller binds. -/
theorem size_inherit (frame caller : Env) :
    (frame.inherit caller).size =
      frame.size + (caller.names.filter fun name => !frame.contains name).length := by
  rw [size, inherit, List.length_append, names, List.filter_map, List.length_map]
  rfl

end Env

/-! ## Arguments in order -/

/-- Evaluated one after another from `s`, the expressions have these values, and `u` is the state
after the last one. -/
inductive Expr.YieldAll (limit : Option Nat) :
    State → List Expr → List Value → State → Prop where
  | nil {s : State} : YieldAll limit s [] [] s
  | cons {e : Expr} {es : List Expr} {v : Value} {values : List Value} {s t u : State}
      (h : e.evaluate? limit s = some (.ok v, t)) (hrest : YieldAll limit t es values u) :
      YieldAll limit s (e :: es) (v :: values) u

/-- The first `i` arguments have these values and leave the state `u`, and the first `i` parameters
are different: up to here nothing ends the call. -/
structure Expr.Passes (limit : Option Nat) (params : List String) (arguments : List Expr)
    (t : State) (i : Nat) (values : List Value) (u : State) : Prop where
  yield : Expr.YieldAll limit t (arguments.take i) values u
  nodup : (params.take i).Nodup

/-- The argument with the index `i` ends the call, and no argument before: it fails with this error,
or it has a value but its parameter is listed before. The state is that after the argument. -/
inductive Expr.FailsAt (limit : Option Nat) (params : List String) (arguments : List Expr)
    (t : State) (i : Nat) : EvalError → State → Prop where
  | own {argument : Expr} {values : List Value} {u w : State} {cause : EvalError}
      (hpasses : Expr.Passes limit params arguments t i values u)
      (hargument : arguments[i]? = some argument)
      (h : argument.evaluate? limit u = some (.error cause, w)) :
      FailsAt limit params arguments t i cause w
  | duplicate {argument : Expr} {param : String} {values : List Value} {v : Value} {u w : State}
      (hpasses : Expr.Passes limit params arguments t i values u)
      (hargument : arguments[i]? = some argument) (hparam : params[i]? = some param)
      (hearlier : param ∈ params.take i) (h : argument.evaluate? limit u = some (.ok v, w)) :
      FailsAt limit params arguments t i (.duplicateParameter param) w

section

variable {limit : Option Nat} {s t u : State} {es : List Expr} {values : List Value}

theorem Expr.YieldAll.length_eq (h : Expr.YieldAll limit s es values u) :
    values.length = es.length := by
  induction h with
  | nil => rfl
  | cons _ _ ih => rw [List.length_cons, List.length_cons, ih]

theorem Expr.YieldAll.unique {values' : List Value} {u' : State}
    (h : Expr.YieldAll limit s es values u) (h' : Expr.YieldAll limit s es values' u') :
    values = values' ∧ u = u' := by
  induction h generalizing values' u' with
  | nil =>
    cases h'
    exact ⟨rfl, rfl⟩
  | cons hv _ ih =>
    cases h' with
    | cons hv' hrest =>
      cases hv.symm.trans hv'
      obtain ⟨rfl, rfl⟩ := ih hrest
      exact ⟨rfl, rfl⟩

/-- One more expression is evaluated after the others. -/
theorem Expr.YieldAll.snoc {e : Expr} {v : Value} {w : State}
    (h : Expr.YieldAll limit s es values u) (he : e.evaluate? limit u = some (.ok v, w)) :
    Expr.YieldAll limit s (es ++ [e]) (values ++ [v]) w := by
  induction h with
  | nil => exact .cons he .nil
  | cons hv _ ih => exact .cons hv (ih he)

end

/-! ## Binding arguments -/

section

variable {limit : Option Nat} {self : Expr → Eval Value} {params : List String}
  {arguments : List Expr} {frame frame' : Env} {s t u : State} {values : List Value}

/-- An argument that has a value is bound to a parameter that is free, and the others follow. -/
theorem Expr.bindArguments_of_ok {param : String} {argument : Expr} {v : Value}
    (h : self argument s = some (.ok v, t)) (hfree : frame.contains param = false) :
    Expr.bindArguments self frame (param :: params) (argument :: arguments) s =
      Expr.bindArguments self (frame.set param v) params arguments t := by
  have hparam : (Eval.ofExcept (frame.bindParam param v) : Eval Env) t =
      some (.ok (frame.set param v), t) := by
    rw [Env.bindParam_of_not_contains hfree]
    rfl
  exact (bind_of_ok h).trans (bind_of_ok hparam)

theorem Expr.bindArguments_of_contains {param : String} {argument : Expr} {v : Value}
    (h : self argument s = some (.ok v, t)) (hbound : frame.contains param = true) :
    Expr.bindArguments self frame (param :: params) (argument :: arguments) s =
      some (.error (.duplicateParameter param), t) := by
  have hparam : (Eval.ofExcept (frame.bindParam param v) : Eval Env) t =
      some (.error (.duplicateParameter param), t) := by
    rw [Env.bindParam_of_contains hbound]
    rfl
  exact (bind_of_ok h).trans (bind_of_error hparam)

/-- Arguments that have values are bound to different parameters, and the others follow. -/
theorem Expr.YieldAll.bindArguments_append (h : Expr.YieldAll limit s arguments values u)
    (hlength : params.length = arguments.length) (hnodup : params.Nodup)
    (hfree : ∀ param ∈ params, frame.contains param = false) (params' : List String)
    (arguments' : List Expr) :
    Expr.bindArguments (Expr.evaluate? limit) frame (params ++ params') (arguments ++ arguments') s =
      Expr.bindArguments (Expr.evaluate? limit) (frame.bindAll params values) params' arguments'
        u := by
  -- By induction on the evaluations: each of them adds one binding to the frame.
  induction h generalizing params frame with
  | nil =>
    rw [List.length_nil, List.length_eq_zero_iff] at hlength
    rw [hlength]
    rfl
  | cons hv _ ih =>
    cases params with
    | nil => cases hlength
    | cons param params =>
      obtain ⟨hparam, hnodup⟩ := List.nodup_cons.mp hnodup
      obtain ⟨hfirst, hfree⟩ := List.forall_mem_cons.mp hfree
      refine (Expr.bindArguments_of_ok hv hfirst).trans ?_
      exact ih (Nat.succ.inj hlength) hnodup (Env.free_set_iff.mpr ⟨hparam, hfree⟩)

/-- If arguments are bound, then they have values and are bound to different parameters. -/
theorem Expr.yieldAll_of_bindArguments (hlength : params.length = arguments.length)
    (h : Expr.bindArguments (Expr.evaluate? limit) frame params arguments s =
      some (.ok frame', u)) :
    params.Nodup ∧ (∀ param ∈ params, frame.contains param = false) ∧
      ∃ values, Expr.YieldAll limit s arguments values u ∧
        frame' = frame.bindAll params values := by
  induction params generalizing arguments frame s with
  | nil =>
    cases List.length_eq_zero_iff.mp hlength.symm
    cases h
    exact ⟨.nil, nofun, [], .nil, rfl⟩
  | cons param params ih =>
    cases arguments with
    | nil => cases hlength
    | cons argument arguments =>
      obtain ⟨v, t, hv, -⟩ := bind_eq_ok h
      cases hbound : frame.contains param with
      | true =>
        rw [Expr.bindArguments_of_contains hv hbound] at h
        cases h
      | false =>
        rw [Expr.bindArguments_of_ok hv hbound] at h
        obtain ⟨hnodup, hfree, values, hvalues, rfl⟩ := ih (Nat.succ.inj hlength) h
        obtain ⟨hparam, hfree⟩ := Env.free_set_iff.mp hfree
        exact ⟨List.nodup_cons.mpr ⟨hparam, hnodup⟩, List.forall_mem_cons.mpr ⟨hbound, hfree⟩,
          v :: values, .cons hv hvalues, rfl⟩

theorem Expr.length_take_eq (hlength : params.length = arguments.length) (i : Nat) :
    (params.take i).length = (arguments.take i).length := by
  rw [List.length_take, List.length_take, hlength]

/-- The arguments that come next, if nothing ends the call before. -/
theorem Expr.Passes.bindArguments {i : Nat} (h : Expr.Passes limit params arguments s i values u)
    (hlength : params.length = arguments.length) :
    Expr.bindArguments (Expr.evaluate? limit) Env.empty params arguments s =
      Expr.bindArguments (Expr.evaluate? limit) (Env.empty.bindAll (params.take i) values)
        (params.drop i) (arguments.drop i) u := by
  have htake := Expr.length_take_eq hlength i
  have hfree : ∀ param ∈ params.take i, Env.empty.contains param = false := fun _ _ => rfl
  have happend := h.yield.bindArguments_append htake h.nodup hfree (params.drop i)
    (arguments.drop i)
  rwa [List.take_append_drop, List.take_append_drop] at happend

/-- In the frame of a call that nothing has ended, the parameters of the arguments so far are
bound. -/
theorem Expr.Passes.contains_iff {i : Nat} (h : Expr.Passes limit params arguments s i values u)
    (hlength : params.length = arguments.length) {name : String} :
    (Env.empty.bindAll (params.take i) values).contains name = true ↔ name ∈ params.take i := by
  have htake : (params.take i).length = values.length :=
    (Expr.length_take_eq hlength i).trans h.yield.length_eq.symm
  rw [Env.contains_bindAll htake]
  exact or_iff_left Bool.false_ne_true

/-- The argument that ends a call is the last one that is evaluated. -/
theorem Expr.FailsAt.bindArguments {i : Nat} {cause : EvalError}
    (h : Expr.FailsAt limit params arguments s i cause u)
    (hlength : params.length = arguments.length) :
    Expr.bindArguments (Expr.evaluate? limit) Env.empty params arguments s =
      some (.error cause, u) := by
  cases h with
  | own hpasses hargument h =>
    obtain ⟨hi, rfl⟩ := List.getElem?_eq_some_iff.mp hargument
    have hi' : i < params.length := by omega
    rw [hpasses.bindArguments hlength, List.drop_eq_getElem_cons hi, List.drop_eq_getElem_cons hi']
    exact bind_of_error h
  | duplicate hpasses hargument hparam hearlier h =>
    obtain ⟨hi, rfl⟩ := List.getElem?_eq_some_iff.mp hargument
    obtain ⟨hi', rfl⟩ := List.getElem?_eq_some_iff.mp hparam
    rw [hpasses.bindArguments hlength, List.drop_eq_getElem_cons hi, List.drop_eq_getElem_cons hi']
    exact Expr.bindArguments_of_contains h ((hpasses.contains_iff hlength).mpr hearlier)

/-- Nothing ends a call before an index, unless an argument does or is evaluated forever. -/
theorem Expr.exists_passes_or_ends (hlength : params.length = arguments.length) (n : Nat)
    (hn : n ≤ arguments.length) :
    (∃ i argument values u, arguments[i]? = some argument ∧
      Expr.Passes limit params arguments s i values u ∧ argument.evaluate? limit u = none) ∨
    (∃ i cause u, Expr.FailsAt limit params arguments s i cause u) ∨
    ∃ values u, Expr.Passes limit params arguments s n values u := by
  induction n with
  | zero => exact .inr (.inr ⟨[], s, .nil, .nil⟩)
  | succ n ih =>
    rcases ih (Nat.le_of_succ_le hn) with h | h | ⟨values, u, hpasses⟩
    · exact .inl h
    · exact .inr (.inl h)
    · -- Nothing has ended the call yet, so the next argument decides.
      have hn' : n < params.length := by omega
      have hargument : arguments[n]? = some arguments[n] := List.getElem?_eq_getElem hn
      have hparam : params[n]? = some params[n] := List.getElem?_eq_getElem hn'
      rcases h : arguments[n].evaluate? limit u with _ | ⟨cause | v, w⟩
      · exact .inl ⟨n, _, values, u, hargument, hpasses, h⟩
      · exact .inr (.inl ⟨n, cause, w, .own hpasses hargument h⟩)
      · by_cases hearlier : params[n] ∈ params.take n
        · exact .inr (.inl ⟨n, _, w, .duplicate hpasses hargument hparam hearlier h⟩)
        · refine .inr (.inr ⟨values ++ [v], w, ?_, ?_⟩)
          · rw [List.take_add_one, hargument]
            exact hpasses.yield.snoc h
          · rw [List.take_add_one, hparam]
            refine List.nodup_append.mpr ⟨hpasses.nodup, List.nodup_singleton _, ?_⟩
            rintro a ha _ hb rfl
            cases List.mem_singleton.mp hb
            exact hearlier ha

/-- Nothing ends a call before an index exactly if so many arguments are bound. -/
theorem Expr.bindArguments_take_iff (hlength : params.length = arguments.length) {i : Nat} :
    Expr.bindArguments (Expr.evaluate? limit) Env.empty (params.take i) (arguments.take i) s =
        some (.ok frame, u) ↔
      ∃ values, Expr.Passes limit params arguments s i values u ∧
        frame = Env.empty.bindAll (params.take i) values := by
  have htake := Expr.length_take_eq hlength i
  constructor
  · intro h
    obtain ⟨hnodup, -, values, hvalues, hframe⟩ := Expr.yieldAll_of_bindArguments htake h
    exact ⟨values, ⟨hvalues, hnodup⟩, hframe⟩
  · rintro ⟨values, hpasses, rfl⟩
    have hfree : ∀ param ∈ params.take i, Env.empty.contains param = false := fun _ _ => rfl
    have happend := hpasses.yield.bindArguments_append htake hpasses.nodup hfree [] []
    rw [List.append_nil, List.append_nil] at happend
    exact happend

/-- Nothing ends a call exactly if all arguments are bound. -/
theorem Expr.bindArguments_iff (hlength : params.length = arguments.length) :
    Expr.bindArguments (Expr.evaluate? limit) Env.empty params arguments s = some (.ok frame, u) ↔
      ∃ values, Expr.Passes limit params arguments s arguments.length values u ∧
        frame = Env.empty.bindAll params values := by
  have hparams : params.take arguments.length = params := by
    rw [← hlength, List.take_length]
  have h : Expr.bindArguments (Expr.evaluate? limit) Env.empty (params.take arguments.length)
        (arguments.take arguments.length) s = some (.ok frame, u) ↔
      ∃ values, Expr.Passes limit params arguments s arguments.length values u ∧
        frame = Env.empty.bindAll (params.take arguments.length) values :=
    Expr.bindArguments_take_iff hlength
  rwa [hparams, List.take_length] at h

/-- What ends a call ends it also without the arguments that come later. -/
theorem Expr.FailsAt.take {i j : Nat} {cause : EvalError}
    (h : Expr.FailsAt limit params arguments s i cause u) (hj : i < j) :
    Expr.FailsAt limit (params.take j) (arguments.take j) s i cause u := by
  have hpasses : ∀ {values t}, Expr.Passes limit params arguments s i values t →
      Expr.Passes limit (params.take j) (arguments.take j) s i values t := by
    rintro values t ⟨hyield, hnodup⟩
    constructor
    · rwa [List.take_take, min_eq_left hj.le]
    · rwa [List.take_take, min_eq_left hj.le]
  cases h with
  | own h hargument herror =>
    refine .own (hpasses h) ?_ herror
    rwa [List.getElem?_take_of_lt hj]
  | duplicate h hargument hparam hearlier hvalue =>
    refine .duplicate (hpasses h) ?_ ?_ ?_ hvalue
    · rwa [List.getElem?_take_of_lt hj]
    · rwa [List.getElem?_take_of_lt hj]
    · rwa [List.take_take, min_eq_left hj.le]

/-- No later argument passes than the one that ends the call. -/
theorem Expr.FailsAt.le_of_passes {i j : Nat} {cause : EvalError}
    (h : Expr.FailsAt limit params arguments s i cause u)
    (hlength : params.length = arguments.length)
    (hpasses : Expr.Passes limit params arguments s j values t) : j ≤ i := by
  by_contra hlt
  have htake := Expr.length_take_eq hlength j
  have herror := (h.take (Nat.lt_of_not_le hlt)).bindArguments htake
  rw [(Expr.bindArguments_take_iff hlength).mpr ⟨values, hpasses, rfl⟩] at herror
  cases herror

theorem Expr.FailsAt.lt {i : Nat} {cause : EvalError}
    (h : Expr.FailsAt limit params arguments s i cause u) : i < arguments.length := by
  cases h with
  | own _ hargument _ => exact (List.getElem?_eq_some_iff.mp hargument).1
  | duplicate _ hargument _ _ _ => exact (List.getElem?_eq_some_iff.mp hargument).1

end

/-! ## Calls -/

section

variable {limit : Option Nat} {callee : Expr} {arguments : List Expr} {f : Lambda} {s t : State}

/-- The state `start` is the one in which the body of `f` starts if its arguments have these values
and the caller is left in the state `u` by the last one. -/
structure Lambda.Begins (f : Lambda) (values : List Value) (u start : State) : Prop where
  /-- There is a value for each parameter. -/
  length : values.length = f.arity
  /-- Each parameter is bound to its value. -/
  param : ∀ (j : Nat) (param : String) (value : Value), f.params[j]? = some param →
    values[j]? = some value → start.env.get? param = some value
  /-- Each other name is bound as it is in the frame of the caller. -/
  other : ∀ name, name ∉ f.params → start.env.get? name = u.env.get? name
  /-- There is one binding for each parameter and one for each other name of the caller. -/
  size : start.env.size = f.arity + (u.env.names.filter (· ∉ f.params)).length
  /-- One more call is active. -/
  depth : start.depth = u.depth + 1
  /-- Nothing is printed in between. -/
  sink : start.sink = u.sink
  /-- The log notes the call and the size of the frame. -/
  log : start.log = u.log.add (.call f.params (u.depth + 1) start.env.size)

theorem Lambda.begins_entered {values : List Value} {u : State}
    (h : Expr.Passes limit f.params arguments t arguments.length values u)
    (harity : f.arity = arguments.length) :
    f.Begins values u (u.entered f.params (Env.empty.bindAll f.params values)) := by
  obtain ⟨hyield, hnodup⟩ := h
  rw [← harity, Lambda.arity, List.take_length] at hnodup
  have hlength : f.params.length = values.length := by
    rw [hyield.length_eq, List.take_length, ← harity, Lambda.arity]
  refine ⟨hlength.symm, fun j param value hparam hvalue => ?_, fun name hname => ?_, ?_, rfl, rfl,
    rfl⟩
  · show ((Env.empty.bindAll f.params values).inherit u.env).get? param = _
    rw [Env.get?_inherit, Env.get?_bindAll hnodup hparam hvalue, Option.some_or]
  · show ((Env.empty.bindAll f.params values).inherit u.env).get? name = _
    rw [Env.get?_inherit, Env.get?_bindAll_of_notMem hname, Env.get?_empty, Option.none_or]
  · show ((Env.empty.bindAll f.params values).inherit u.env).size = _
    have hfree : ∀ name, (!(Env.empty.bindAll f.params values).contains name) =
        decide (name ∉ f.params) := by
      intro name
      rw [Bool.eq_iff_iff, Bool.not_eq_true', Bool.eq_false_iff, ne_eq, Env.contains_bindAll hlength,
        decide_eq_true_iff]
      exact not_congr (or_iff_left Bool.false_ne_true)
    rw [Env.size_inherit, Env.size_bindAll hlength hnodup fun _ _ => rfl,
      List.filter_congr fun name _ => hfree name]
    show 0 + _ + _ = _
    rw [Nat.zero_add, Lambda.arity]

variable (hcallee : callee.evaluate? limit (s.started (.call callee arguments)) =
    some (.ok (.closure f), t))
  (harity : f.arity = arguments.length) (hadmits : ∀ l, limit = some l → t.depth < l)

include hcallee harity hadmits

/-- Once its callee has a value, a call binds the arguments and evaluates the body. -/
theorem Expr.evaluate?_call_eq :
    (Expr.call callee arguments).evaluate? limit s =
      (Expr.bindArguments (Expr.evaluate? limit) Env.empty f.params arguments >>= fun frame =>
        Eval.inCall f.params frame (f.body.evaluate? limit)) t := by
  have hf : (Eval.ofExcept ((Value.closure f).callee arguments.length) : Eval Lambda) t =
      some (.ok f, t) := by
    rw [Value.callee_closure harity]
    rfl
  rw [Expr.evaluate?_apply]
  exact (bind_of_ok hcallee).trans ((bind_of_ok hf).trans (bind_of_ok
    (Eval.checkDepth_of_lt hadmits)))

/-- The evaluations that a call starts: that of the callee, those of the arguments as far as nothing
ends the call before, and that of the body if nothing ends it. -/
theorem Expr.starts_call_iff {inside : Nat} {part : Expr} {r : State} :
    (Expr.call callee arguments).Starts limit s inside part r ↔
      inside = 0 ∧ part = callee ∧ r = s.started (.call callee arguments) ∨
      (∃ i values, inside = 0 ∧ arguments[i]? = some part ∧
        Expr.Passes limit f.params arguments t i values r) ∨
      ∃ values u, inside = 1 ∧ part = f.body ∧
        Expr.Passes limit f.params arguments t arguments.length values u ∧
        r = u.entered f.params (Env.empty.bindAll f.params values) := by
  have htake : ∀ earlier later, (earlier ++ part :: later).take earlier.length = earlier :=
    fun _ _ => List.take_left
  constructor
  · intro h
    cases h with
    | first hoperands =>
      cases hoperands
      exact .inl ⟨rfl, rfl, rfl⟩
    | @argument _ _ earlier later _ _ _ _ frame hcallee' _ _ hearlier =>
      cases hcallee.symm.trans hcallee'
      have hbound : Expr.bindArguments (Expr.evaluate? limit) Env.empty
          (f.params.take earlier.length) ((earlier ++ part :: later).take earlier.length) t =
            some (.ok frame, r) := by
        rwa [htake]
      obtain ⟨values, hpasses, -⟩ := (Expr.bindArguments_take_iff harity).mp hbound
      exact .inr (.inl ⟨earlier.length, values, rfl, by simp, hpasses⟩)
    | body hcallee' _ _ harguments =>
      cases hcallee.symm.trans hcallee'
      obtain ⟨values, hpasses, rfl⟩ := (Expr.bindArguments_iff harity).mp harguments
      exact .inr (.inr ⟨values, _, rfl, rfl, hpasses, rfl⟩)
  · rintro (⟨rfl, rfl, rfl⟩ | ⟨i, values, rfl, hargument, hpasses⟩ |
      ⟨values, u, rfl, rfl, hpasses, rfl⟩)
    · exact .first rfl
    · have hsplit : ∃ earlier later, arguments = earlier ++ part :: later ∧ earlier.length = i := by
        obtain ⟨hi, rfl⟩ := List.getElem?_eq_some_iff.mp hargument
        refine ⟨arguments.take i, arguments.drop (i + 1), ?_, List.length_take_of_le hi.le⟩
        rw [← List.drop_eq_getElem_cons hi, List.take_append_drop]
      obtain ⟨earlier, later, rfl, rfl⟩ := hsplit
      have hbound := (Expr.bindArguments_take_iff harity).mpr ⟨values, hpasses, rfl⟩
      rw [htake] at hbound
      exact .argument hcallee harity hadmits hbound
    · exact .body hcallee harity hadmits
        ((Expr.bindArguments_iff harity).mpr ⟨values, hpasses, rfl⟩)

/-- An argument that ends a call is the last one that is evaluated. -/
theorem Expr.FailsAt.call {i : Nat} {cause : EvalError} {u : State}
    (h : Expr.FailsAt limit f.params arguments t i cause u) :
    (Expr.call callee arguments).evaluate? limit s = some (.error cause, u) ∧
    ∀ inside part r, (Expr.call callee arguments).Starts limit s inside part r ↔
      inside = 0 ∧ part = callee ∧ r = s.started (.call callee arguments) ∨
      ∃ j values, inside = 0 ∧ j ≤ i ∧ arguments[j]? = some part ∧
        Expr.Passes limit f.params arguments t j values r := by
  constructor
  · rw [Expr.evaluate?_call_eq hcallee harity hadmits]
    exact bind_of_error (h.bindArguments harity)
  · intro inside part r
    rw [Expr.starts_call_iff hcallee harity hadmits]
    constructor
    · rintro (hfirst | ⟨j, values, hinside, hargument, hpasses⟩ | ⟨values, w, -, -, hpasses, -⟩)
      · exact .inl hfirst
      · exact .inr ⟨j, values, hinside, h.le_of_passes harity hpasses, hargument, hpasses⟩
      · have hle := h.le_of_passes harity hpasses
        have hlt := h.lt
        omega
    · rintro (hfirst | ⟨j, values, hinside, -, hargument, hpasses⟩)
      · exact .inl hfirst
      · exact .inr (.inl ⟨j, values, hinside, hargument, hpasses⟩)

/-- If no argument ends a call, then its body does. -/
theorem Expr.Passes.call {values : List Value} {u : State}
    (h : Expr.Passes limit f.params arguments t arguments.length values u) :
    let start := u.entered f.params (Env.empty.bindAll f.params values)
    (Expr.call callee arguments).evaluate? limit s =
      (f.body.evaluate? limit start).map (fun x => (x.1, x.2.left u.env)) ∧
    ∀ inside part r, (Expr.call callee arguments).Starts limit s inside part r ↔
      inside = 0 ∧ part = callee ∧ r = s.started (.call callee arguments) ∨
      (∃ j values, inside = 0 ∧ arguments[j]? = some part ∧
        Expr.Passes limit f.params arguments t j values r) ∨
      inside = 1 ∧ part = f.body ∧ r = start := by
  intro start
  constructor
  · have hbound := (Expr.bindArguments_iff harity).mpr ⟨values, h, rfl⟩
    rw [Expr.evaluate?_call_eq hcallee harity hadmits, bind_of_ok hbound, Eval.inCall_apply]
  · intro inside part r
    rw [Expr.starts_call_iff hcallee harity hadmits]
    constructor
    · rintro (hfirst | hargument | ⟨values', u', hinside, hbody, hpasses, hr⟩)
      · exact .inl hfirst
      · exact .inr (.inl hargument)
      · obtain ⟨rfl, rfl⟩ := h.yield.unique hpasses.yield
        exact .inr (.inr ⟨hinside, hbody, hr⟩)
    · rintro (hfirst | hargument | ⟨hinside, hbody, hr⟩)
      · exact .inl hfirst
      · exact .inr (.inl hargument)
      · exact .inr (.inr ⟨values, u, hinside, hbody, h, hr⟩)

/-- If the evaluation of an argument does not end, then that of the call does not either. -/
theorem Expr.Passes.call_none {i : Nat} {argument : Expr} {values : List Value} {u : State}
    (h : Expr.Passes limit f.params arguments t i values u)
    (hargument : arguments[i]? = some argument) (hnone : argument.evaluate? limit u = none) :
    (Expr.call callee arguments).evaluate? limit s = none := by
  obtain ⟨hi, rfl⟩ := List.getElem?_eq_some_iff.mp hargument
  have hi' : i < f.params.length := by
    rw [← Lambda.arity, harity]
    exact hi
  rw [Expr.evaluate?_call_eq hcallee harity hadmits]
  refine bind_of_none ?_
  rw [h.bindArguments harity, List.drop_eq_getElem_cons hi, List.drop_eq_getElem_cons hi']
  exact bind_of_none hnone

end

/-- The arguments of a call do what a plain description says. Let the callee of a call have a
function as its value, for which there are as many arguments as parameters, and let the limit admit
the call. If the argument with the index `i` is the first one that fails or whose parameter is
listed before, then the call fails with the error of the argument or with the one for the parameter,
in exactly the state that the argument leaves, and besides the callee only arguments up to this one
are evaluated. If there is no such argument, then the call ends as the body does from the state that
`Lambda.Begins` describes, and the caller is left with the frame that the last argument leaves; the
callee, the arguments and the body are evaluated. One of the two is the case, unless the evaluation
of an argument before does not end, and then that of the call does not end either. -/
theorem Expr.evaluate?_call {limit : Option Nat} {callee : Expr} {arguments : List Expr}
    {f : Lambda} {s t : State}
    (hcallee : callee.evaluate? limit (s.started (.call callee arguments)) =
      some (.ok (.closure f), t))
    (harity : f.arity = arguments.length) (hadmits : ∀ l, limit = some l → t.depth < l) :
    let call : Expr := .call callee arguments
    let Passes := Expr.Passes limit f.params arguments t
    (∀ i cause u, Expr.FailsAt limit f.params arguments t i cause u →
      call.evaluate? limit s = some (.error cause, u) ∧
      ∀ inside part r, call.Starts limit s inside part r ↔
        inside = 0 ∧ part = callee ∧ r = s.started call ∨
        ∃ j values, inside = 0 ∧ j ≤ i ∧ arguments[j]? = some part ∧ Passes j values r) ∧
    (∀ values u, Passes arguments.length values u →
      ∃ start, f.Begins values u start ∧
        call.evaluate? limit s =
          (f.body.evaluate? limit start).map (fun x => (x.1, x.2.left u.env)) ∧
        ∀ inside part r, call.Starts limit s inside part r ↔
          inside = 0 ∧ part = callee ∧ r = s.started call ∨
          (∃ j values, inside = 0 ∧ arguments[j]? = some part ∧ Passes j values r) ∨
          inside = 1 ∧ part = f.body ∧ r = start) ∧
    ((∃ i cause u, Expr.FailsAt limit f.params arguments t i cause u) ∨
      (∃ values u, Passes arguments.length values u) ∨
      ∃ i argument values u, arguments[i]? = some argument ∧ Passes i values u ∧
        argument.evaluate? limit u = none ∧ call.evaluate? limit s = none) := by
  intro call Passes
  refine ⟨fun i cause u hfails => hfails.call hcallee harity hadmits, fun values u hpasses => ?_, ?_⟩
  · exact ⟨_, Lambda.begins_entered hpasses harity, hpasses.call hcallee harity hadmits⟩
  · rcases Expr.exists_passes_or_ends harity arguments.length le_rfl with
      ⟨i, argument, values, u, hargument, hpasses, hnone⟩ | hfails | hpasses
    · exact .inr (.inr ⟨i, argument, values, u, hargument, hpasses, hnone,
        hpasses.call_none hcallee harity hadmits hargument hnone⟩)
    · exact .inl hfails
    · exact .inr (.inl hpasses)

/-- A call whose second argument ends it, for its parameter is listed before: the binding that it
makes stays, and the third argument is not evaluated. And a call whose arguments all pass: the body
sees what the first argument binds, and its parameter instead of what the second one binds. -/
theorem Expr.evaluate?_call_shadowing :
    let s : State := ⟨Env.empty, 0, Sink.unlimited, Log.off⟩
    let late : Expr := .print (.str "late")
    let failing : Expr := .call (.function ["x", "x", "y"] (.var "x"))
      [.int 1, .letIn "a" (.int 2) (.var "a"), late]
    let f : Lambda := ⟨["x", "y"], .tuple (.var "x") (.var "z")⟩
    let passing : Expr := .call (.function f.params f.body)
      [.letIn "z" (.int 1) (.var "z"), .letIn "x" (.int 7) (.var "z")]
    (∃ u, failing.evaluate? none s = some (.error (.duplicateParameter "x"), u) ∧
      u.env.get? "a" = some (.int 2) ∧
      ∀ inside part r, failing.Starts none s inside part r → part ≠ late) ∧
    ∃ u start, f.Begins [.int 1, .int 1] u start ∧ u.env.get? "x" = some (.int 7) ∧
      start.env.get? "x" = some (.int 1) ∧ start.env.get? "z" = some (.int 1) ∧
      start.env.size = 3 ∧ passing.evaluate? none s =
        (f.body.evaluate? none start).map (fun x => (x.1, x.2.left u.env)) := by
  intro s late failing f passing
  have hadmits : ∀ l, none = some l → s.depth < l := by rintro _ ⟨⟩
  constructor
  · let u : State := { s with env := Env.empty.set "a" (.int 2) }
    have hcallee : (Expr.function ["x", "x", "y"] (.var "x")).evaluate? none (s.started failing) =
        some (.ok (.closure ⟨["x", "x", "y"], .var "x"⟩), s) := Expr.evaluate?_of_within 1 rfl
    have hfirst : (Expr.int 1).evaluate? none s = some (.ok (.int 1), s) :=
      Expr.evaluate?_of_within 1 rfl
    have hsecond : (Expr.letIn "a" (.int 2) (.var "a")).evaluate? none s =
        some (.ok (.int 2), u) := Expr.evaluate?_of_within 2 rfl
    obtain ⟨hfails, -, -⟩ := Expr.evaluate?_call hcallee rfl hadmits
    obtain ⟨herror, hstarts⟩ := hfails 1 _ u
      (.duplicate ⟨.cons hfirst .nil, by decide⟩ rfl rfl (by decide) hsecond)
    subst late
    refine ⟨u, herror, rfl, fun inside part r h => ?_⟩
    rcases (hstarts inside part r).mp h with ⟨-, rfl, -⟩ | ⟨j, -, -, hj, hpart, -⟩
    · rintro ⟨⟩
    · obtain rfl | rfl : j = 0 ∨ j = 1 := by omega
      · cases hpart
        rintro ⟨⟩
      · cases hpart
        rintro ⟨⟩
  · let t : State := { s with env := Env.empty.set "z" (.int 1) }
    let u : State := { s with env := (Env.empty.set "z" (.int 1)).set "x" (.int 7) }
    have hcallee : (Expr.function f.params f.body).evaluate? none (s.started passing) =
        some (.ok (.closure f), s) := Expr.evaluate?_of_within 1 rfl
    have hfirst : (Expr.letIn "z" (.int 1) (.var "z")).evaluate? none s =
        some (.ok (.int 1), t) := Expr.evaluate?_of_within 2 rfl
    have hsecond : (Expr.letIn "x" (.int 7) (.var "z")).evaluate? none t =
        some (.ok (.int 1), u) := Expr.evaluate?_of_within 2 rfl
    obtain ⟨-, hpasses, -⟩ := Expr.evaluate?_call hcallee rfl hadmits
    obtain ⟨start, hstart, hcall, -⟩ := hpasses [.int 1, .int 1] u
      ⟨.cons hfirst (.cons hsecond .nil), by decide⟩
    refine ⟨u, start, hstart, rfl, hstart.param 0 "x" (.int 1) rfl rfl, ?_, ?_, hcall⟩
    · rw [hstart.other "z" (by decide)]
      rfl
    · rw [hstart.size]
      rfl

end TreeLang
