import TreeLang.Proofs.Agreement
import TreeLang.Proofs.Bounded

/-!
# The limit on nested calls is transparent

A limit shows only in the error of the limit itself. An evaluation that ends with anything else ends
alike under every larger limit and under none. An evaluation without a limit that ends does so
alike under all limits that are large enough, and under the others it is interrupted: it fails
with the error of the limit, and what it has printed by then is the beginning of the output.

Each of these is a simulation: it is shown for single steps, and follows for all evaluations.
-/

namespace TreeLang

open Eval (bind_of_ok bind_of_error bind_eq_some)

/-! ## Simulations between limits -/

section Simulations

variable {limit : Option Nat} {l : Nat}

/-- Under a limit, only the error of this limit occurs. -/
theorem Eval.simulation_limitError (limit : Option Nat) :
    Eval.Simulation limit (fun _ : Unit => limit) fun _ x _ =>
      ∀ l, x.1 = .error (.recursionLimit l) → limit = some l where
  act := by
    intro α f hf s x hx l hl
    cases hx
    exact (hf.ofProgram s _ hl).elim
  write := by
    intro text s x hx l hl
    rcases Eval.write_cases text s with ⟨_, _, h⟩ | ⟨_, _, _, h⟩
    all_goals
      rw [h] at hx
      cases hx
      cases hl
  checkDepth := by
    intro s x hx l hl
    rcases Eval.checkDepth_cases limit s with ⟨_, h⟩ | ⟨l', hlimit, _, h⟩
    all_goals
      rw [h] at hx
      cases hx
      cases hl
    exact hlimit
  bind := by
    intro α β first second next next' hfirst hnext s x h
    rcases bind_eq_some h with ⟨a, t, _, h₂⟩ | ⟨cause, t, h₁, rfl⟩
    · exact hnext a t x h₂
    · intro l hl
      cases hl
      exact hfirst s _ h₁ l rfl
  inCall := by
    intro params arguments first second h s x hx
    obtain ⟨y, hy, rfl⟩ := Eval.inCall_eq_some hx
    exact h _ y hy

/-- What ends under a limit with anything but its error ends alike if more calls are admitted. -/
theorem Eval.simulation_admitted (hlimit : ∀ l', limit = some l' → l ≤ l') :
    Eval.Simulation (some l) (fun _ : Unit => limit) fun s x second =>
      (∀ l, x.1 ≠ .error (.recursionLimit l)) → second () s = some x where
  act := fun _ _ _ h _ => h
  write := fun _ _ _ h _ => h
  checkDepth := by
    intro s x hx hne
    rcases Eval.checkDepth_cases (some l) s with ⟨hlt, h⟩ | ⟨l', _, _, h⟩
    · rw [h] at hx
      cases hx
      rcases Eval.checkDepth_cases limit s with ⟨_, h'⟩ | ⟨l', hl', hle, _⟩
      · exact h'
      · have hlt := hlt l rfl
        have hle' := hlimit l' hl'
        omega
    · rw [h] at hx
      cases hx
      exact absurd rfl (hne l')
  bind := by
    intro α β first second next next' hfirst hnext s x h hne
    rcases bind_eq_some h with ⟨a, t, h₁, h₂⟩ | ⟨cause, t, h₁, rfl⟩
    · exact (bind_of_ok (hfirst s _ h₁ nofun)).trans (hnext a t x h₂ hne)
    · refine bind_of_error (hfirst s _ h₁ fun l hl => hne l ?_)
      cases hl
      rfl
  inCall := by
    intro params arguments first second h s x hx hne
    obtain ⟨y, hy, rfl⟩ := Eval.inCall_eq_some hx
    exact Eval.inCall_of_some (h _ y hy hne)

/-- What ends without a limit ends alike under all limits that are large enough. -/
theorem Eval.simulation_sufficient :
    Eval.Simulation none (some : Nat → Option Nat) fun s x second =>
      ∃ l, ∀ l' ≥ l, second l' s = some x where
  act := fun _ _ _ h => ⟨0, fun _ _ => h⟩
  write := fun _ _ _ h => ⟨0, fun _ _ => h⟩
  checkDepth := by
    intro s x hx
    cases hx
    refine ⟨s.depth + 1, fun l' hl' => ?_⟩
    rcases Eval.checkDepth_cases (some l') s with ⟨_, h⟩ | ⟨l, hl, hle, _⟩
    · exact h
    · cases hl
      omega
  bind := by
    intro α β first second next next' hfirst hnext s x h
    rcases bind_eq_some h with ⟨a, t, h₁, h₂⟩ | ⟨cause, t, h₁, rfl⟩
    · obtain ⟨l₁, hl₁⟩ := hfirst s _ h₁
      obtain ⟨l₂, hl₂⟩ := hnext a t x h₂
      refine ⟨max l₁ l₂, fun l' hl' => ?_⟩
      exact (bind_of_ok (hl₁ l' (by omega))).trans (hl₂ l' (by omega))
    · obtain ⟨l, hl⟩ := hfirst s _ h₁
      exact ⟨l, fun l' hl' => bind_of_error (hl l' hl')⟩
  inCall := by
    intro params arguments first second h s x hx
    obtain ⟨y, hy, rfl⟩ := Eval.inCall_eq_some hx
    obtain ⟨l, hl⟩ := h _ y hy
    exact ⟨l, fun l' hl' => Eval.inCall_of_some (hl l' hl')⟩

/-- What ends without a limit either ends alike under a limit or is interrupted by it. -/
theorem Eval.simulation_interrupted (l : Nat) :
    Eval.Simulation none (fun _ : Unit => some l) fun s x second =>
      s.sink.GrowsTo x.2.sink ∧ (second () s = some x ∨
        ∃ t, second () s = some (.error (.recursionLimit l), t) ∧ t.sink.GrowsTo x.2.sink) where
  act := by
    intro α f hf s x hx
    refine ⟨?_, .inl hx⟩
    cases hx
    rw [hf.sink s]
    exact .refl _
  write := by
    intro text s x hx
    refine ⟨?_, .inl hx⟩
    have hgrows := s.sink.growsTo_write text.toUTF8
    rcases Eval.write_cases text s with ⟨sink, hsink, h⟩ | ⟨fault, sink, hsink, h⟩
    all_goals
      rw [h] at hx
      cases hx
      rw [hsink] at hgrows
      exact hgrows
  checkDepth := by
    intro s x hx
    cases hx
    refine ⟨.refl _, ?_⟩
    rcases Eval.checkDepth_cases (some l) s with ⟨_, h⟩ | ⟨l', hl', _, h⟩
    · exact .inl h
    · cases hl'
      exact .inr ⟨s, h, .refl _⟩
  bind := by
    intro α β first second next next' hfirst hnext s x h
    rcases bind_eq_some h with ⟨a, t, h₁, h₂⟩ | ⟨cause, t, h₁, rfl⟩
    · obtain ⟨hgrows₁, h₁ | ⟨u, h₁, hu⟩⟩ := hfirst s _ h₁
      · obtain ⟨hgrows₂, h₂ | ⟨u, h₂, hu⟩⟩ := hnext a t x h₂
        · exact ⟨hgrows₁.trans hgrows₂, .inl ((bind_of_ok h₁).trans h₂)⟩
        · exact ⟨hgrows₁.trans hgrows₂, .inr ⟨u, (bind_of_ok h₁).trans h₂, hu⟩⟩
      · obtain ⟨hgrows₂, _⟩ := hnext a t x h₂
        exact ⟨hgrows₁.trans hgrows₂, .inr ⟨u, bind_of_error h₁, hu.trans hgrows₂⟩⟩
    · obtain ⟨hgrows, h₁ | ⟨u, h₁, hu⟩⟩ := hfirst s _ h₁
      · exact ⟨hgrows, .inl (bind_of_error h₁)⟩
      · exact ⟨hgrows, .inr ⟨u, bind_of_error h₁, hu⟩⟩
  inCall := by
    intro params arguments first second h s x hx
    obtain ⟨y, hy, rfl⟩ := Eval.inCall_eq_some hx
    obtain ⟨hgrows, h | ⟨u, h, hu⟩⟩ := h _ y hy
    · exact ⟨hgrows, .inl (Eval.inCall_of_some h)⟩
    · exact ⟨hgrows, .inr ⟨u.left s.env, Eval.inCall_of_some h, hu⟩⟩

end Simulations

/-! ## Derivations under several limits -/

section Derivations

variable {limit : Option Nat} {depth l : Nat} {e : Expr} {env env' : Env}
  {result : Except EvalError Value} {out : ByteArray}

/-- A state inside `depth` calls, in a frame `env` and on a sink that never fails. -/
def State.inside (depth : Nat) (env : Env) : State := ⟨env, depth, Sink.unlimited, Log.off⟩

/-- At most one ending is derived. -/
theorem Evaluates.unique {result' : Except EvalError Value} {env'' : Env} {out' : ByteArray}
    (h : Evaluates limit depth e env result env' out)
    (h' : Evaluates limit depth e env result' env'' out') :
    result = result' ∧ env' = env'' ∧ out = out' := by
  obtain ⟨t, ht, rfl, hprinted⟩ := h.ends (.inside depth env) rfl rfl rfl
  obtain ⟨t', ht', rfl, hprinted'⟩ := h'.ends (.inside depth env) rfl rfl rfl
  cases ht.symm.trans ht'
  exact ⟨rfl, rfl, hprinted.unique hprinted'⟩

/-- Under a limit, the rules derive something for every expression. -/
theorem Evaluates.total (l depth : Nat) (e : Expr) (env : Env) :
    ∃ result env' out, Evaluates (some l) depth e env result env' out := by
  obtain ⟨x, -, hx, -⟩ := e.follows_evalBounded l depth (.inside depth env) rfl
  obtain ⟨out, hderived, -⟩ := Sound.evaluate? (some l) e _ x hx rfl
  exact ⟨x.1, x.2.env, out, hderived⟩

/-- The error of a limit occurs under this limit only. -/
theorem Evaluates.limit_eq (h : Evaluates limit depth e env (.error (.recursionLimit l)) env' out) :
    limit = some l := by
  obtain ⟨t, ht, -⟩ := h.ends (.inside depth env) rfl rfl rfl
  exact (Eval.simulation_limitError limit).evaluate? e _ _ ht l rfl

/-- What ends under a limit with anything but its error ends alike if more calls are admitted. -/
theorem Evaluates.admitted (h : Evaluates (some l) depth e env result env' out)
    (hne : ∀ l, result ≠ .error (.recursionLimit l)) (hlimit : ∀ l', limit = some l' → l ≤ l') :
    Evaluates limit depth e env result env' out := by
  obtain ⟨t, ht, rfl, hprinted⟩ := h.ends (.inside depth env) rfl rfl rfl
  have ht' := (Eval.simulation_admitted hlimit).evaluate? e _ _ ht hne
  exact .of_evaluate? ht' rfl hprinted

/-- What succeeds under a limit succeeds alike without one. -/
theorem Evaluates.unlimited {v : Value} (h : Evaluates (some l) depth e env (.ok v) env' out) :
    Evaluates none depth e env (.ok v) env' out :=
  h.admitted nofun nofun

theorem Evaluates.sufficient (h : Evaluates none depth e env result env' out) :
    ∃ l, ∀ l' ≥ l, Evaluates (some l') depth e env result env' out := by
  obtain ⟨t, ht, rfl, hprinted⟩ := h.ends (.inside depth env) rfl rfl rfl
  obtain ⟨l, hl⟩ := Eval.simulation_sufficient.evaluate? e _ _ ht
  exact ⟨l, fun l' hl' => .of_evaluate? (hl l' hl') rfl hprinted⟩

/-- What ends without a limit either ends alike under a limit or is interrupted by it. -/
theorem Evaluates.interrupted (l : Nat) (h : Evaluates none depth e env result env' out) :
    Evaluates (some l) depth e env result env' out ∨
    ∃ env'' out' rest, Evaluates (some l) depth e env (.error (.recursionLimit l)) env'' out' ∧
      out = out' ++ rest := by
  obtain ⟨t, ht, rfl, hprinted⟩ := h.ends (.inside depth env) rfl rfl rfl
  obtain ⟨-, hsame | ⟨u, hcut, rest, hrest⟩⟩ :=
    (Eval.simulation_interrupted l).evaluate? e _ _ ht
  · exact .inl (.of_evaluate? hsame rfl hprinted)
  · obtain ⟨out', hderived, hprinted'⟩ := Sound.evaluate? (some l) e _ _ hcut rfl
    refine .inr ⟨u.env, out', rest, hderived, hprinted.unique (hprinted'.trans ⟨hrest, ?_⟩)⟩
    exact hprinted.depth.trans hprinted'.depth.symm

variable {frame frame' : Env} {params : List String} {arguments : List Expr}

/-- Arguments that are bound under a limit are bound alike without one. -/
theorem BindsArguments.unlimited
    (h : BindsArguments (some l) depth frame params arguments env (.ok frame') env' out) :
    BindsArguments none depth frame params arguments env (.ok frame') env' out := by
  induction params generalizing frame arguments env out with
  | nil =>
    cases h
    exact .nil
  | cons param params ih =>
    cases h with
    | cons hargument hparam hrest => exact .cons hargument.unlimited hparam (ih hrest)

/-- Arguments that are bound without a limit are bound alike under one, or it interrupts that. -/
theorem BindsArguments.interrupted (l : Nat)
    (h : BindsArguments none depth frame params arguments env (.ok frame') env' out) :
    BindsArguments (some l) depth frame params arguments env (.ok frame') env' out ∨
    ∃ env'' out', BindsArguments (some l) depth frame params arguments env
      (.error (.recursionLimit l)) env'' out' := by
  induction params generalizing frame arguments env out with
  | nil =>
    cases h
    exact .inl .nil
  | cons param params ih =>
    cases h with
    | cons hargument hparam hrest =>
      rcases hargument.interrupted l with hargument | ⟨env'', out', _, hargument, _⟩
      · rcases ih hrest with hrest | ⟨env'', out', hrest⟩
        · exact .inl (.cons hargument hparam hrest)
        · exact .inr ⟨env'', _, .rest hargument hparam hrest⟩
      · exact .inr ⟨env'', out', .argument hargument⟩

end Derivations

end TreeLang
