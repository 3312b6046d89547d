import TreeLang.Proofs.OperatorTable

/-!
# Values that share cells

In memory a pair is in a cell, and many values may have the same cell inside. So two values can be
compared without looking into cells that are known to be identical. `Stored.same` does this with any
test for identical cells. If the test holds only of cells with the same contents, then the answer is
whether the values are the same term, so it does not depend on the test or on what is shared.
-/

namespace TreeLang

open Eval (bind_eq_some)

/-- A value as it is stored: each pair is in a cell, which has an address. -/
inductive Stored (Address : Type) where
  | str (text : String)
  | int (n : Int32)
  | bool (b : Bool)
  | tuple (address : Address) (first second : Stored Address)
  | closure (function : Lambda)

namespace Stored

variable {Address : Type}

/-- The value that is stored. -/
def value : Stored Address → Value
  | str text => .str text
  | int n => .int n
  | bool b => .bool b
  | tuple _ first second => .tuple first.value second.value
  | closure f => .closure f

/-- The value is stored in this memory: it has the cells that are there. -/
def In (memory : Address → Value × Value) : Stored Address → Prop
  | tuple address first second =>
    memory address = (first.value, second.value) ∧ first.In memory ∧ second.In memory
  | _ => True

/-- Compares two values by their contents, but takes cells to be equal that are identical. -/
def same (identical : Address → Address → Bool) : Stored Address → Stored Address → Bool
  | str a, str b => a == b
  | int a, int b => a == b
  | bool a, bool b => a == b
  | tuple address first second, tuple address' first' second' =>
    identical address address' || (first.same identical first' && second.same identical second')
  | closure f, closure g => f.params == g.params && Expr.same f.body g.body
  | _, _ => false

/-- If cells are identical only where the memory has the same contents, then the comparison tells
exactly whether the values are equal. -/
theorem same_iff {memory : Address → Value × Value} {identical : Address → Address → Bool}
    (hidentical : ∀ a b, identical a b = true → memory a = memory b) {v w : Stored Address}
    (hv : v.In memory) (hw : w.In memory) : v.same identical w = true ↔ v.value = w.value := by
  induction v generalizing w with
  | str a => cases w <;> simp [same, value]
  | int a => cases w <;> simp [same, value]
  | bool a => cases w <;> simp [same, value]
  | tuple address first second ih₁ ih₂ =>
    cases w with
    | tuple address' first' second' =>
      obtain ⟨hcell, hfirst, hsecond⟩ := hv
      obtain ⟨hcell', hfirst', hsecond'⟩ := hw
      have hparts := and_congr (ih₁ hfirst hfirst') (ih₂ hsecond hsecond')
      simp only [same, value, Bool.or_eq_true, Bool.and_eq_true, hparts, Value.tuple.injEq]
      -- Identical cells have equal parts anyway.
      refine or_iff_right_of_imp fun h => ?_
      have hmemory := hidentical address address' h
      rw [hcell, hcell'] at hmemory
      exact Prod.mk.inj hmemory
    | _ => simp [same, value]
  | closure f =>
    cases w with
    | closure g =>
      obtain ⟨params, body⟩ := f
      obtain ⟨params', body'⟩ := g
      simp [same, value, Expr.same_iff]
    | _ => simp [same, value]

end Stored

/-! ## Equality as an operator -/

section

variable {limit : Option Nat} {lhs rhs : Expr} {s : State}

theorem Op.applyNamed_ne_error {name : String} (hname : name = "Eq" ∨ name = "Neq") (l r : Value)
    (cause : EvalError) : Op.applyNamed name l r ≠ .error cause := by
  rcases hname with rfl | rfl
  · rw [Op.Yields.applyNamed_eq .equal]
    nofun
  · rw [Op.Yields.applyNamed_eq .different]
    nofun

/-- If an expression with such an operator fails, then because an operand does. -/
theorem Expr.operand_of_evaluate?_error {name : String} (hname : name = "Eq" ∨ name = "Neq")
    {cause : EvalError} {u : State}
    (h : (Expr.binary name lhs rhs).evaluate? limit s = some (.error cause, u)) :
    lhs.evaluate? limit (s.started (.binary name lhs rhs)) = some (.error cause, u) ∨
      ∃ l t, lhs.evaluate? limit (s.started (.binary name lhs rhs)) = some (.ok l, t) ∧
        rhs.evaluate? limit t = some (.error cause, u) := by
  rw [Expr.evaluate?_apply] at h
  rcases bind_eq_some h with ⟨l, t, hlhs, h⟩ | ⟨_, _, hlhs, hend⟩
  · rcases bind_eq_some h with ⟨r, t', hrhs, h⟩ | ⟨_, _, hrhs, hend⟩
    · have happly : Op.applyNamed name l r = .error cause :=
        congrArg Prod.fst (Option.some.inj h)
      exact absurd happly (Op.applyNamed_ne_error hname l r cause)
    · cases hend
      exact .inr ⟨l, t, hlhs, hrhs⟩
  · cases hend
    exact .inl hlhs

end

/-- Equality of values is structural identity, whatever cells they share. Let a test hold of cells
only if the memory has the same contents in both. Then the comparison that relies on this test says
of all values in the memory whether they are the same term: the same text, number or truth value,
pairs of the same components, or functions with the same parameters in the same order and the same
body. It says the same without the test, and it is an equivalence. So the operators of equality and
inequality, whose operands have values, result in what the comparison says and in the opposite, and
they add no error to those of the operands. -/
theorem Stored.same_eq_decide {Address : Type} {memory : Address → Value × Value}
    {identical : Address → Address → Bool}
    (hidentical : ∀ a b, identical a b = true → memory a = memory b) :
    (∀ v w : Stored Address, v.In memory → w.In memory →
      v.same identical w = decide (v.value = w.value) ∧
      v.same identical w = v.same (fun _ _ => false) w) ∧
    (∀ v : Stored Address, v.In memory → v.same identical v = true) ∧
    (∀ v w : Stored Address, v.In memory → w.In memory → v.same identical w = w.same identical v) ∧
    (∀ u v w : Stored Address, u.In memory → v.In memory → w.In memory →
      u.same identical v = true → v.same identical w = true → u.same identical w = true) ∧
    (∀ limit lhs rhs s t u, ∀ v w : Stored Address, v.In memory → w.In memory →
      Expr.evaluate? limit lhs (s.started (.binary "Eq" lhs rhs)) = some (.ok v.value, t) →
      Expr.evaluate? limit rhs t = some (.ok w.value, u) →
      (Expr.binary "Eq" lhs rhs).evaluate? limit s =
        some (.ok (.bool (v.same identical w)), u) ∧
      (Expr.binary "Neq" lhs rhs).evaluate? limit s =
        some (.ok (.bool (!v.same identical w)), u)) ∧
    ∀ name, name = "Eq" ∨ name = "Neq" → ∀ limit lhs rhs s cause u,
      (Expr.binary name lhs rhs).evaluate? limit s = some (.error cause, u) →
      lhs.evaluate? limit (s.started (.binary name lhs rhs)) = some (.error cause, u) ∨
        ∃ l t, lhs.evaluate? limit (s.started (.binary name lhs rhs)) = some (.ok l, t) ∧
          rhs.evaluate? limit t = some (.error cause, u) := by
  have hdecide : ∀ {v w : Stored Address}, v.In memory → w.In memory →
      v.same identical w = decide (v.value = w.value) := by
    intro v w hv hw
    rw [Bool.eq_iff_iff, same_iff hidentical hv hw, decide_eq_true_iff]
  refine ⟨fun v w hv hw => ⟨hdecide hv hw, ?_⟩, fun v hv => ?_, fun v w hv hw => ?_,
    fun u v w hu hv hw huv hvw => ?_, fun limit lhs rhs s t u v w hv hw hlhs hrhs => ?_,
    fun name hname limit lhs rhs s cause u => Expr.operand_of_evaluate?_error hname⟩
  · have hnever : ∀ a b : Address, false = true → memory a = memory b := nofun
    rw [hdecide hv hw, Bool.eq_iff_iff, decide_eq_true_iff, same_iff hnever hv hw]
  · exact (same_iff hidentical hv hv).mpr rfl
  · rw [Bool.eq_iff_iff, same_iff hidentical hv hw, same_iff hidentical hw hv, eq_comm]
  · rw [same_iff hidentical hu hv] at huv
    rw [same_iff hidentical hv hw] at hvw
    exact (same_iff hidentical hu hw).mpr (huv.trans hvw)
  · rw [hdecide hv hw, ← decide_not]
    constructor
    · rw [Expr.evaluate?_binary hlhs hrhs, Op.Yields.applyNamed_eq .equal]
    · have happlied : (Expr.binary "Neq" lhs rhs).evaluate? limit s =
          some (Op.applyNamed "Neq" v.value w.value, u) := Expr.evaluate?_binary hlhs hrhs
      rw [happlied, Op.Yields.applyNamed_eq .different]

/-- Two pairs with a cell in common and, on the right, another cell with the same contents. -/
theorem Stored.same_eq_decide_shared :
    let pair : Value × Value := (.int 1, .closure ⟨["x"], .var "x"⟩)
    let memory (address : Nat) : Value × Value :=
      if address < 2 then pair else (.tuple pair.1 pair.2, .tuple pair.1 pair.2)
    let cell (address : Nat) : Stored Nat :=
      .tuple address (.int 1) (.closure ⟨["x"], .var "x"⟩)
    let v : Stored Nat := .tuple 2 (cell 0) (cell 0)
    let w : Stored Nat := .tuple 3 (cell 0) (cell 1)
    let s : State := ⟨(Env.empty.set "v" v.value).set "w" w.value, 0, Sink.unlimited, Log.off⟩
    v.In memory ∧ w.In memory ∧ v.same (· == ·) w = true ∧ w.same (· == ·) v = true ∧
    (Expr.binary "Eq" (.var "v") (.var "w")).evaluate? none s = some (.ok (.bool true), s) ∧
    (Expr.binary "Neq" (.var "v") (.var "w")).evaluate? none s = some (.ok (.bool false), s) := by
  intro pair memory cell v w s
  have hidentical : ∀ a b, (a == b) = true → memory a = memory b :=
    fun a b h => congrArg memory (eq_of_beq h)
  have hv : v.In memory := ⟨rfl, ⟨rfl, trivial, trivial⟩, ⟨rfl, trivial, trivial⟩⟩
  have hw : w.In memory := ⟨rfl, ⟨rfl, trivial, trivial⟩, ⟨rfl, trivial, trivial⟩⟩
  have hlhs : (Expr.var "v").evaluate? none (s.started (.binary "Eq" (.var "v") (.var "w"))) =
      some (.ok v.value, s) := by
    rw [Expr.evaluate?_apply]
    exact Eval.lookup_of_some rfl
  have hrhs : (Expr.var "w").evaluate? none s = some (.ok w.value, s) := by
    rw [Expr.evaluate?_apply]
    exact Eval.lookup_of_some rfl
  obtain ⟨hdecide, -, hsymm, -, heval, -⟩ := Stored.same_eq_decide hidentical
  have hsame : v.same (· == ·) w = true := by
    rw [(hdecide v w hv hw).1]
    exact decide_eq_true rfl
  obtain ⟨heq, hneq⟩ := heval none _ _ s s s v w hv hw hlhs hrhs
  rw [hsame] at heq hneq
  exact ⟨hv, hw, hsame, (hsymm w v hw hv).trans hsame, heq, hneq⟩

end TreeLang
