import Mathlib.Data.Int.ModEq
import Mathlib.Tactic.Ring
import TreeLang.Proofs.Justification

/-!
# The table of operators

`Op.Yields` is the table of what a name of an operator makes of two values, with a rule for each
row. Arithmetic is that of unbounded integers, and its result is the only integer of 32 bits that
is congruent to the exact one. The rows exclude one another and leave nothing out, so the table
tells exactly what operators do.
-/

namespace TreeLang

open Eval (bind_of_ok)

/-! ## Integers of 32 bits -/

/-- An integer is reduced to the only one of 32 bits that is congruent to it. -/
theorem ofInt_eq_iff_modEq {n : Int} {c : Int32} :
    Int32.ofInt n = c ↔ c.toInt ≡ n [ZMOD 2 ^ 32] := by
  have hrange : c.toInt.bmod (2 ^ 32) = c.toInt := Int32.toInt_bmod c
  rw [Int32.ofInt_eq_iff_bmod_eq_toInt, Int.ModEq]
  constructor
  · intro h
    rw [← h]
    exact Int.bmod_emod
  · intro h
    rw [← hrange, ← Int.emod_bmod n, ← Int.emod_bmod c.toInt]
    exact congrArg (Int.bmod · (2 ^ 32)) h.symm

section

variable (a b : Int32)

theorem ofInt_toInt_add : Int32.ofInt (a.toInt + b.toInt) = a + b := by
  rw [Int32.ofInt_add, Int32.ofInt_toInt, Int32.ofInt_toInt]

theorem ofInt_toInt_sub : Int32.ofInt (a.toInt - b.toInt) = a - b := by
  rw [Int32.ofInt_sub, Int32.ofInt_toInt, Int32.ofInt_toInt]

theorem ofInt_toInt_mul : Int32.ofInt (a.toInt * b.toInt) = a * b := by
  rw [Int32.ofInt_mul, Int32.ofInt_toInt, Int32.ofInt_toInt]

theorem ofInt_tdiv : Int32.ofInt (a.toInt.tdiv b.toInt) = a / b :=
  (Int32.ofInt_eq_iff_bmod_eq_toInt ..).mpr (Int32.toInt_div a b).symm

/-- A remainder is not reduced. -/
theorem toInt_rem : (a % b).toInt = a.toInt - b.toInt * a.toInt.tdiv b.toInt := by
  rw [Int32.toInt_mod, Int.tmod_def]

theorem ofInt_rem : Int32.ofInt (a.toInt - b.toInt * a.toInt.tdiv b.toInt) = a % b := by
  rw [← toInt_rem, Int32.ofInt_toInt]

theorem decide_toInt_lt : decide (a.toInt < b.toInt) = decide (a < b) :=
  decide_eq_decide.mpr Int32.lt_iff_toInt_lt.symm

theorem decide_toInt_le : decide (a.toInt ≤ b.toInt) = decide (a ≤ b) :=
  decide_eq_decide.mpr Int32.le_iff_toInt_le.symm

/-- Also a quotient that is reduced gives back the dividend. -/
theorem div_mul_add_rem : a / b * b + a % b = a := by
  have hexact : a.toInt.tdiv b.toInt * b.toInt +
      (a.toInt - b.toInt * a.toInt.tdiv b.toInt) = a.toInt := by ring
  calc a / b * b + a % b
      = Int32.ofInt (a.toInt.tdiv b.toInt * b.toInt +
          (a.toInt - b.toInt * a.toInt.tdiv b.toInt)) := by
        rw [Int32.ofInt_add, Int32.ofInt_mul, ofInt_tdiv, ofInt_rem, Int32.ofInt_toInt]
    _ = a := by rw [hexact, Int32.ofInt_toInt]

/-- A remainder is zero or has the sign of the dividend. -/
theorem sign_rem : a % b = 0 ∨ (a % b).toInt.sign = a.toInt.sign := by
  have hsign := Int.sign_tmod a.toInt b.toInt
  rw [← Int32.toInt_mod] at hsign
  split at hsign
  · left
    rw [← Int32.toInt_inj]
    exact Int.sign_eq_zero_iff_zero.mp hsign
  · exact .inr hsign

/-- A remainder is smaller than the divisor. -/
theorem abs_rem_lt (hb : b ≠ 0) : |(a % b).toInt| < |b.toInt| := by
  have hzero : b.toInt ≠ 0 := fun h => hb (Int32.toInt_inj.mp h)
  have hpos : 0 < b.toInt.natAbs := Int.natAbs_pos.mpr hzero
  rw [Int32.toInt_mod, Int.abs_eq_natAbs, Int.abs_eq_natAbs, Int.natAbs_tmod]
  exact Int.ofNat_lt.mpr (Nat.mod_lt _ hpos)

/-- A quotient is reduced in one case only. -/
theorem toInt_div_eq_iff :
    (a / b).toInt = a.toInt.tdiv b.toInt ↔ ¬(a = Int32.minValue ∧ b = -1) := by
  constructor
  · rintro h ⟨rfl, rfl⟩
    exact absurd h (by decide)
  · intro h
    rcases not_and_or.mp h with ha | hb
    · exact Int32.toInt_div_of_ne_left a b ha
    · exact Int32.toInt_div_of_ne_right a b hb

end

/-! ## The table -/

/-- The type that both operands need, if the operator works on one type only. -/
def Op.needed? : Op → Option ValueType
  | sub | mul | div | rem | lt | gt | lte | gte => some .int
  | and | or => some .bool
  | add | eq | neq => none

/-- The names of operators. -/
def Op.names : List String :=
  ["Add", "Sub", "Mul", "Div", "Rem", "Eq", "Neq", "Lt", "Gt", "Lte", "Gte", "And", "Or"]

/-- `Op.Yields name l r x` says that the operator of this name makes `x` of `l` and `r`. -/
inductive Op.Yields : String → Value → Value → Except EvalError Value → Prop where
  /-- There is no such operator, whatever the operands are. -/
  | unknown {name : String} {l r : Value} (hname : name ∉ Op.names) :
      Yields name l r (.error (.unknownOperator name))
  | sum {a b : Int32} :
      Yields "Add" (.int a) (.int b) (.ok (.int (.ofInt (a.toInt + b.toInt))))
  /-- One operand is a text, or both are. -/
  | text {l r : Value} (htext : l.type = .str ∨ r.type = .str) :
      Yields "Add" l r (.ok (.str (l.render ++ r.render)))
  | noSum {l r : Value} (hints : ¬(l.type = .int ∧ r.type = .int))
      (htext : ¬(l.type = .str ∨ r.type = .str)) : Yields "Add" l r (.error (.type .sum))
  | difference {a b : Int32} :
      Yields "Sub" (.int a) (.int b) (.ok (.int (.ofInt (a.toInt - b.toInt))))
  | product {a b : Int32} :
      Yields "Mul" (.int a) (.int b) (.ok (.int (.ofInt (a.toInt * b.toInt))))
  | quotient {a b : Int32} (hb : b ≠ 0) :
      Yields "Div" (.int a) (.int b) (.ok (.int (.ofInt (a.toInt.tdiv b.toInt))))
  | remainder {a b : Int32} (hb : b ≠ 0) :
      Yields "Rem" (.int a) (.int b)
        (.ok (.int (.ofInt (a.toInt - b.toInt * a.toInt.tdiv b.toInt))))
  /-- The divisor of a quotient or a remainder is zero. -/
  | zero {op : Op} {a : Int32} (hop : op = .div ∨ op = .rem) :
      Yields op.name (.int a) (.int 0) (.error (.divisionByZero op))
  | equal {l r : Value} : Yields "Eq" l r (.ok (.bool (l = r)))
  | different {l r : Value} : Yields "Neq" l r (.ok (.bool (l ≠ r)))
  | less {a b : Int32} : Yields "Lt" (.int a) (.int b) (.ok (.bool (a.toInt < b.toInt)))
  | greater {a b : Int32} : Yields "Gt" (.int a) (.int b) (.ok (.bool (a.toInt > b.toInt)))
  | atMost {a b : Int32} : Yields "Lte" (.int a) (.int b) (.ok (.bool (a.toInt ≤ b.toInt)))
  | atLeast {a b : Int32} : Yields "Gte" (.int a) (.int b) (.ok (.bool (a.toInt ≥ b.toInt)))
  | both {a b : Bool} : Yields "And" (.bool a) (.bool b) (.ok (.bool (a && b)))
  | either {a b : Bool} : Yields "Or" (.bool a) (.bool b) (.ok (.bool (a || b)))
  /-- The operands are not both of the type that the operator needs. -/
  | mismatch {op : Op} {needed : ValueType} {l r : Value} (hneeded : op.needed? = some needed)
      (htypes : ¬(l.type = needed ∧ r.type = needed)) :
      Yields op.name l r (.error (.type (.operands op needed l.type r.type)))

namespace Op

variable {op : Op} {l r : Value}

theorem ofName?_name (op : Op) : ofName? op.name = some op := by
  cases op <;> rfl

theorem applyNamed_name (op : Op) (l r : Value) : applyNamed op.name l r = op.apply l r := by
  rw [applyNamed, ofName?_name]

theorem ofName?_eq_none_iff {name : String} : ofName? name = none ↔ name ∉ names := by
  constructor
  · exact notMem_of_ofName?
  · intro h
    refine List.find?_eq_none.mpr fun op hop hname => h ?_
    rw [← of_decide_eq_true hname]
    exact List.mem_map_of_mem hop

/-! ## Operands of one type -/

theorem onInts_of_ne {f : Int32 → Int32 → Value} (h : ¬(l.type = .int ∧ r.type = .int)) :
    op.onInts f l r = .error (op.mismatch .int l r) := by
  cases l with
  | int a =>
    cases r with
    | int b => exact absurd ⟨rfl, rfl⟩ h
    | _ => rfl
  | _ => rfl

theorem onDivisor_of_ne {f : Int32 → Int32 → Int32} (h : ¬(l.type = .int ∧ r.type = .int)) :
    op.onDivisor f l r = .error (op.mismatch .int l r) := by
  cases l with
  | int a =>
    cases r with
    | int b => exact absurd ⟨rfl, rfl⟩ h
    | _ => rfl
  | _ => rfl

theorem onBools_of_ne {f : Bool → Bool → Bool} (h : ¬(l.type = .bool ∧ r.type = .bool)) :
    op.onBools f l r = .error (op.mismatch .bool l r) := by
  cases l with
  | bool a =>
    cases r with
    | bool b => exact absurd ⟨rfl, rfl⟩ h
    | _ => rfl
  | _ => rfl

/-- An operator that needs operands of one type fails on others. -/
theorem apply_of_ne {needed : ValueType} (hneeded : op.needed? = some needed)
    (h : ¬(l.type = needed ∧ r.type = needed)) :
    op.apply l r = .error (op.mismatch needed l r) := by
  cases op with
  | add | eq | neq => cases hneeded
  | div | rem =>
    cases hneeded
    exact onDivisor_of_ne h
  | and | or =>
    cases hneeded
    exact onBools_of_ne h
  | _ =>
    cases hneeded
    exact onInts_of_ne h

/-- A row for two integers and the row for all other operands. -/
theorem yields_onInts {f : Int32 → Int32 → Value} (hneeded : op.needed? = some .int)
    (hints : ∀ a b, Yields op.name (.int a) (.int b) (.ok (f a b))) :
    Yields op.name l r (op.onInts f l r) := by
  by_cases h : l.type = .int ∧ r.type = .int
  · obtain ⟨a, rfl⟩ := Value.eq_int_of_type h.1
    obtain ⟨b, rfl⟩ := Value.eq_int_of_type h.2
    exact hints a b
  · rw [onInts_of_ne h]
    exact .mismatch hneeded h

theorem yields_onDivisor {f : Int32 → Int32 → Int32} (hop : op = .div ∨ op = .rem)
    (hints : ∀ a b, b ≠ 0 → Yields op.name (.int a) (.int b) (.ok (.int (f a b)))) :
    Yields op.name l r (op.onDivisor f l r) := by
  have hneeded : op.needed? = some .int := by
    rcases hop with rfl | rfl <;> rfl
  by_cases h : l.type = .int ∧ r.type = .int
  · obtain ⟨a, rfl⟩ := Value.eq_int_of_type h.1
    obtain ⟨b, rfl⟩ := Value.eq_int_of_type h.2
    by_cases hb : b = 0
    · subst hb
      exact .zero hop
    · rw [onDivisor, if_neg hb]
      exact hints a b hb
  · rw [onDivisor_of_ne h]
    exact .mismatch hneeded h

theorem yields_onBools {f : Bool → Bool → Bool} (hneeded : op.needed? = some .bool)
    (hbools : ∀ a b, Yields op.name (.bool a) (.bool b) (.ok (.bool (f a b)))) :
    Yields op.name l r (op.onBools f l r) := by
  by_cases h : l.type = .bool ∧ r.type = .bool
  · obtain ⟨a, rfl⟩ := Value.eq_bool_of_type h.1
    obtain ⟨b, rfl⟩ := Value.eq_bool_of_type h.2
    exact hbools a b
  · rw [onBools_of_ne h]
    exact .mismatch hneeded h

/-! ## Sums -/

theorem addValues_of_ints {a b : Int32} :
    addValues (.int a) (.int b) = .ok (.int (.ofInt (a.toInt + b.toInt))) := by
  rw [ofInt_toInt_add, addValues]

/-- With a text, the texts of both operands are put together. -/
theorem addValues_of_str (h : l.type = .str ∨ r.type = .str) :
    addValues l r = .ok (.str (l.render ++ r.render)) := by
  cases l with
  | str a => rfl
  | _ =>
    cases r with
    | str b => rfl
    | _ => rcases h with h | h <;> cases h

theorem addValues_of_ne (hints : ¬(l.type = .int ∧ r.type = .int))
    (htext : ¬(l.type = .str ∨ r.type = .str)) : addValues l r = .error (.type .sum) := by
  cases l with
  | str a => exact absurd (.inl rfl) htext
  | int a =>
    cases r with
    | str b => exact absurd (.inr rfl) htext
    | int b => exact absurd ⟨rfl, rfl⟩ hints
    | _ => rfl
  | _ =>
    cases r with
    | str b => exact absurd (.inr rfl) htext
    | _ => rfl

theorem yields_addValues : Yields "Add" l r (addValues l r) := by
  by_cases hints : l.type = .int ∧ r.type = .int
  · obtain ⟨a, rfl⟩ := Value.eq_int_of_type hints.1
    obtain ⟨b, rfl⟩ := Value.eq_int_of_type hints.2
    rw [addValues_of_ints]
    exact .sum
  · by_cases htext : l.type = .str ∨ r.type = .str
    · rw [addValues_of_str htext]
      exact .text htext
    · rw [addValues_of_ne hints htext]
      exact .noSum hints htext

/-! ## The table tells what operators do -/

/-- The table has a row for all names and operands, with the result of the operator. -/
theorem yields_applyNamed (name : String) (l r : Value) :
    Yields name l r (applyNamed name l r) := by
  -- The rows speak of exact integers, the operators of reduced ones.
  cases hname : ofName? name with
  | none =>
    rw [applyNamed, hname]
    exact .unknown (ofName?_eq_none_iff.mp hname)
  | some op =>
    obtain rfl : op.name = name := ofName?_eq_some hname
    rw [applyNamed_name]
    cases op with
    | add => exact yields_addValues
    | sub =>
      refine yields_onInts rfl fun a b => ?_
      rw [← ofInt_toInt_sub]
      exact .difference
    | mul =>
      refine yields_onInts rfl fun a b => ?_
      rw [← ofInt_toInt_mul]
      exact .product
    | div =>
      refine yields_onDivisor (.inl rfl) fun a b hb => ?_
      rw [← ofInt_tdiv]
      exact .quotient hb
    | rem =>
      refine yields_onDivisor (.inr rfl) fun a b hb => ?_
      rw [← ofInt_rem]
      exact .remainder hb
    | eq => exact .equal
    | neq => exact .different
    | lt =>
      refine yields_onInts rfl fun a b => ?_
      rw [← decide_toInt_lt]
      exact .less
    | gt =>
      refine yields_onInts rfl fun a b => ?_
      rw [← decide_toInt_lt]
      exact .greater
    | lte =>
      refine yields_onInts rfl fun a b => ?_
      rw [← decide_toInt_le]
      exact .atMost
    | gte =>
      refine yields_onInts rfl fun a b => ?_
      rw [← decide_toInt_le]
      exact .atLeast
    | and => exact yields_onBools rfl fun a b => .both
    | or => exact yields_onBools rfl fun a b => .either

/-- A row of the table tells the result of the operator. -/
theorem Yields.applyNamed_eq {name : String} {x : Except EvalError Value}
    (h : Yields name l r x) : applyNamed name l r = x := by
  cases h with
  | unknown hname => rw [applyNamed, ofName?_eq_none_iff.mpr hname]
  | sum => exact addValues_of_ints
  | text htext => exact addValues_of_str htext
  | noSum hints htext => exact addValues_of_ne hints htext
  | difference => exact congrArg (fun c => Except.ok (Value.int c)) (ofInt_toInt_sub ..).symm
  | product => exact congrArg (fun c => Except.ok (Value.int c)) (ofInt_toInt_mul ..).symm
  | @quotient a b hb =>
    rw [ofInt_tdiv]
    exact if_neg hb
  | @remainder a b hb =>
    rw [ofInt_rem]
    exact if_neg hb
  | less | greater => exact congrArg (fun c => Except.ok (Value.bool c)) (decide_toInt_lt ..).symm
  | atMost | atLeast => exact congrArg (fun c => Except.ok (Value.bool c)) (decide_toInt_le ..).symm
  | zero hop => rcases hop with rfl | rfl <;> rfl
  | mismatch hneeded htypes => rw [applyNamed_name, apply_of_ne hneeded htypes]; rfl
  | _ => rfl

end Op

/-! ## Operators in expressions -/

/-- Once both operands have values, the left one first, an operator is applied to them. -/
theorem Expr.evaluate?_binary {limit : Option Nat} {name : String} {lhs rhs : Expr} {s t u : State}
    {l r : Value}
    (hlhs : lhs.evaluate? limit (s.started (.binary name lhs rhs)) = some (.ok l, t))
    (hrhs : rhs.evaluate? limit t = some (.ok r, u)) :
    (Expr.binary name lhs rhs).evaluate? limit s = some (Op.applyNamed name l r, u) := by
  rw [Expr.evaluate?_apply]
  exact (bind_of_ok hlhs).trans (bind_of_ok hrhs)

/-- The quotient and the remainder of a division by a divisor that is not zero. -/
structure Op.Divides (a b q m : Int32) : Prop where
  /-- The operators yield them. -/
  div : Op.applyNamed "Div" (.int a) (.int b) = .ok (.int q)
  rem : Op.applyNamed "Rem" (.int a) (.int b) = .ok (.int m)
  /-- The remainder has the sign of the dividend. -/
  sign : m = 0 ∨ m.toInt.sign = a.toInt.sign
  /-- The remainder is smaller than the divisor. -/
  small : |m.toInt| < |b.toInt|
  /-- They give back the dividend. -/
  restore : ∃ p, Op.applyNamed "Mul" (.int q) (.int b) = .ok (.int p) ∧
    Op.applyNamed "Add" (.int p) (.int m) = .ok (.int a)
  /-- The quotient is exact but for one case, and so is always the remainder. -/
  exact_div : q.toInt = a.toInt.tdiv b.toInt ↔ ¬(a = Int32.minValue ∧ b = -1)
  exact_rem : m.toInt = a.toInt - b.toInt * a.toInt.tdiv b.toInt
  /-- The one case. -/
  wraps : a = Int32.minValue → b = -1 → q = Int32.minValue ∧ m = 0

theorem Op.divides (a : Int32) {b : Int32} (hb : b ≠ 0) : Op.Divides a b (a / b) (a % b) where
  div := if_neg hb
  rem := if_neg hb
  sign := sign_rem a b
  small := abs_rem_lt a b hb
  restore := ⟨a / b * b, rfl, congrArg (fun c => Except.ok (Value.int c)) (div_mul_add_rem a b)⟩
  exact_div := toInt_div_eq_iff a b
  exact_rem := toInt_rem a b
  wraps := by
    rintro rfl rfl
    decide

/-- Operators do what the table says, for all names and all operands, and nothing else. They are
applied to the values of the operands, of which the left one is evaluated first. In the table, an
integer is reduced to the only one of 32 bits that is congruent to it. Quotient and remainder belong
together: a division fails exactly if the divisor is zero, else the remainder has the sign of the
dividend and is smaller than the divisor, both give back the dividend, and only one quotient is
reduced. If the types of the operands are wrong, the error names the operator and both types. -/
theorem Op.applyNamed_iff_yields (name : String) (l r : Value) :
    (∀ x, Op.applyNamed name l r = x ↔ Op.Yields name l r x) ∧
    (∀ limit lhs rhs s t u,
      Expr.evaluate? limit lhs (s.started (.binary name lhs rhs)) = some (.ok l, t) →
      Expr.evaluate? limit rhs t = some (.ok r, u) →
      (Expr.binary name lhs rhs).evaluate? limit s = some (Op.applyNamed name l r, u)) ∧
    (∀ n c, Int32.ofInt n = c ↔ c.toInt ≡ n [ZMOD 2 ^ 32]) ∧
    (∀ op : Op, op = .div ∨ op = .rem → ∀ a b,
      Op.applyNamed op.name (.int a) (.int b) = .error (.divisionByZero op) ↔ b = 0) ∧
    (∀ a b, b ≠ 0 → ∃ q m, Op.Divides a b q m) ∧
    ∀ (op : Op) needed, op.needed? = some needed → ¬(l.type = needed ∧ r.type = needed) →
      ∃ cause, Op.applyNamed op.name l r = .error cause ∧
        cause.message = "Type error: " ++ (op.name ++ " requires " ++ needed.name ++
          " operands, found " ++ l.type.name ++ " and " ++ r.type.name) := by
  refine ⟨fun x => ⟨?_, Op.Yields.applyNamed_eq⟩, fun limit lhs rhs s t u => Expr.evaluate?_binary,
    fun n c => ofInt_eq_iff_modEq, fun op hop a b => ⟨?_, ?_⟩,
    fun a b hb => ⟨_, _, Op.divides a hb⟩, fun op needed hneeded htypes => ?_⟩
  · rintro rfl
    exact Op.yields_applyNamed name l r
  · intro h
    by_contra hb
    rcases hop with rfl | rfl
    · cases (Op.divides a hb).div.symm.trans h
    · cases (Op.divides a hb).rem.symm.trans h
  · rintro rfl
    exact Op.Yields.applyNamed_eq (.zero hop)
  · exact ⟨_, Op.Yields.applyNamed_eq (.mismatch hneeded htypes), rfl⟩

/-- A difference of a text and a truth value, and divisions by zero and of a negative number. -/
theorem Op.applyNamed_iff_yields_mixed :
    let e : Expr := .binary "Sub" (.str "a") (.bool true)
    let s : State := ⟨Env.empty, 0, Sink.unlimited, Log.off⟩
    let cause : EvalError := .type (.operands .sub .int .str .bool)
    e.evaluate? none s = some (.error cause, s) ∧
    cause.message = "Type error: Sub requires Int operands, found Str and Bool" ∧
    Op.Yields "Sub" (.str "a") (.bool true) (.error cause) ∧
    Op.applyNamed "Rem" (.int (-7)) (.int 0) = .error (.divisionByZero .rem) ∧
    ∃ q m, Op.Divides (-7) 2 q m ∧ m.toInt.sign = -1 := by
  intro e s cause
  have hlhs : (Expr.str "a").evaluate? none (s.started e) = some (.ok (.str "a"), s) :=
    Expr.evaluate?_of_within 1 rfl
  have hrhs : (Expr.bool true).evaluate? none s = some (.ok (.bool true), s) :=
    Expr.evaluate?_of_within 1 rfl
  obtain ⟨htable, hexpr, -, hzero, hdivides, hmessage⟩ :=
    Op.applyNamed_iff_yields "Sub" (.str "a") (.bool true)
  obtain ⟨_, hcause, hwords⟩ := hmessage .sub .int rfl (by decide)
  cases (show Op.applyNamed "Sub" (.str "a") (.bool true) = .error cause from rfl).symm.trans hcause
  refine ⟨(hexpr none _ _ s s s hlhs hrhs).trans rfl, hwords, (htable _).mp rfl,
    (hzero .rem (.inr rfl) (-7) 0).mpr rfl, ?_⟩
  obtain ⟨q, m, h⟩ := hdivides (-7) 2 (by decide)
  refine ⟨q, m, h, ?_⟩
  rw [h.exact_rem]
  decide

end TreeLang
