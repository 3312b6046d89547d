import Mathlib.Tactic.IntervalCases
import TreeLang.Proofs.Encoding
import TreeLang.Proofs.Quotation

/-!
# Literals and their texts

A literal may be written in several ways, but its value has one text, and this text is again a way
to write the literal. So reading, evaluating, printing and reading again gives the literal back. The
text of an integer is its canonical numeral, which different integers do not share.
-/

namespace TreeLang

namespace Numeral

/-- A numeral as it is printed: no plus sign, no zero in front of other digits, and a minus sign
only if the integer is negative. -/
structure Canonical (text : List Char) (n : Int) : Prop where
  spells : Spells text n
  noPlus : '+' ∉ text
  noLeadingZero : ∀ rest, text = '0' :: rest ∨ text = '-' :: '0' :: rest → text = ['0']
  minus : '-' ∈ text → n < 0

theorem allDigits_toDigits (k : Nat) : AllDigits (Nat.toDigits 10 k) :=
  ⟨Nat.toDigits_ne_nil, fun _ hc => Nat.isDigit_of_mem_toDigits (by decide) (by decide) hc⟩

theorem notMem_toDigits {c : Char} (hc : c.isDigit = false) (k : Nat) :
    c ∉ Nat.toDigits 10 k := by
  intro hmem
  have hdigit := (allDigits_toDigits k).2 c hmem
  rw [hc] at hdigit
  cases hdigit

/-- Only zero is written with a zero in front. -/
theorem eq_zero_of_toDigits {k : Nat} {rest : List Char} (h : Nat.toDigits 10 k = '0' :: rest) :
    k = 0 := by
  induction k using Nat.strong_induction_on generalizing rest with
  | _ k ih =>
    by_cases hk : k < 10
    · rw [Nat.toDigits_of_lt_base hk] at h
      have hdigit : k.digitChar = '0' := (List.cons.inj h).1
      interval_cases k <;> first | rfl | exact absurd hdigit (by decide)
    · -- The digits of a tenth are in front, and a tenth is not zero.
      rw [Nat.toDigits_of_base_le (by decide) (by omega)] at h
      cases htenth : Nat.toDigits 10 (k / 10) with
      | nil => exact absurd htenth Nat.toDigits_ne_nil
      | cons c digits =>
        rw [htenth, List.cons_append] at h
        obtain ⟨rfl, -⟩ := List.cons.inj h
        have hzero : k / 10 = 0 := ih (k / 10) (by omega) htenth
        omega

theorem ofInt_of_neg {n : Int} (h : n < 0) : ofInt n = '-' :: Nat.toDigits 10 n.natAbs := if_pos h

theorem ofInt_of_nonneg {n : Int} (h : ¬ n < 0) : ofInt n = Nat.toDigits 10 n.natAbs := if_neg h

theorem spells_ofInt (n : Int) : Spells (ofInt n) n := by
  have hdigits := allDigits_toDigits n.natAbs
  by_cases hn : n < 0
  · have hspells := Spells.minus hdigits
    have heq : -(n.natAbs : Int) = n := by omega
    rw [Nat.ofDigitChars_ten_toDigits, heq] at hspells
    rw [ofInt_of_neg hn]
    exact hspells
  · have hspells := Spells.unsigned hdigits
    have heq : (n.natAbs : Int) = n := by omega
    rw [Nat.ofDigitChars_ten_toDigits, heq] at hspells
    rw [ofInt_of_nonneg hn]
    exact hspells

theorem canonical_ofInt (n : Int) : Canonical (ofInt n) n where
  spells := spells_ofInt n
  noPlus := by
    have hplus : '+' ∉ Nat.toDigits 10 n.natAbs := notMem_toDigits (by decide) _
    by_cases hn : n < 0
    · rw [ofInt_of_neg hn]
      simp [hplus]
    · rw [ofInt_of_nonneg hn]
      exact hplus
  noLeadingZero := by
    intro rest h
    by_cases hn : n < 0
    · rw [ofInt_of_neg hn] at h
      have hdigits : Nat.toDigits 10 n.natAbs = '0' :: rest := by simpa using h
      have hzero := eq_zero_of_toDigits hdigits
      omega
    · rw [ofInt_of_nonneg hn] at h ⊢
      have hminus : '-' ∉ Nat.toDigits 10 n.natAbs := notMem_toDigits (by decide) _
      rcases h with h | h
      · rw [eq_zero_of_toDigits h, Nat.toDigits_zero]
      · rw [h] at hminus
        exact absurd List.mem_cons_self hminus
  minus := by
    intro h
    by_contra hn
    rw [ofInt_of_nonneg hn] at h
    exact notMem_toDigits (by decide) _ h

theorem ofInt_injective {n m : Int} (h : ofInt n = ofInt m) : n = m := by
  have hspells := spells_ofInt m
  rw [← h] at hspells
  exact (spells_ofInt n).unique hspells

end Numeral

theorem Value.toList_renderInt (n : Int32) : (Value.renderInt n).toList = Numeral.ofInt n.toInt :=
  String.toList_ofList

theorem Value.renderInt_injective {n m : Int32} (h : Value.renderInt n = Value.renderInt m) :
    n = m := by
  have htext : Numeral.ofInt n.toInt = Numeral.ofInt m.toInt := by
    rw [← Value.toList_renderInt, ← Value.toList_renderInt, h]
  exact Int32.toInt_inj.mp (Numeral.ofInt_injective htext)

/-! ## Nodes of literals -/

/-- A node of this kind with this value, whatever its other members are. -/
structure Tree.IsLiteral (tree : Tree) (kind : Kind) (value : Tree) : Prop where
  kind : tree.textField? "kind" = some kind.name
  value : tree.field? "value" = some value

/-- A node of the kind of integers whose value is this number, as such or spelled in a string. -/
inductive Tree.IsInteger (tree : Tree) (n : Int) : Prop where
  | number (h : tree.IsLiteral .int (.int n))
  | numeral {text : String} (h : tree.IsLiteral .int (.str text))
      (hspells : Numeral.Spells text.toList n)

theorem Denotes.denotesAs {tree : Tree} {e : Expr} {kind : Kind} (h : Denotes tree e)
    (hkind : tree.textField? "kind" = some kind.name) : DenotesAs kind tree e := by
  obtain ⟨hkind', hform⟩ := h
  have hname := Option.some.inj (hkind.symm.trans hkind')
  have hsome := Kind.ofName?_eq_some.mpr hname
  rw [Kind.ofName?_name] at hsome
  cases hsome
  exact hform

/-- An integer is built if it has 32 bits, and then to this integer. -/
theorem Tree.IsInteger.denotes_iff {n : Int} {tree : Tree} {e : Expr} (h : tree.IsInteger n) :
    Denotes tree e ↔ ∃ m : Int32, m.toInt = n ∧ e = .int m := by
  constructor
  · intro hdenotes
    cases h with
    | number h =>
      cases hdenotes.denotesAs h.kind with
      | number hvalue hmin hmax =>
        cases h.value.symm.trans hvalue
        exact ⟨_, Int32.toInt_ofInt_of_le (by omega) (by omega), rfl⟩
      | numeral hvalue => cases h.value.symm.trans hvalue
    | numeral h hspells =>
      cases hdenotes.denotesAs h.kind with
      | number hvalue => cases h.value.symm.trans hvalue
      | numeral hvalue hspells' hmin hmax =>
        cases h.value.symm.trans hvalue
        have hn := hspells.unique hspells'
        subst hn
        exact ⟨_, Int32.toInt_ofInt_of_le (by omega) (by omega), rfl⟩
  · rintro ⟨m, rfl, rfl⟩
    have hmin := m.le_toInt
    have hmax := m.toInt_lt
    rw [← Int32.ofInt_toInt m]
    cases h with
    | number h => exact .node h.kind (.number h.value (by omega) (by omega))
    | numeral h hspells => exact .node h.kind (.numeral h.value hspells (by omega) (by omega))

theorem Denotes.exists_isInteger {tree : Tree} {e : Expr} (h : Denotes tree e)
    (hkind : tree.textField? "kind" = some Kind.int.name) :
    ∃ n : Int32, e = .int n ∧ tree.IsInteger n.toInt := by
  cases h.denotesAs hkind with
  | @number _ n hvalue hmin hmax =>
    have hn : (Int32.ofInt n).toInt = n := Int32.toInt_ofInt_of_le (by omega) (by omega)
    refine ⟨_, rfl, ?_⟩
    rw [hn]
    exact .number ⟨hkind, hvalue⟩
  | @numeral _ text n hvalue hspells hmin hmax =>
    have hn : (Int32.ofInt n).toInt = n := Int32.toInt_ofInt_of_le (by omega) (by omega)
    refine ⟨_, rfl, ?_⟩
    rw [hn]
    exact .numeral ⟨hkind, hvalue⟩ hspells

/-! ## Writing a literal again -/

theorem Value.canonical_render (n : Int32) :
    Numeral.Canonical (Value.int n).render.toList n.toInt := by
  rw [Value.render, Value.toList_renderInt]
  exact Numeral.canonical_ofInt n.toInt

/-- A literal says a value, and a node of its kind with the text of this value denotes it, too. -/
theorem DenotesAs.exists_quote {kind : Kind} {tree : Tree} {e : Expr} (h : DenotesAs kind tree e)
    (hkind : kind = .str ∨ kind = .int ∨ kind = .bool) :
    ∃ v : Value, e = v.quote ∧
      ∀ node : Tree, node.IsLiteral kind (.str v.render) → Denotes node e := by
  rcases hkind with rfl | rfl | rfl
  · cases h with
    | @str _ text _ =>
      exact ⟨.str text, rfl, fun node hnode => .node hnode.kind (.str hnode.value)⟩
  · obtain ⟨n, rfl⟩ : ∃ n, e = .int n := by
      cases h with
      | number | numeral => exact ⟨_, rfl⟩
    refine ⟨.int n, rfl, fun node hnode => ?_⟩
    have hinteger : node.IsInteger n.toInt := .numeral hnode (Value.canonical_render n).spells
    exact hinteger.denotes_iff.mpr ⟨n, rfl, rfl⟩
  · obtain ⟨b, rfl⟩ : ∃ b, e = .bool b := by
      cases h with
      | bool | true | false => exact ⟨_, rfl⟩
    refine ⟨.bool b, rfl, fun node hnode => ?_⟩
    cases b with
    | true => exact .node hnode.kind (.true hnode.value)
    | false => exact .node hnode.kind (.false hnode.value)

theorem Evaluator.Gives.unique {ev : Evaluator} {env : Env} {e : Expr} {v w : Value}
    (h : ev.Gives env e v) (h' : ev.Gives env e w) : v = w := by
  obtain ⟨log, h⟩ := h
  obtain ⟨log', h'⟩ := h'
  cases h.symm.trans h'
  rfl

/-- The tree is built, and somewhere the expression has this value. -/
def Tree.HasValue (tree : Tree) (v : Value) : Prop :=
  ∃ (e : Expr) (log : Log) (ev : Evaluator) (env : Env),
    Build.answer (Expr.ofTree tree) log = .ok e ∧ ev.Gives env e v

theorem Tree.IsInteger.eq_of_hasValue {tree : Tree} {n : Int} {v : Value} (h : tree.IsInteger n)
    (hv : tree.HasValue v) : ∃ m : Int32, m.toInt = n ∧ v = .int m := by
  obtain ⟨e, log, ev, env, hbuilt, hgives⟩ := hv
  have hdenotes : Denotes tree e := (Expr.accepts_ofTree tree log e).mp hbuilt
  obtain ⟨m, hm, rfl⟩ := h.denotes_iff.mp hdenotes
  exact ⟨m, hm, hgives.unique ((Value.int m).quote_gives ev env)⟩

/-- Every literal survives being built, evaluated, printed and built again. A node of the kind of
texts, integers or truth values that is built has a value, in every environment and under every
limit, and each node of this kind with the text of this value is built to the same expression. If it
is an integer, the text is its canonical numeral. So each integer of 32 bits is built from its text
as well as from the number, and nodes of different integers have values with different texts. -/
theorem Expr.ofTree_literal :
    (∀ (kind : Kind) (tree : Tree) (e : Expr) (log : Log),
      kind = .str ∨ kind = .int ∨ kind = .bool → tree.textField? "kind" = some kind.name →
      Build.answer (Expr.ofTree tree) log = .ok e →
      ∃ v : Value, (∀ (ev : Evaluator) (env : Env), ev.Gives env e v) ∧
        (∀ (node : Tree) (log' : Log), node.IsLiteral kind (.str v.render) →
          Build.answer (Expr.ofTree node) log' = .ok e) ∧
        (kind = .int → ∃ n : Int32, v = .int n ∧ tree.IsInteger n.toInt ∧
          Numeral.Canonical v.render.toList n.toInt)) ∧
    (∀ (n : Int32) (node : Tree) (log : Log),
      node.IsLiteral .int (.str (Value.int n).render) ∨ node.IsLiteral .int (.int n.toInt) →
      Build.answer (Expr.ofTree node) log = .ok (.int n)) ∧
    (∀ (first second : Tree) (n m : Int) (v w : Value), first.IsInteger n → second.IsInteger m →
      n ≠ m → first.HasValue v → second.HasValue w → v.render ≠ w.render) := by
  refine ⟨?_, ?_, ?_⟩
  · intro kind tree e log hkind htext hbuilt
    have hdenotes : Denotes tree e := (Expr.accepts_ofTree tree log e).mp hbuilt
    obtain ⟨v, rfl, hagain⟩ := (hdenotes.denotesAs htext).exists_quote hkind
    refine ⟨v, fun ev env => ?_, fun node log' hnode => ?_, ?_⟩
    · exact v.quote_gives ev env
    · exact (Expr.accepts_ofTree node log' v.quote).mpr (hagain node hnode)
    · rintro rfl
      obtain ⟨n, hn, hinteger⟩ := hdenotes.exists_isInteger htext
      cases v with
      | int m =>
        obtain rfl := Expr.int.inj hn
        exact ⟨m, rfl, hinteger, Value.canonical_render m⟩
      | _ => cases hn
  · intro n node log hnode
    have hinteger : node.IsInteger n.toInt := by
      rcases hnode with htext | hnumber
      · exact .numeral htext (Value.canonical_render n).spells
      · exact .number hnumber
    exact (Expr.accepts_ofTree node log (.int n)).mpr (hinteger.denotes_iff.mpr ⟨n, rfl, rfl⟩)
  · intro first second n m v w hfirst hsecond hne hv hw htext
    obtain ⟨a, rfl, rfl⟩ := hfirst.eq_of_hasValue hv
    obtain ⟨b, rfl, rfl⟩ := hsecond.eq_of_hasValue hw
    rw [Value.renderInt_injective htext] at hne
    exact hne rfl

/-- An integer that is spelled with zeros in front is printed without them, and not like the integer
without the sign. -/
theorem Expr.ofTree_literal_zeros :
    let spelled := Tree.node .int [("value", .str "-0042")]
    let again := Tree.node .int [("value", .str "-42")]
    let unsigned := Tree.node .int [("value", .int 42)]
    let ev := Evaluator.new (some 0) (Sink.limited (some 0) false) Log.off
    Build.answer (Expr.ofTree spelled) Log.off = .ok (.int (-42)) ∧
    ev.Gives Env.empty (.int (-42)) (.int (-42)) ∧
    Numeral.Canonical (Value.int (-42)).render.toList (-42) ∧
    Build.answer (Expr.ofTree again) Log.off = .ok (.int (-42)) ∧
    Build.answer (Expr.ofTree unsigned) Log.off = .ok (.int 42) ∧
    ev.Gives Env.empty (.int 42) (.int 42) ∧
    (Value.int (-42)).render ≠ (Value.int 42).render := by
  intro spelled again unsigned ev
  obtain ⟨hliteral, hinteger, hdifferent⟩ := Expr.ofTree_literal
  have hread : Numeral.readInt32 "-0042" = .ok (-42) := by decide
  have hkind : spelled.textField? "kind" = some Kind.int.name :=
    Tree.textField?_of_field? (Tree.field?_ofFields ..)
  have hspelled : spelled.IsInteger (-42) :=
    .numeral ⟨hkind, Tree.field?_ofFields ..⟩ (Numeral.readInt32_eq_ok.mp hread)
  have hunsigned : unsigned.IsLiteral .int (.int 42) :=
    ⟨Tree.textField?_of_field? (Tree.field?_ofFields ..), Tree.field?_ofFields ..⟩
  have hbuilt : Build.answer (Expr.ofTree spelled) Log.off = .ok (.int (-42)) :=
    (Expr.accepts_ofTree spelled Log.off _).mpr (hspelled.denotes_iff.mpr ⟨-42, rfl, rfl⟩)
  obtain ⟨v, hgives, hagain, hcanonical⟩ :=
    hliteral .int spelled (.int (-42)) Log.off (.inr (.inl rfl)) hkind hbuilt
  obtain rfl : v = .int (-42) :=
    (hgives ev Env.empty).unique ((Value.int (-42)).quote_gives ev Env.empty)
  obtain ⟨n, hn, -, htext⟩ := hcanonical rfl
  obtain rfl : -42 = n := Value.int.inj hn
  have hvalue : (Value.int (-42)).render = "-42" := by decide
  have hbuilt' : Build.answer (Expr.ofTree unsigned) Log.off = .ok (.int 42) :=
    hinteger 42 unsigned Log.off (.inr hunsigned)
  have hgives' : ev.Gives Env.empty (.int 42) (.int 42) := (Value.int 42).quote_gives ev Env.empty
  refine ⟨hbuilt, hgives ev Env.empty, htext, hagain again Log.off ?_, hbuilt', hgives', ?_⟩
  · rw [hvalue]
    exact ⟨Tree.textField?_of_field? (Tree.field?_ofFields ..), Tree.field?_ofFields ..⟩
  · exact hdifferent spelled unsigned (-42) 42 _ _ hspelled (.number hunsigned) (by decide)
      ⟨_, Log.off, ev, Env.empty, hbuilt, hgives ev Env.empty⟩
      ⟨_, Log.off, ev, Env.empty, hbuilt', hgives'⟩

end TreeLang
