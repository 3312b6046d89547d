import TreeLang.Expr.OfTree
import TreeLang.Proofs.Spelling

/-!
# What trees denote

The grammar of trees, without any order of reading and without errors: `Denotes tree e` says that a
tree is a node of an expression. A node is an object whose `kind` is the name of a kind, and the
kind tells which members are read; nothing is said of any other member. Building succeeds exactly on
the trees that denote an expression, and then with this expression.
-/

namespace TreeLang

mutual

/-- The tree is a node of the expression. -/
inductive Denotes : Tree → Expr → Prop where
  /-- A node has the name of its kind. -/
  | node {kind : Kind} {tree : Tree} {e : Expr} (hkind : tree.textField? "kind" = some kind.name)
      (hform : DenotesAs kind tree e) : Denotes tree e

/-- The members of a tree are those of a node of this kind, for this expression. -/
inductive DenotesAs : Kind → Tree → Expr → Prop where
  | str {tree : Tree} {text : String} (hvalue : tree.field? "value" = some (.str text)) :
      DenotesAs .str tree (.str text)
  /-- An integer of 32 bits as a number. -/
  | number {tree : Tree} {n : Int} (hvalue : tree.field? "value" = some (.int n))
      (hmin : -2147483648 ≤ n) (hmax : n ≤ 2147483647) :
      DenotesAs .int tree (.int (Int32.ofInt n))
  /-- An integer of 32 bits that is spelled in a string. -/
  | numeral {tree : Tree} {text : String} {n : Int}
      (hvalue : tree.field? "value" = some (.str text)) (hspells : Numeral.Spells text.toList n)
      (hmin : -2147483648 ≤ n) (hmax : n ≤ 2147483647) :
      DenotesAs .int tree (.int (Int32.ofInt n))
  | bool {tree : Tree} {value : Bool} (hvalue : tree.field? "value" = some (.bool value)) :
      DenotesAs .bool tree (.bool value)
  /-- The string that names truth. -/
  | true {tree : Tree} (hvalue : tree.field? "value" = some (.str "true")) :
      DenotesAs .bool tree (.bool true)
  /-- The string that names falsehood. -/
  | false {tree : Tree} (hvalue : tree.field? "value" = some (.str "false")) :
      DenotesAs .bool tree (.bool false)
  | tuple {tree a b : Tree} {first second : Expr} (hfirst : tree.field? "first" = some a)
      (hsecond : tree.field? "second" = some b) (ha : Denotes a first) (hb : Denotes b second) :
      DenotesAs .tuple tree (.tuple first second)
  | first {tree a : Tree} {source : Expr} (hvalue : tree.field? "value" = some a)
      (ha : Denotes a source) : DenotesAs .first tree (.projection .first source)
  | second {tree a : Tree} {source : Expr} (hvalue : tree.field? "value" = some a)
      (ha : Denotes a source) : DenotesAs .second tree (.projection .second source)
  /-- An operator, which may have any name. -/
  | binary {tree a b : Tree} {op : String} {lhs rhs : Expr} (hlhs : tree.field? "lhs" = some a)
      (hop : tree.textField? "op" = some op) (hrhs : tree.field? "rhs" = some b)
      (ha : Denotes a lhs) (hb : Denotes b rhs) : DenotesAs .binary tree (.binary op lhs rhs)
  /-- A binding, whose name is a member of a member. -/
  | letIn {tree named a b : Tree} {name : String} {value next : Expr}
      (hnamed : tree.field? "name" = some named) (hname : named.textField? "text" = some name)
      (hvalue : tree.field? "value" = some a) (hnext : tree.field? "next" = some b)
      (ha : Denotes a value) (hb : Denotes b next) : DenotesAs .letIn tree (.letIn name value next)
  | var {tree : Tree} {name : String} (htext : tree.textField? "text" = some name) :
      DenotesAs .var tree (.var name)
  | print {tree a : Tree} {inner : Expr} (hvalue : tree.field? "value" = some a)
      (ha : Denotes a inner) : DenotesAs .print tree (.print inner)
  | cond {tree a b c : Tree} {condition consequent alternative : Expr}
      (hcondition : tree.field? "condition" = some a) (hthen : tree.field? "then" = some b)
      (hotherwise : tree.field? "otherwise" = some c) (ha : Denotes a condition)
      (hb : Denotes b consequent) (hc : Denotes c alternative) :
      DenotesAs .cond tree (.cond condition consequent alternative)
  /-- A function, whose parameters have different names. -/
  | function {tree a : Tree} {entries : List Tree} {params : List String} {body : Expr}
      (hentries : tree.field? "parameters" = some (.array entries))
      (hparams : entries.map (Tree.textField? "text") = params.map some) (hnodup : params.Nodup)
      (hvalue : tree.field? "value" = some a) (ha : Denotes a body) :
      DenotesAs .function tree (.function params body)
  | call {tree a : Tree} {items : List Tree} {callee : Expr} {arguments : List Expr}
      (hcallee : tree.field? "callee" = some a)
      (hitems : tree.field? "arguments" = some (.array items)) (ha : Denotes a callee)
      (harguments : DenotesAll items arguments) : DenotesAs .call tree (.call callee arguments)

/-- The trees are nodes of the expressions, in the same order. -/
inductive DenotesAll : List Tree → List Expr → Prop where
  | nil : DenotesAll [] []
  | cons {item : Tree} {items : List Tree} {e : Expr} {es : List Expr} (hitem : Denotes item e)
      (hitems : DenotesAll items es) : DenotesAll (item :: items) (e :: es)

end

/-- Only objects are nodes. -/
theorem Denotes.isObject {tree : Tree} {e : Expr} (h : Denotes tree e) : tree.isObject = true := by
  obtain ⟨hkind, -⟩ := h
  cases tree with
  | object fields => rfl
  | _ => cases hkind

/-- The kinds have different names. -/
theorem Kind.ofName?_eq_some {name : String} {kind : Kind} :
    Kind.ofName? name = some kind ↔ name = kind.name := by
  constructor
  · intro h
    have hname := List.find?_some h
    exact (of_decide_eq_true hname).symm
  · rintro rfl
    cases kind <;> decide

/-! ## Literals -/

section

variable {value : Tree}

theorem Tree.items?_eq_some {items : List Tree} :
    value.items? = some items ↔ value = .array items := by
  cases value <;> simp [Tree.items?]

theorem Tree.strLiteral?_eq_some {text : String} :
    value.strLiteral? = some text ↔ value = .str text := by
  cases value <;> simp [Tree.strLiteral?]

theorem Tree.intLiteral?_eq_some {n : Int32} :
    value.intLiteral? = some n ↔ value = .int n.toInt ∨
      ∃ text, value = .str text ∧ Numeral.Spells text.toList n.toInt := by
  have hmin := n.le_toInt
  have hmax := n.toInt_lt
  cases value with
  | int m =>
    have hbounds : Int32.minValue.toInt = -2147483648 ∧ Int32.maxValue.toInt = 2147483647 := by
      decide
    simp only [Tree.intLiteral?, hbounds, Tree.int.injEq, reduceCtorEq, false_and, exists_false,
      or_false]
    constructor
    · intro h
      split at h
      · rename_i hm
        cases h
        rw [Int32.toInt_ofInt_of_le (by omega) (by omega)]
      · cases h
    · rintro rfl
      rw [if_pos (by omega), Int32.ofInt_toInt]
  | str text =>
    have hread : (Numeral.readInt32 text).toOption = some n ↔ Numeral.readInt32 text = .ok n := by
      cases Numeral.readInt32 text <;> simp [Except.toOption]
    simp [Tree.intLiteral?, hread, Numeral.readInt32_eq_ok]
  | _ => simp [Tree.intLiteral?]

theorem Tree.boolLiteral?_eq_some {b : Bool} :
    value.boolLiteral? = some b ↔
      value = .bool b ∨ value = .str (if b then "true" else "false") := by
  cases value with
  | bool a => simp [Tree.boolLiteral?]
  | str text =>
    by_cases htrue : text = "true"
    · subst htrue
      cases b <;> simp [Tree.boolLiteral?]
    · by_cases hfalse : text = "false"
      · subst hfalse
        cases b <;> simp [Tree.boolLiteral?]
      · cases b <;> simp [Tree.boolLiteral?, htrue, hfalse]
  | _ => simp [Tree.boolLiteral?]

end

/-! ## Steps of building -/

namespace Build

variable {α β : Type}

/-- What a step of building ends with, whatever it logs. -/
def answer (step : Build α) (log : Log) : Except BuildError α :=
  match step log with
  | .ok a _ => .ok a
  | .error cause _ => .error cause

/-- The step succeeds with exactly those results that satisfy `P`. -/
def Accepts (step : Build α) (P : α → Prop) : Prop :=
  ∀ log a, answer step log = .ok a ↔ P a

theorem Accepts.congr {step : Build α} {P Q : α → Prop} (h : Accepts step P)
    (hP : ∀ a, P a ↔ Q a) : Accepts step Q :=
  fun log a => (h log a).trans (hP a)

theorem Accepts.pure {a : α} : Accepts (Pure.pure a) fun b => b = a := by
  intro log b
  show Except.ok a = .ok b ↔ b = a
  rw [Except.ok.injEq]
  exact eq_comm

theorem Accepts.throw {cause : BuildError} : Accepts (throw cause : Build α) fun _ => False :=
  fun _ _ => ⟨nofun, nofun⟩

theorem Accepts.bind {first : Build α} {next : α → Build β} {P : α → Prop}
    {Q : α → β → Prop} (hfirst : Accepts first P)
    (hnext : ∀ a, P a → Accepts (next a) (Q a)) :
    Accepts (first >>= next) fun b => ∃ a, P a ∧ Q a b := by
  intro log b
  have hanswer : answer (first >>= next) log = match first log with
      | .ok a log' => answer (next a) log'
      | .error cause _ => .error cause := by
    show answer (EStateM.bind first next) log = _
    unfold answer EStateM.bind
    cases first log <;> rfl
  have hP := hfirst log
  unfold answer at hP
  rw [hanswer]
  cases hrun : first log with
  | ok a log' =>
    rw [hrun] at hP
    have ha : P a := (hP a).mp rfl
    have hunique : ∀ a', P a' → a' = a := fun a' ha' => by
      cases (hP a').mpr ha'
      rfl
    refine (hnext a ha log' b).trans ⟨fun hb => ⟨a, ha, hb⟩, ?_⟩
    rintro ⟨a', ha', hb⟩
    rw [← hunique a' ha']
    exact hb
  | error cause log' =>
    rw [hrun] at hP
    refine ⟨nofun, ?_⟩
    rintro ⟨a, ha, -⟩
    cases (hP a).mpr ha

theorem Accepts.map {step : Build α} {f : α → β} {P : α → Prop} (h : Accepts step P) :
    Accepts (f <$> step) fun b => ∃ a, P a ∧ b = f a := by
  have hbind : f <$> step = step >>= fun a => Pure.pure (f a) := (bind_pure_comp f step).symm
  rw [hbind]
  exact h.bind fun _ _ => .pure

theorem Accepts.note {event : Event} : Accepts (note event) fun _ => True :=
  fun _ _ => ⟨fun _ => trivial, fun _ => rfl⟩

theorem Accepts.require {cause : BuildError} {value? : Option α} :
    Accepts (require cause value?) fun a => value? = some a := by
  cases value? with
  | some value => exact Accepts.pure.congr fun a => by rw [Option.some.injEq]; exact eq_comm
  | none => exact Accepts.throw.congr fun a => by simp

theorem Accepts.literal {kind : Kind} {value? : Tree → Option α} {tree : Tree} :
    Accepts (literal kind value? tree) fun a =>
      ∃ value, tree.field? "value" = some value ∧ value? value = some a :=
  Accepts.require.bind fun _ _ => .require

theorem Accepts.child {kind : Kind} {tree : Tree} {field : String}
    {build : (c : Tree) → sizeOf c < sizeOf tree → Build Expr}
    (h : ∀ c hc, Accepts (build c hc) (Denotes c)) :
    Accepts (child kind tree field build) fun e =>
      ∃ c, tree.field? field = some c ∧ Denotes c e := by
  unfold Build.child
  split
  · rename_i c hc
    split
    · refine (h c _).congr fun e => ?_
      simp [hc]
    · rename_i hobject
      refine Accepts.throw.congr fun e => ⟨nofun, ?_⟩
      rintro ⟨c', hc', he⟩
      rw [hc, Option.some.injEq] at hc'
      subst hc'
      exact hobject he.isObject
  · rename_i hc
    refine Accepts.throw.congr fun e => ?_
    simp [hc]

/-- The names of parameters are those of the entries, and all different. -/
theorem Accepts.params {seen : List String} {entries : List Tree} (hseen : seen.Nodup) :
    Accepts (params seen entries) fun names =>
      ∃ rest, entries.map (Tree.textField? "text") = rest.map some ∧ names = seen ++ rest ∧
        names.Nodup := by
  induction entries generalizing seen with
  | nil =>
    refine Accepts.pure.congr fun names => ?_
    constructor
    · rintro rfl
      exact ⟨[], rfl, (List.append_nil _).symm, hseen⟩
    · rintro ⟨rest, hrest, rfl, -⟩
      obtain rfl := List.map_eq_nil_iff.mp hrest.symm
      exact List.append_nil _
  | cons entry entries ih =>
    -- The name is refused or taken on, and what is read then has all names in its result.
    refine (Accepts.require.bind (Q := fun name names => name ∉ seen ∧
      ∃ rest, entries.map (Tree.textField? "text") = rest.map some ∧
        names = (seen ++ [name]) ++ rest ∧ names.Nodup) fun name _ => ?_).congr fun names => ?_
    · by_cases hname : name ∈ seen
      · rw [if_pos hname]
        exact Accepts.throw.congr fun names => by simp [hname]
      · rw [if_neg hname]
        have hmore : (seen ++ [name]).Nodup := by
          rw [List.nodup_append]
          refine ⟨hseen, by simp, ?_⟩
          intro a ha b hb hab
          obtain rfl := List.mem_singleton.mp hb
          exact hname (hab ▸ ha)
        exact (ih hmore).congr fun names => by simp [hname]
    · constructor
      · rintro ⟨name, hentry, -, rest, hrest, rfl, hnodup⟩
        refine ⟨name :: rest, ?_, by simp, hnodup⟩
        rw [List.map_cons, List.map_cons, hentry, hrest]
      · rintro ⟨rest, hrest, rfl, hnodup⟩
        cases rest with
        | nil => cases hrest
        | cons name rest =>
          obtain ⟨hentry, hrest⟩ := List.cons.inj hrest
          refine ⟨name, hentry, ?_, rest, hrest, by simp, hnodup⟩
          intro hname
          exact (List.nodup_append.mp hnodup).2.2 name hname name List.mem_cons_self rfl

end Build

/-! ## Nodes -/

section

variable {tree : Tree}

theorem Build.Accepts.strNode :
    Accepts (Expr.str <$> Build.literal .str Tree.strLiteral? tree) (DenotesAs .str tree) := by
  refine Accepts.literal.map.congr fun e => ?_
  simp only [Tree.strLiteral?_eq_some]
  constructor
  · rintro ⟨text, ⟨value, hvalue, rfl⟩, rfl⟩
    exact .str hvalue
  · intro h
    cases h with
    | str hvalue => exact ⟨_, ⟨_, hvalue, rfl⟩, rfl⟩

theorem Build.Accepts.intNode :
    Accepts (Expr.int <$> Build.literal .int Tree.intLiteral? tree) (DenotesAs .int tree) := by
  refine Accepts.literal.map.congr fun e => ?_
  simp only [Tree.intLiteral?_eq_some]
  constructor
  · rintro ⟨n, ⟨value, hvalue, hn⟩, rfl⟩
    have hmin := n.le_toInt
    have hmax := n.toInt_lt
    rw [← Int32.ofInt_toInt n]
    rcases hn with rfl | ⟨text, rfl, hspells⟩
    · exact .number hvalue (by omega) (by omega)
    · exact .numeral hvalue hspells (by omega) (by omega)
  · intro h
    cases h with
    | @number _ n hvalue hmin hmax =>
      have hn : (Int32.ofInt n).toInt = n := Int32.toInt_ofInt_of_le (by omega) (by omega)
      exact ⟨_, ⟨_, hvalue, .inl (by rw [hn])⟩, rfl⟩
    | @numeral _ text n hvalue hspells hmin hmax =>
      have hn : (Int32.ofInt n).toInt = n := Int32.toInt_ofInt_of_le (by omega) (by omega)
      rw [← hn] at hspells
      exact ⟨_, ⟨_, hvalue, .inr ⟨text, rfl, hspells⟩⟩, rfl⟩

theorem Build.Accepts.boolNode :
    Accepts (Expr.bool <$> Build.literal .bool Tree.boolLiteral? tree) (DenotesAs .bool tree) := by
  refine Accepts.literal.map.congr fun e => ?_
  simp only [Tree.boolLiteral?_eq_some]
  constructor
  · rintro ⟨b, ⟨value, hvalue, rfl | rfl⟩, rfl⟩
    · exact .bool hvalue
    · cases b with
      | true => exact .true hvalue
      | false => exact .false hvalue
  · intro h
    cases h with
    | bool hvalue => exact ⟨_, ⟨_, hvalue, .inl rfl⟩, rfl⟩
    | true hvalue => exact ⟨true, ⟨_, hvalue, .inr rfl⟩, rfl⟩
    | false hvalue => exact ⟨false, ⟨_, hvalue, .inr rfl⟩, rfl⟩

end

mutual

/-- A node is built exactly if it denotes an expression, and then this is the result. -/
theorem Expr.accepts_ofTree (tree : Tree) : Build.Accepts (Expr.ofTree tree) (Denotes tree) := by
  have hchild : ∀ kind field,
      Build.Accepts (Build.child kind tree field fun c _ => Expr.ofTree c) fun e =>
        ∃ c, tree.field? field = some c ∧ Denotes c e :=
    fun kind field => .child fun c hc => Expr.accepts_ofTree c
  rw [Expr.ofTree]
  refine (Build.Accepts.require.bind fun name _ => Build.Accepts.note.bind fun _ _ =>
    Build.Accepts.require.bind (Q := fun kind e => DenotesAs kind tree e)
      fun kind _ => ?_).congr fun e => ?_
  · cases kind with
    | str => exact .strNode
    | int => exact .intNode
    | bool => exact .boolNode
    | tuple =>
      refine ((hchild .tuple "first").bind fun first _ => (hchild .tuple "second").bind
        fun second _ => .pure).congr fun e => ?_
      constructor
      · rintro ⟨first, ⟨a, hfirst, ha⟩, second, ⟨b, hsecond, hb⟩, rfl⟩
        exact .tuple hfirst hsecond ha hb
      · intro h
        cases h with
        | tuple hfirst hsecond ha hb => exact ⟨_, ⟨_, hfirst, ha⟩, _, ⟨_, hsecond, hb⟩, rfl⟩
    | first =>
      refine (hchild .first "value").map.congr fun e => ?_
      constructor
      · rintro ⟨source, ⟨a, hvalue, ha⟩, rfl⟩
        exact .first hvalue ha
      · intro h
        cases h with
        | first hvalue ha => exact ⟨_, ⟨_, hvalue, ha⟩, rfl⟩
    | second =>
      refine (hchild .second "value").map.congr fun e => ?_
      constructor
      · rintro ⟨source, ⟨a, hvalue, ha⟩, rfl⟩
        exact .second hvalue ha
      · intro h
        cases h with
        | second hvalue ha => exact ⟨_, ⟨_, hvalue, ha⟩, rfl⟩
    | binary =>
      refine ((hchild .binary "lhs").bind fun lhs _ => Build.Accepts.require.bind fun op _ =>
        (hchild .binary "rhs").bind fun rhs _ => .pure).congr fun e => ?_
      constructor
      · rintro ⟨lhs, ⟨a, hlhs, ha⟩, op, hop, rhs, ⟨b, hrhs, hb⟩, rfl⟩
        exact .binary hlhs hop hrhs ha hb
      · intro h
        cases h with
        | binary hlhs hop hrhs ha hb => exact ⟨_, ⟨_, hlhs, ha⟩, _, hop, _, ⟨_, hrhs, hb⟩, rfl⟩
    | letIn =>
      refine (Build.Accepts.require.bind fun name _ => (hchild .letIn "value").bind fun value _ =>
        (hchild .letIn "next").bind fun next _ => .pure).congr fun e => ?_
      constructor
      · rintro ⟨name, hbound, value, ⟨a, hvalue, ha⟩, next, ⟨b, hnext, hb⟩, rfl⟩
        obtain ⟨named, hnamed, hname⟩ := Option.bind_eq_some_iff.mp hbound
        exact .letIn hnamed hname hvalue hnext ha hb
      · intro h
        cases h with
        | letIn hnamed hname hvalue hnext ha hb =>
          exact ⟨_, Option.bind_eq_some_iff.mpr ⟨_, hnamed, hname⟩, _, ⟨_, hvalue, ha⟩, _,
            ⟨_, hnext, hb⟩, rfl⟩
    | var =>
      refine Build.Accepts.require.map.congr fun e => ?_
      constructor
      · rintro ⟨name, htext, rfl⟩
        exact .var htext
      · intro h
        cases h with
        | var htext => exact ⟨_, htext, rfl⟩
    | print =>
      refine (hchild .print "value").map.congr fun e => ?_
      constructor
      · rintro ⟨inner, ⟨a, hvalue, ha⟩, rfl⟩
        exact .print hvalue ha
      · intro h
        cases h with
        | print hvalue ha => exact ⟨_, ⟨_, hvalue, ha⟩, rfl⟩
    | cond =>
      refine ((hchild .cond "condition").bind fun condition _ => (hchild .cond "then").bind
        fun consequent _ => (hchild .cond "otherwise").bind fun alternative _ => .pure).congr
        fun e => ?_
      constructor
      · rintro ⟨condition, ⟨a, hcondition, ha⟩, consequent, ⟨b, hthen, hb⟩, alternative,
          ⟨c, hotherwise, hc⟩, rfl⟩
        exact .cond hcondition hthen hotherwise ha hb hc
      · intro h
        cases h with
        | cond hcondition hthen hotherwise ha hb hc =>
          exact ⟨_, ⟨_, hcondition, ha⟩, _, ⟨_, hthen, hb⟩, _, ⟨_, hotherwise, hc⟩, rfl⟩
    | function =>
      refine (Build.Accepts.require.bind fun entries _ =>
        (Build.Accepts.params List.nodup_nil).bind fun params _ =>
          (hchild .function "value").bind fun body _ => .pure).congr fun e => ?_
      constructor
      · rintro ⟨entries, hmember, params, ⟨_, hparams, rfl, hnodup⟩, body, ⟨a, hvalue, ha⟩, rfl⟩
        obtain ⟨member, hmember, hitems⟩ := Option.bind_eq_some_iff.mp hmember
        rw [Tree.items?_eq_some] at hitems
        subst hitems
        exact .function hmember hparams hnodup hvalue ha
      · intro h
        cases h with
        | function hentries hparams hnodup hvalue ha =>
          exact ⟨_, Option.bind_eq_some_iff.mpr ⟨_, hentries, rfl⟩, _,
            ⟨_, hparams, rfl, hnodup⟩, _, ⟨_, hvalue, ha⟩, rfl⟩
    | call =>
      -- Neither `child` nor `require` reads the member with the arguments, since it has to be known
      -- that these are smaller than the tree.
      refine ((hchild .call "callee").bind (Q := fun callee e => ∃ items arguments,
        tree.field? "arguments" = some (.array items) ∧ DenotesAll items arguments ∧
          e = .call callee arguments) fun callee _ => ?_).congr fun e => ?_
      · split
        · rename_i hnone
          exact Build.Accepts.throw.congr fun e => by simp [hnone]
        · rename_i member hmember
          split
          · rename_i hno
            refine Build.Accepts.throw.congr fun e => ⟨nofun, ?_⟩
            rintro ⟨items, arguments, hitems, -⟩
            rw [hmember, Option.some.injEq] at hitems
            subst hitems
            cases hno
          · rename_i items hitems
            have hsize := Tree.sizeOf_items hmember hitems
            rw [Tree.items?_eq_some] at hitems
            subst hitems
            refine ((Expr.accepts_ofArguments items).bind fun arguments _ => .pure).congr
              fun e => ?_
            simp [hmember]
      · constructor
        · rintro ⟨callee, ⟨a, hcallee, ha⟩, items, arguments, hitems, harguments, rfl⟩
          exact .call hcallee hitems ha harguments
        · intro h
          cases h with
          | call hcallee hitems ha harguments =>
            exact ⟨_, ⟨_, hcallee, ha⟩, _, _, hitems, harguments, rfl⟩
  · constructor
    · rintro ⟨name, hname, -, -, kind, hkind, hform⟩
      rw [Kind.ofName?_eq_some] at hkind
      subst hkind
      exact .node hname hform
    · rintro ⟨hname, hform⟩
      exact ⟨_, hname, (), trivial, _, Kind.ofName?_eq_some.mpr rfl, hform⟩
termination_by sizeOf tree

/-- The same for the arguments of a call. -/
theorem Expr.accepts_ofArguments (items : List Tree) :
    Build.Accepts (Expr.ofArguments items) (DenotesAll items) := by
  cases items with
  | nil =>
    rw [Expr.ofArguments]
    refine Build.Accepts.pure.congr fun es => ?_
    constructor
    · rintro rfl
      exact .nil
    · rintro ⟨⟩
      rfl
  | cons item items =>
    rw [Expr.ofArguments]
    split
    · refine ((Expr.accepts_ofTree item).bind fun e _ => (Expr.accepts_ofArguments items).bind
        fun es _ => .pure).congr fun all => ?_
      constructor
      · rintro ⟨e, hitem, es, hitems, rfl⟩
        exact .cons hitem hitems
      · intro h
        cases h with
        | cons hitem hitems => exact ⟨_, hitem, _, hitems, rfl⟩
    · rename_i hobject
      refine Build.Accepts.throw.congr fun all => ⟨nofun, ?_⟩
      intro h
      cases h with
      | cons hitem _ => exact hobject hitem.isObject
termination_by sizeOf items

end

/-- The tree of a program is built exactly if it is an object whose member `expression` is an object
with members that denotes an expression. -/
theorem Expr.accepts_ofProgram (tree : Tree) :
    Build.Accepts (Expr.ofProgram tree) fun e =>
      ∃ fields, tree.field? "expression" = some (.object fields) ∧ fields ≠ [] ∧
        Denotes (.object fields) e := by
  unfold Expr.ofProgram
  split
  · rename_i entry rest hmember
    refine (Expr.accepts_ofTree _).congr fun e => ?_
    simp [hmember]
  · rename_i hno
    refine Build.Accepts.throw.congr fun e => ⟨nofun, ?_⟩
    rintro ⟨fields, hmember, hne, -⟩
    cases fields with
    | nil => exact absurd rfl hne
    | cons entry rest => exact absurd hmember (hno entry rest)

/-- Building accepts exactly the grammar. A tree is built to an expression exactly if it denotes
this expression; and the tree of a program is built to one exactly if it is an object whose member
`expression` is an object with members that denotes it. What is logged makes no difference. -/
theorem Expr.ofTree_ok_iff_denotes (log : Log) (tree : Tree) (e : Expr) :
    (Build.answer (Expr.ofTree tree) log = .ok e ↔ Denotes tree e) ∧
    (Build.answer (Expr.ofProgram tree) log = .ok e ↔
      ∃ fields, tree.field? "expression" = some (.object fields) ∧ fields ≠ [] ∧
        Denotes (.object fields) e) :=
  ⟨Expr.accepts_ofTree tree log e, Expr.accepts_ofProgram tree log e⟩

end TreeLang
