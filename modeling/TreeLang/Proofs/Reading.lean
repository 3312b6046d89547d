import TreeLang.Proofs.Encoding
import TreeLang.Proofs.Sessions

/-!
# What is read of a tree

Building looks at the `kind` of a node and at those members that belong to this kind. Everything
else in a tree is noise: places in a text, members that nobody knows, members of another kind.
`ReadEqual` says that two trees are equal but for noise, at any depth and also where they are
malformed. From such trees the same expression is built, or the same error is reported, so programs
with such trees do the same.

At one place noise shows: the expression of a program must not be an object without members, and any
member will do.
-/

namespace TreeLang

/-! ## Trees that are read alike -/

namespace Tree

/-- The tree itself if it is an object. -/
def object? : Tree → Option Tree
  | object fields => some (object fields)
  | _ => none

/-- The member of this name if it is an object, as it has to be to hold a child node. -/
def child? (tree : Tree) (field : String) : Option Tree :=
  (tree.field? field).bind object?

/-- The elements of the member of this name if it is an array. -/
def elements? (tree : Tree) (field : String) : Option (List Tree) :=
  (tree.field? field).bind items?

/-- Both trees have the same name, as parameters do, or both have none. -/
def SameText (tree tree' : Tree) : Prop :=
  tree.textField? "text" = tree'.textField? "text"

end Tree

mutual

/-- What is read of the two trees is equal. -/
inductive ReadEqual : Tree → Tree → Prop where
  /-- Objects without the name of a kind. -/
  | unnamed {tree tree' : Tree} (hobject : tree.isObject = true)
      (hobject' : tree'.isObject = true) (hkind : tree.textField? "kind" = none)
      (hkind' : tree'.textField? "kind" = none) : ReadEqual tree tree'
  /-- Objects with the same name, which no kind has. -/
  | unknown {tree tree' : Tree} {name : String} (hkind : tree.textField? "kind" = some name)
      (hkind' : tree'.textField? "kind" = some name) (hname : Kind.ofName? name = none) :
      ReadEqual tree tree'
  /-- Objects of the same kind. -/
  | node {tree tree' : Tree} {kind : Kind} (hkind : tree.textField? "kind" = some kind.name)
      (hkind' : tree'.textField? "kind" = some kind.name) (hread : ReadEqualAs kind tree tree') :
      ReadEqual tree tree'

/-- What is read of the two trees as nodes of this kind is equal. A child is in both of them no
object or missing, or it is read alike. -/
inductive ReadEqualAs : Kind → Tree → Tree → Prop where
  | str {tree tree' : Tree} (hvalue : tree.field? "value" = tree'.field? "value") :
      ReadEqualAs .str tree tree'
  | int {tree tree' : Tree} (hvalue : tree.field? "value" = tree'.field? "value") :
      ReadEqualAs .int tree tree'
  | bool {tree tree' : Tree} (hvalue : tree.field? "value" = tree'.field? "value") :
      ReadEqualAs .bool tree tree'
  | tuple {tree tree' : Tree}
      (hfirst : Option.Rel ReadEqual (tree.child? "first") (tree'.child? "first"))
      (hsecond : Option.Rel ReadEqual (tree.child? "second") (tree'.child? "second")) :
      ReadEqualAs .tuple tree tree'
  | first {tree tree' : Tree}
      (hvalue : Option.Rel ReadEqual (tree.child? "value") (tree'.child? "value")) :
      ReadEqualAs .first tree tree'
  | second {tree tree' : Tree}
      (hvalue : Option.Rel ReadEqual (tree.child? "value") (tree'.child? "value")) :
      ReadEqualAs .second tree tree'
  | binary {tree tree' : Tree}
      (hlhs : Option.Rel ReadEqual (tree.child? "lhs") (tree'.child? "lhs"))
      (hop : tree.textField? "op" = tree'.textField? "op")
      (hrhs : Option.Rel ReadEqual (tree.child? "rhs") (tree'.child? "rhs")) :
      ReadEqualAs .binary tree tree'
  | letIn {tree tree' : Tree} (hname : tree.boundName? = tree'.boundName?)
      (hvalue : Option.Rel ReadEqual (tree.child? "value") (tree'.child? "value"))
      (hnext : Option.Rel ReadEqual (tree.child? "next") (tree'.child? "next")) :
      ReadEqualAs .letIn tree tree'
  | var {tree tree' : Tree} (htext : tree.textField? "text" = tree'.textField? "text") :
      ReadEqualAs .var tree tree'
  | print {tree tree' : Tree}
      (hvalue : Option.Rel ReadEqual (tree.child? "value") (tree'.child? "value")) :
      ReadEqualAs .print tree tree'
  | cond {tree tree' : Tree}
      (hcondition : Option.Rel ReadEqual (tree.child? "condition") (tree'.child? "condition"))
      (hthen : Option.Rel ReadEqual (tree.child? "then") (tree'.child? "then"))
      (hotherwise : Option.Rel ReadEqual (tree.child? "otherwise") (tree'.child? "otherwise")) :
      ReadEqualAs .cond tree tree'
  /-- The parameters are in both trees no array, or of the same number and with the same names. -/
  | function {tree tree' : Tree}
      (hparams : Option.Rel (List.Forall₂ Tree.SameText) (tree.elements? "parameters")
        (tree'.elements? "parameters"))
      (hvalue : Option.Rel ReadEqual (tree.child? "value") (tree'.child? "value")) :
      ReadEqualAs .function tree tree'
  /-- The arguments are in both trees no array, or of the same number and read alike in order. -/
  | call {tree tree' : Tree}
      (hcallee : Option.Rel ReadEqual (tree.child? "callee") (tree'.child? "callee"))
      (harguments : Option.Rel
        (List.Forall₂ fun item item' => Option.Rel ReadEqual item.object? item'.object?)
        (tree.elements? "arguments") (tree'.elements? "arguments")) :
      ReadEqualAs .call tree tree'

end

/-! ## What steps of building read -/

theorem Tree.object?_eq_some {tree object : Tree} :
    tree.object? = some object ↔ tree = object ∧ tree.isObject = true := by
  cases tree <;> simp [Tree.object?, Tree.isObject]

theorem Tree.object?_eq_none {tree : Tree} : tree.object? = none ↔ tree.isObject = false := by
  cases tree <;> simp [Tree.object?, Tree.isObject]

theorem Tree.child?_eq_some {tree child : Tree} {field : String} :
    tree.child? field = some child ↔
      tree.field? field = some child ∧ child.isObject = true := by
  unfold Tree.child?
  rw [Option.bind_eq_some_iff]
  constructor
  · rintro ⟨member, hmember, hchild⟩
    obtain ⟨heq, hobject⟩ := Tree.object?_eq_some.mp hchild
    exact ⟨heq ▸ hmember, heq ▸ hobject⟩
  · rintro ⟨hmember, hobject⟩
    exact ⟨child, hmember, Tree.object?_eq_some.mpr ⟨rfl, hobject⟩⟩

namespace Build

variable {α β γ : Type}

/-- What follows a required value is the same if the values are related, or if both are missing. -/
theorem require_bind_congr {cause : BuildError} {P : α → β → Prop} {value? : Option α}
    {value?' : Option β} {next : α → Build γ} {next' : β → Build γ}
    (h : Option.Rel P value? value?')
    (hnext : ∀ a b, value? = some a → value?' = some b → P a b → next a = next' b) :
    (require cause value? >>= next) = (require cause value?' >>= next') := by
  cases h with
  | none => rfl
  | some hab => exact hnext _ _ rfl rfl hab

/-- A child is read from the member that holds it. -/
theorem child_eq (kind : Kind) (tree : Tree) (field : String) (build : Tree → Build Expr) :
    (child kind tree field fun c _ => build c) =
      require (.malformedField kind field) (tree.child? field) >>= build := by
  unfold child
  split
  · rename_i c hc
    by_cases hobject : c.isObject = true
    · rw [if_pos hobject, Tree.child?_eq_some.mpr ⟨hc, hobject⟩]
      rfl
    · have hnone : tree.child? field = none := by
        rw [Tree.child?, hc]
        exact Tree.object?_eq_none.mpr (Bool.eq_false_iff.mpr hobject)
      rw [if_neg hobject, hnone]
      rfl
  · rename_i hc
    rw [Tree.child?, hc]
    rfl

/-- Only the names of parameters are read. -/
theorem params_congr {seen : List String} {entries entries' : List Tree}
    (h : List.Forall₂ Tree.SameText entries entries') :
    params seen entries = params seen entries' := by
  induction h generalizing seen with
  | nil => rfl
  | cons hentry _ ih =>
    unfold params
    rw [show Tree.textField? "text" _ = Tree.textField? "text" _ from hentry]
    refine bind_congr fun name => ?_
    by_cases hname : name ∈ seen
    · rw [if_pos hname, if_pos hname]
    · rw [if_neg hname, if_neg hname]
      exact ih

end Build

/-- The arguments of a call are read behind its callee. -/
theorem Expr.ofTree_call {tree : Tree} (hkind : tree.textField? "kind" = some Kind.call.name) :
    Expr.ofTree tree = (do
      Build.note (.node Kind.call.name)
      let callee ← Build.child .call tree "callee" fun c _ => Expr.ofTree c
      let items ← Build.require (.malformedField .call "arguments") (tree.elements? "arguments")
      let arguments ← Expr.ofArguments items
      pure (.call callee arguments)) := by
  rw [Expr.ofTree, hkind]
  simp only [Build.require, pure_bind, Kind.ofName?_name, Tree.elements?]
  refine bind_congr fun _ => bind_congr fun callee => ?_
  split
  · rename_i hmember
    rw [hmember]
    rfl
  · rename_i member hmember
    rw [hmember, Option.bind_some]
    split
    · rename_i hitems
      rw [hitems]
      rfl
    · rename_i items hitems
      rw [hitems]
      rfl

/-- Arguments have to be objects. -/
theorem Expr.ofArguments_cons (item : Tree) (items : List Tree) :
    Expr.ofArguments (item :: items) = (do
      let item ← Build.require (.malformedField .call "arguments") item.object?
      let argument ← Expr.ofTree item
      let arguments ← Expr.ofArguments items
      pure (argument :: arguments)) := by
  rw [Expr.ofArguments]
  by_cases hobject : item.isObject = true
  · rw [if_pos hobject, Tree.object?_eq_some.mpr ⟨rfl, hobject⟩]
    rfl
  · rw [if_neg hobject, Tree.object?_eq_none.mpr (Bool.eq_false_iff.mpr hobject)]
    rfl

mutual

/-- From trees that are read alike the same is built. -/
theorem ReadEqual.ofTree_eq {tree tree' : Tree} (h : ReadEqual tree tree') :
    Expr.ofTree tree = Expr.ofTree tree' := by
  have hchild : ∀ {kind field},
      Option.Rel ReadEqual (tree.child? field) (tree'.child? field) →
        (Build.child kind tree field fun c _ => Expr.ofTree c) =
          Build.child kind tree' field fun c _ => Expr.ofTree c := by
    intro kind field hread
    rw [Build.child_eq, Build.child_eq]
    refine Build.require_bind_congr hread fun c c' hc _ hread => ?_
    have hsize : sizeOf c < sizeOf tree := Tree.sizeOf_field? (Tree.child?_eq_some.mp hc).1
    exact hread.ofTree_eq
  cases h with
  | unnamed _ _ hkind hkind' =>
    rw [Expr.ofTree, Expr.ofTree, hkind, hkind']
    rfl
  | unknown hkind hkind' hname =>
    rw [Expr.ofTree, Expr.ofTree, hkind, hkind']
    simp only [Build.require, pure_bind, hname]
    rfl
  | @node _ _ kind hkind hkind' hread =>
    -- The arguments of a call are the only member that is not read by one of the common steps.
    by_cases hcall : kind = .call
    · subst hcall
      rw [Expr.ofTree_call hkind, Expr.ofTree_call hkind']
      cases hread with
      | call hcallee harguments =>
        rw [hchild hcallee]
        refine bind_congr fun _ => bind_congr fun callee => ?_
        refine Build.require_bind_congr harguments fun items items' hitems _ hread => ?_
        have hsize : sizeOf items < sizeOf tree := by
          obtain ⟨member, hmember, hitems⟩ := Option.bind_eq_some_iff.mp hitems
          exact Tree.sizeOf_items hmember hitems
        rw [ReadEqual.ofArguments_eq hread]
    · rw [Expr.ofTree, Expr.ofTree, hkind, hkind']
      simp only [Build.require, pure_bind, Kind.ofName?_name]
      refine bind_congr fun _ => ?_
      cases hread with
      | str hvalue | int hvalue | bool hvalue =>
        dsimp only
        unfold Build.literal
        rw [hvalue]
      | tuple hfirst hsecond =>
        dsimp only
        rw [hchild hfirst, hchild hsecond]
      | first hvalue | second hvalue | print hvalue =>
        dsimp only
        rw [hchild hvalue]
      | binary hlhs hop hrhs =>
        dsimp only
        rw [hchild hlhs, hop, hchild hrhs]
      | letIn hname hvalue hnext =>
        dsimp only
        rw [hname, hchild hvalue, hchild hnext]
      | var htext =>
        dsimp only
        rw [htext]
      | cond hcondition hthen hotherwise =>
        dsimp only
        rw [hchild hcondition, hchild hthen, hchild hotherwise]
      | function hparams hvalue =>
        dsimp only
        rw [hchild hvalue]
        refine Build.require_bind_congr hparams fun entries entries' _ _ hsame => ?_
        rw [Build.params_congr hsame]
      | call _ _ => exact absurd rfl hcall
termination_by sizeOf tree

theorem ReadEqual.ofArguments_eq {items items' : List Tree}
    (h : List.Forall₂ (fun item item' => Option.Rel ReadEqual item.object? item'.object?) items
      items') : Expr.ofArguments items = Expr.ofArguments items' := by
  cases h with
  | nil => rfl
  | @cons item item' items items' hitem hitems =>
    rw [Expr.ofArguments_cons, Expr.ofArguments_cons]
    refine Build.require_bind_congr hitem fun c c' hc _ hread => ?_
    have hsize : sizeOf c < sizeOf (item :: items) := by
      obtain ⟨rfl, -⟩ := Tree.object?_eq_some.mp hc
      simp only [List.cons.sizeOf_spec]
      omega
    rw [hread.ofTree_eq, ReadEqual.ofArguments_eq hitems]
termination_by sizeOf items

end

/-! ## Members that are not read -/

/-- The members that are read of a node of this kind. -/
def Kind.reads : Kind → List String
  | .str | .int | .bool | .first | .second | .print => ["value"]
  | .tuple => ["first", "second"]
  | .binary => ["lhs", "op", "rhs"]
  | .letIn => ["name", "value", "next"]
  | .var => ["text"]
  | .cond => ["condition", "then", "otherwise"]
  | .function => ["parameters", "value"]
  | .call => ["callee", "arguments"]

theorem Tree.textField?_congr {tree tree' : Tree} {field : String}
    (h : tree.field? field = tree'.field? field) :
    tree.textField? field = tree'.textField? field :=
  congrArg (Option.bind · Tree.text?) h

/-- Nodes of a kind are read alike if they have the same members that are read of it, provided that
objects inside are read like themselves. -/
theorem ReadEqualAs.of_members {kind : Kind} {tree tree' : Tree}
    (hobjects : ∀ child : Tree, sizeOf child < sizeOf tree →
      Option.Rel ReadEqual child.object? child.object?)
    (hread : ∀ field ∈ kind.reads, tree.field? field = tree'.field? field) :
    ReadEqualAs kind tree tree' := by
  have hchild : ∀ {field}, tree.field? field = tree'.field? field →
      Option.Rel ReadEqual (tree.child? field) (tree'.child? field) := by
    intro field hfield
    unfold Tree.child?
    rw [← hfield]
    cases hmember : tree.field? field with
    | none => exact .none
    | some child => exact hobjects child (Tree.sizeOf_field? hmember)
  cases kind with
  | str => exact .str (hread _ (by decide))
  | int => exact .int (hread _ (by decide))
  | bool => exact .bool (hread _ (by decide))
  | tuple => exact .tuple (hchild (hread _ (by decide))) (hchild (hread _ (by decide)))
  | first => exact .first (hchild (hread _ (by decide)))
  | second => exact .second (hchild (hread _ (by decide)))
  | binary =>
    exact .binary (hchild (hread _ (by decide))) (Tree.textField?_congr (hread _ (by decide)))
      (hchild (hread _ (by decide)))
  | letIn =>
    have hname : tree.boundName? = tree'.boundName? :=
      congrArg (Option.bind · (Tree.textField? "text")) (hread "name" (by decide))
    exact .letIn hname (hchild (hread _ (by decide))) (hchild (hread _ (by decide)))
  | var => exact .var (Tree.textField?_congr (hread _ (by decide)))
  | print => exact .print (hchild (hread _ (by decide)))
  | cond =>
    exact .cond (hchild (hread _ (by decide))) (hchild (hread _ (by decide)))
      (hchild (hread _ (by decide)))
  | function =>
    refine .function ?_ (hchild (hread _ (by decide)))
    unfold Tree.elements?
    rw [← hread "parameters" (by decide)]
    cases (tree.field? "parameters").bind Tree.items? with
    | none => exact .none
    | some entries => exact .some (List.forall₂_same.mpr fun _ _ => rfl)
  | call =>
    refine .call (hchild (hread _ (by decide))) ?_
    unfold Tree.elements?
    rw [← hread "arguments" (by decide)]
    cases hitems : (tree.field? "arguments").bind Tree.items? with
    | none => exact .none
    | some items =>
      refine .some (List.forall₂_same.mpr fun item hitem => hobjects item ?_)
      obtain ⟨member, hmember, hitems⟩ := Option.bind_eq_some_iff.mp hitems
      exact Nat.lt_trans (List.sizeOf_lt_of_mem hitem) (Tree.sizeOf_items hmember hitems)

/-- Objects are read alike if they have the same kind and the same members that are read of it. All
other members may be added, removed or changed. -/
theorem ReadEqual.of_members {tree tree' : Tree} (hobject : tree.isObject = true)
    (hobject' : tree'.isObject = true) (hkind : tree.field? "kind" = tree'.field? "kind")
    (hreads : ∀ kind : Kind, tree.textField? "kind" = some kind.name →
      ∀ field ∈ kind.reads, tree.field? field = tree'.field? field) : ReadEqual tree tree' := by
  have htext : tree'.textField? "kind" = tree.textField? "kind" :=
    (Tree.textField?_congr hkind).symm
  have hobjects : ∀ child : Tree, sizeOf child < sizeOf tree →
      Option.Rel ReadEqual child.object? child.object? := by
    intro child hsize
    cases hchild : child.object? with
    | none => exact .none
    | some object =>
      obtain ⟨rfl, hobject⟩ := Tree.object?_eq_some.mp hchild
      exact .some (ReadEqual.of_members hobject hobject rfl fun _ _ _ _ => rfl)
  cases hname : tree.textField? "kind" with
  | none => exact .unnamed hobject hobject' hname (htext.trans hname)
  | some name =>
    cases hof : Kind.ofName? name with
    | none => exact .unknown hname (htext.trans hname) hof
    | some kind =>
      obtain rfl := Kind.ofName?_eq_some.mp hof
      exact .node hname (htext.trans hname) (.of_members hobjects (hreads kind hname))
termination_by sizeOf tree

/-! ## Programs -/

theorem Expr.answer_ofTree (tree : Tree) (log log' : Log) :
    Build.answer (Expr.ofTree tree) log = Build.answer (Expr.ofTree tree) log' :=
  Build.answer_eq_of_log (Expr.accepts_ofTree tree) (Expr.reports_ofTree tree) log log'

theorem Expr.answer_ofProgram (tree : Tree) (log log' : Log) :
    Build.answer (Expr.ofProgram tree) log = Build.answer (Expr.ofProgram tree) log' :=
  Build.answer_eq_of_log (Expr.accepts_ofProgram tree) (Expr.reports_ofProgram tree) log log'

/-- Two runs end with the same result and print the same. -/
structure Run.Alike (run run' : Run) : Prop where
  /-- The values or failures are equal. -/
  result : run.result = run'.result
  /-- So are the sinks. -/
  sink : run.sink = run'.sink

/-- Runs of an expression that differ in their logs only are alike. -/
theorem Expr.run?_of_log (limit : Option Nat) (e : Expr) (sink : Sink) (log log' : Log) :
    Option.Rel Run.Alike (e.run? limit sink log) (e.run? limit sink log') := by
  have hrel : Option.Rel Evaluation.Alike
      ((Evaluator.new limit sink log).evaluate? e Env.empty)
      ((Evaluator.new limit sink log').evaluate? e Env.empty) :=
    Evaluator.alike_of_log (.new limit sink log) (.new limit sink log') rfl rfl rfl e Env.empty
  unfold Expr.run? Evaluator.run?
  generalize (Evaluator.new limit sink log).evaluate? e Env.empty = done? at hrel ⊢
  generalize (Evaluator.new limit sink log').evaluate? e Env.empty = done?' at hrel ⊢
  cases hrel with
  | none => exact .none
  | some halike =>
    refine .some ⟨?_, halike.sink.symm⟩
    simp only [Evaluator.flush, halike.sink, halike.result]

/-- The tree of a program is built as its expression, if that is an object with members. -/
theorem Expr.ofProgram_of_field? {tree : Tree} {fields : List (String × Tree)}
    (h : tree.field? "expression" = some (.object fields)) (hne : fields ≠ []) :
    Expr.ofProgram tree = Expr.ofTree (.object fields) := by
  cases fields with
  | nil => exact absurd rfl hne
  | cons entry rest =>
    unfold Expr.ofProgram
    rw [h]

/-- Programs from whose trees the same is built do the same. -/
theorem Tree.run?_of_answer {tree tree' : Tree}
    (h : ∀ log log', Build.answer (Expr.ofProgram tree) log =
      Build.answer (Expr.ofProgram tree') log') (limit : Option Nat) (sink : Sink) (log log' : Log) :
    Option.Rel Run.Alike (tree.run? limit sink log) (tree'.run? limit sink log') := by
  have hanswer := h (tree.announce log) (tree'.announce log')
  unfold Build.answer at hanswer
  unfold Tree.run?
  cases hbuilt : Expr.ofProgram tree (tree.announce log) with
  | ok e logged =>
    cases hbuilt' : Expr.ofProgram tree' (tree'.announce log') with
    | ok e' logged' =>
      rw [hbuilt, hbuilt'] at hanswer
      cases hanswer
      exact Expr.run?_of_log limit e sink logged logged'
    | error cause logged' =>
      rw [hbuilt, hbuilt'] at hanswer
      cases hanswer
  | error cause logged =>
    cases hbuilt' : Expr.ofProgram tree' (tree'.announce log') with
    | ok e' logged' =>
      rw [hbuilt, hbuilt'] at hanswer
      cases hanswer
    | error cause' logged' =>
      rw [hbuilt, hbuilt'] at hanswer
      cases hanswer
      exact .some ⟨rfl, rfl⟩

/-- Members that are not read never matter. Objects that differ in such members only are read alike,
and so are objects whose children are read alike. From trees that are read alike, the same
expression is built or the same error reported. If the expressions of two programs are objects with
members and are read alike, then the programs are built alike; their runs end with the same result
and print the same, or none of them ends, whatever else is in the roots. -/
theorem Tree.run?_readEqual (tree tree' : Tree) (log log' : Log) :
    (tree.isObject = true → tree'.isObject = true →
      tree.field? "kind" = tree'.field? "kind" →
      (∀ kind : Kind, tree.textField? "kind" = some kind.name →
        ∀ field ∈ kind.reads, tree.field? field = tree'.field? field) →
      ReadEqual tree tree') ∧
    (ReadEqual tree tree' →
      Build.answer (Expr.ofTree tree) log = Build.answer (Expr.ofTree tree') log') ∧
    (∀ fields fields', tree.field? "expression" = some (.object fields) → fields ≠ [] →
      tree'.field? "expression" = some (.object fields') → fields' ≠ [] →
      ReadEqual (.object fields) (.object fields') →
      Build.answer (Expr.ofProgram tree) log = Build.answer (Expr.ofProgram tree') log' ∧
      ∀ limit sink,
        Option.Rel Run.Alike (tree.run? limit sink log) (tree'.run? limit sink log')) := by
  have hbuilt : ∀ {tree tree' : Tree}, ReadEqual tree tree' → ∀ log log',
      Build.answer (Expr.ofTree tree) log = Build.answer (Expr.ofTree tree') log' := by
    intro tree tree' h log log'
    rw [h.ofTree_eq]
    exact Expr.answer_ofTree tree' log log'
  refine ⟨ReadEqual.of_members, fun h => hbuilt h log log', ?_⟩
  intro fields fields' hfields hne hfields' hne' h
  have hprogram : ∀ log log', Build.answer (Expr.ofProgram tree) log =
      Build.answer (Expr.ofProgram tree') log' := by
    rw [Expr.ofProgram_of_field? hfields hne, Expr.ofProgram_of_field? hfields' hne']
    exact hbuilt h
  exact ⟨hprogram log log', fun limit sink => Tree.run?_of_answer hprogram limit sink log log'⟩

/-- Places are noise in a program that prints, and also in a call with an argument that is no
object. The one place where noise shows is an expression without members. -/
theorem Tree.run?_readEqual_noise :
    let one : Tree := .object [("kind", .str "Int"), ("value", .int 1)]
    let placed : Tree := .object [("kind", .str "Int"), ("location", .null), ("value", .int 1)]
    let call : Tree := .object [("arguments", .array [.int 1]), ("callee", one),
      ("kind", .str "Call")]
    let call' : Tree := .object [("arguments", .array [.str "x"]), ("callee", placed),
      ("kind", .str "Call")]
    let print : List (String × Tree) := [("kind", .str "Print"), ("value", one)]
    let print' : List (String × Tree) :=
      [("kind", .str "Print"), ("location", .int 3), ("value", placed)]
    let root : Tree := .object [("expression", .object print)]
    let root' : Tree := .object [("expression", .object print'), ("name", .str "p")]
    ReadEqual one placed ∧ ReadEqual call call' ∧
    Build.answer (Expr.ofTree call) Log.off = .error (.malformedField .call "arguments") ∧
    Build.answer (Expr.ofTree call') Log.off = .error (.malformedField .call "arguments") ∧
    ReadEqual (.object print) (.object print') ∧
    (∃ run run', root.run? none Sink.unlimited Log.off = some run ∧
      root'.run? none Sink.unlimited Log.full = some run' ∧ Run.Alike run run' ∧
      run.result = .ok (.int 1) ∧ run.sink.written = "1\n".toUTF8) ∧
    ReadEqual (.object []) (.object [("location", .null)]) ∧
    Build.answer (Expr.ofProgram (.object [("expression", .object [])])) Log.off =
      .error .noExpression ∧
    Build.answer (Expr.ofProgram (.object [("expression", .object [("location", .null)])]))
      Log.off = .error .missingKind := by
  intro one placed call call' print print' root root'
  have hone : ReadEqual one placed := @ReadEqual.node _ _ .int rfl rfl (.int rfl)
  have hcall : ReadEqual call call' := by
    refine @ReadEqual.node _ _ .call rfl rfl (.call (.some hone) (.some (.cons ?_ .nil)))
    exact .none
  have hprint : ReadEqual (.object print) (.object print') :=
    @ReadEqual.node _ _ .print rfl rfl (.print (.some hone))
  have hempty : ReadEqual (.object []) (.object [("location", .null)]) :=
    (Tree.run?_readEqual _ _ Log.off Log.off).1 rfl rfl rfl (by rintro _ ⟨⟩)
  have hanswer : Build.answer (Expr.ofTree call) Log.off =
      .error (.malformedField .call "arguments") := by
    subst call one
    with_unfolding_all rfl
  have hsame := (Tree.run?_readEqual call call' Log.off Log.off).2.1 hcall
  have hrun : root.run? none Sink.unlimited Log.off =
      some ⟨.ok (.int 1), ⟨none, .full, none, "1\n".toUTF8⟩, Log.off⟩ := by
    have hbuilt : Expr.ofProgram root (root.announce Log.off) =
        .ok (.print (.int 1)) Log.off := by
      subst root print one
      with_unfolding_all rfl
    rw [Tree.run?_of_ok hbuilt, Expr.run?_eq, Expr.evaluate?_of_within 2 rfl]
    rfl
  have hruns := ((Tree.run?_readEqual root root' Log.off Log.full).2.2 print print' rfl
    (List.cons_ne_nil _ _) rfl (List.cons_ne_nil _ _) hprint).2 none Sink.unlimited
  rw [hrun] at hruns
  refine ⟨hone, hcall, hanswer, hsame.symm.trans hanswer, hprint, ?_, hempty, rfl,
    by with_unfolding_all rfl⟩
  cases hrun' : root'.run? none Sink.unlimited Log.full with
  | none =>
    rw [hrun'] at hruns
    cases hruns
  | some run' =>
    rw [hrun'] at hruns
    cases hruns with
    | some halike => exact ⟨_, run', hrun, rfl, halike, rfl, rfl⟩

end TreeLang
