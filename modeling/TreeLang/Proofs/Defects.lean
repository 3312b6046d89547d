import TreeLang.Proofs.Denotation

/-!
# The defects of a tree

`Tree.defects` lists all that is wrong with a tree: it visits every node that it can reach and goes
on behind each defect, in the order in which the members of a kind are read. A tree without defects
denotes an expression. Building stops at the first defect, whichever node it belongs to, and
reports this one.
-/

namespace TreeLang

namespace Tree

/-- The defect of a member that needs a text and has none. -/
def textDefects (kind : Kind) (field : String) (text? : Option String) : List BuildError :=
  match text? with
  | some _ => []
  | none => [.malformedField kind field]

/-- The defect of a literal whose value is missing or none of its kind. Such a value is reported as
it is if it is a string, and by its compact text if it is anything else. -/
def literalDefects {α : Type} (kind : Kind) (value? : Tree → Option α) (tree : Tree) :
    List BuildError :=
  match tree.field? "value" with
  | none => [.malformedField kind "value"]
  | some value =>
    match value? value with
    | some _ => []
    | none =>
      match value with
      | .str text => [.malformedLiteral kind text]
      | other => [.malformedLiteral kind other.text]

/-- The defects of parameters: entries without a name, and names of the `earlier` parameters. -/
def paramDefects (earlier : List String) : List Tree → List BuildError
  | [] => []
  | entry :: rest =>
    match entry.textField? "text" with
    | none => .malformedField .function "parameters" :: paramDefects earlier rest
    | some name =>
      if name ∈ earlier then .duplicateParameter name :: paramDefects earlier rest
      else paramDefects (name :: earlier) rest

/-- The defects of a member, for which there is a reading of smaller trees. -/
def memberDefects (tree : Tree) (field : String) (missing : BuildError)
    (defects : (c : Tree) → sizeOf c < sizeOf tree → List BuildError) : List BuildError :=
  match h : tree.field? field with
  | some c => defects c (sizeOf_field? h)
  | none => [missing]

theorem memberDefects_of_some {tree c : Tree} {field : String} {missing : BuildError}
    {defects : (c : Tree) → sizeOf c < sizeOf tree → List BuildError}
    (h : tree.field? field = some c) :
    tree.memberDefects field missing defects = defects c (sizeOf_field? h) := by
  unfold memberDefects
  split
  · rename_i c' h'
    obtain rfl : c = c' := Option.some.inj (h.symm.trans h')
    rfl
  · rename_i h'
    rw [h] at h'
    cases h'

theorem memberDefects_of_none {tree : Tree} {field : String} {missing : BuildError}
    {defects : (c : Tree) → sizeOf c < sizeOf tree → List BuildError}
    (h : tree.field? field = none) : tree.memberDefects field missing defects = [missing] := by
  unfold memberDefects
  split
  · rename_i c' h'
    rw [h] at h'
    cases h'
  · rfl

mutual

/-- All defects of a node, in the order of reading. -/
def defects (tree : Tree) : List BuildError :=
  match tree.textField? "kind" with
  | none => [.missingKind]
  | some name =>
    match Kind.ofName? name with
    | none => [.unknownKind name]
    | some kind =>
      -- A child has to be an object, and then it is read on.
      let child (field : String) : List BuildError :=
        memberDefects tree field (.malformedField kind field) fun c _ =>
          if c.isObject then defects c else [.malformedField kind field]
      match kind with
      | .str => literalDefects .str strLiteral? tree
      | .int => literalDefects .int intLiteral? tree
      | .bool => literalDefects .bool boolLiteral? tree
      | .tuple => child "first" ++ child "second"
      | .first | .second | .print => child "value"
      | .binary => child "lhs" ++ (textDefects .binary "op" (tree.textField? "op") ++ child "rhs")
      | .letIn => textDefects .letIn "name" tree.boundName? ++ (child "value" ++ child "next")
      | .var => textDefects .var "text" (tree.textField? "text")
      | .cond => child "condition" ++ (child "then" ++ child "otherwise")
      | .function =>
        (match (tree.field? "parameters").bind items? with
          | none => [.malformedField .function "parameters"]
          | some entries => paramDefects [] entries) ++ child "value"
      | .call =>
        child "callee" ++
          memberDefects tree "arguments" (.malformedField .call "arguments") fun member hmember =>
            match member, hmember with
            | .array items, hmember =>
              have hitems : sizeOf items < sizeOf tree := by
                simp only [array.sizeOf_spec] at hmember
                omega
              argumentDefects items
            | _, _ => [.malformedField .call "arguments"]
termination_by sizeOf tree

/-- All defects of the arguments of a call. -/
def argumentDefects (items : List Tree) : List BuildError :=
  match items with
  | [] => []
  | item :: rest =>
    (if item.isObject then defects item else [.malformedField .call "arguments"]) ++
      argumentDefects rest
termination_by sizeOf items

end

/-- All defects of the tree of a program. -/
def programDefects (tree : Tree) : List BuildError :=
  match tree.field? "expression" with
  | some (.object (entry :: rest)) => defects (.object (entry :: rest))
  | _ => [.noExpression]

end Tree

/-! ## Steps of building -/

namespace Build

variable {α β : Type}

/-- The step succeeds if there are no defects, and fails with the first of them if there are. -/
def Reports (step : Build α) (defects : List BuildError) : Prop :=
  ∀ log, match step log with
    | .ok _ _ => defects = []
    | .error cause _ => defects.head? = some cause

theorem Reports.pure {a : α} : Reports (Pure.pure a) [] := fun _ => rfl

theorem Reports.throw {cause : BuildError} {ds : List BuildError} :
    Reports (throw cause : Build α) (cause :: ds) :=
  fun _ => rfl

theorem Reports.note {event : Event} : Reports (note event) [] := fun _ => rfl

/-- What follows a failure does not matter. -/
theorem Reports.throw_bind {cause : BuildError} {next : α → Build β} {ds : List BuildError} :
    Reports (MonadExcept.throw cause >>= next) (cause :: ds) :=
  fun _ => rfl

theorem Reports.pure_bind {a : α} {next : α → Build β} {ds : List BuildError}
    (h : Reports (next a) ds) : Reports (Pure.pure a >>= next) ds := h

/-- The defects of a step that fails come first, and a step that succeeds has none. -/
theorem Reports.bind {first : Build α} {next : α → Build β} {ds ds' : List BuildError}
    (hfirst : Reports first ds) (hnext : ∀ a, Reports (next a) ds') :
    Reports (first >>= next) (ds ++ ds') := by
  intro log
  have hds := hfirst log
  show match EStateM.bind first next log with
    | .ok _ _ => ds ++ ds' = []
    | .error cause _ => (ds ++ ds').head? = some cause
  unfold EStateM.bind
  cases h : first log with
  | ok a log' =>
    rw [h] at hds
    have hempty : ds = [] := hds
    rw [hempty, List.nil_append]
    exact hnext a log'
  | error cause log' =>
    rw [h] at hds
    have hhead : ds.head? = some cause := hds
    show (ds ++ ds').head? = some cause
    rw [List.head?_append, hhead, Option.some_or]

theorem Reports.map {step : Build α} {f : α → β} {ds : List BuildError} (h : Reports step ds) :
    Reports (f <$> step) ds := by
  have hbind : f <$> step = step >>= fun a => Pure.pure (f a) := (bind_pure_comp f step).symm
  rw [hbind, ← List.append_nil ds]
  exact h.bind fun _ => .pure

theorem Reports.bind_pure {step : Build α} {f : α → β} {ds : List BuildError}
    (h : Reports step ds) : Reports (step >>= fun a => Pure.pure (f a)) ds := by
  rw [bind_pure_comp]
  exact h.map

theorem Reports.text {kind : Kind} {field : String} {text? : Option String} :
    Reports (require (.malformedField kind field) text?) (Tree.textDefects kind field text?) := by
  cases text? with
  | some text => exact .pure
  | none => exact .throw

theorem Reports.literal {kind : Kind} {value? : Tree → Option α} {tree : Tree} :
    Reports (literal kind value? tree) (tree.literalDefects kind value?) := by
  unfold Build.literal Tree.literalDefects
  cases tree.field? "value" with
  | none => exact .throw_bind
  | some value =>
    refine .pure_bind ?_
    dsimp only
    cases value? value with
    | none => cases value <;> exact .throw
    | some a => exact .pure

theorem Reports.child {kind : Kind} {tree : Tree} {field : String}
    {build : (c : Tree) → sizeOf c < sizeOf tree → Build Expr}
    {defects : (c : Tree) → sizeOf c < sizeOf tree → List BuildError}
    (h : ∀ c hc, Reports (build c hc) (defects c hc)) :
    Reports (child kind tree field build)
      (tree.memberDefects field (.malformedField kind field) fun c hc =>
        if c.isObject then defects c hc else [.malformedField kind field]) := by
  unfold Build.child
  split
  · rename_i c hc
    rw [Tree.memberDefects_of_some hc]
    split
    · exact h c _
    · exact .throw
  · rename_i hc
    rw [Tree.memberDefects_of_none hc]
    exact .throw

/-- A parameter is refused for the names of those before it. -/
theorem Reports.params {seen earlier : List String} {entries : List Tree}
    (h : ∀ name, name ∈ seen ↔ name ∈ earlier) :
    Reports (params seen entries) (Tree.paramDefects earlier entries) := by
  induction entries generalizing seen earlier with
  | nil => exact .pure
  | cons entry entries ih =>
    unfold Build.params Tree.paramDefects
    cases entry.textField? "text" with
    | none => exact .throw_bind
    | some name =>
      refine .pure_bind ?_
      dsimp only
      by_cases hname : name ∈ seen
      · rw [if_pos hname, if_pos ((h name).mp hname)]
        exact .throw
      · rw [if_neg hname, if_neg (fun hmem => hname ((h name).mpr hmem))]
        -- The reader puts the name behind the others, the list of defects in front of them.
        refine ih fun other => ?_
        rw [List.mem_append, List.mem_singleton, List.mem_cons, h other]
        exact or_comm

/-- What a step answers is told by its defects. -/
theorem Reports.answer_eq_error {step : Build α} {ds : List BuildError} (h : Reports step ds)
    {log : Log} {cause : BuildError} : answer step log = .error cause ↔ ds.head? = some cause := by
  have hds := h log
  unfold answer
  cases hrun : step log with
  | ok a log' =>
    rw [hrun] at hds
    have hempty : ds = [] := hds
    simp [hempty]
  | error cause' log' =>
    rw [hrun] at hds
    have hhead : ds.head? = some cause' := hds
    simp [hhead]

theorem Reports.answer_eq_ok {step : Build α} {ds : List BuildError} (h : Reports step ds)
    {log : Log} : (∃ a, answer step log = .ok a) ↔ ds = [] := by
  have hds := h log
  unfold answer
  cases hrun : step log with
  | ok a log' =>
    rw [hrun] at hds
    have hempty : ds = [] := hds
    simp [hempty]
  | error cause' log' =>
    rw [hrun] at hds
    have hhead : ds.head? = some cause' := hds
    have hne : ds ≠ [] := by
      rintro rfl
      cases hhead
    simp [hne]

/-- What is logged makes no difference to what is built. -/
theorem answer_eq_of_log {step : Build α} {P : α → Prop} {ds : List BuildError}
    (haccepts : Accepts step P) (hreports : Reports step ds) (log log' : Log) :
    answer step log = answer step log' := by
  cases hanswer : answer step log' with
  | ok a => exact (haccepts log a).mpr ((haccepts log' a).mp hanswer)
  | error cause => exact hreports.answer_eq_error.mpr (hreports.answer_eq_error.mp hanswer)

end Build

/-! ## Nodes -/

mutual

/-- A node is built exactly if it has no defects, and else the first of them is reported. -/
theorem Expr.reports_ofTree (tree : Tree) : Build.Reports (Expr.ofTree tree) tree.defects := by
  have hchild : ∀ kind field,
      Build.Reports (Build.child kind tree field fun c _ => Expr.ofTree c)
        (tree.memberDefects field (.malformedField kind field) fun c _ =>
          if c.isObject then c.defects else [.malformedField kind field]) :=
    fun kind field => .child fun c hc => Expr.reports_ofTree c
  rw [Expr.ofTree, Tree.defects]
  cases tree.textField? "kind" with
  | none => exact .throw_bind
  | some name =>
    refine .pure_bind (Build.Reports.note.bind fun _ => ?_)
    dsimp only
    cases Kind.ofName? name with
    | none => exact .throw_bind
    | some kind =>
      refine .pure_bind ?_
      cases kind with
      | str => exact Build.Reports.literal.map
      | int => exact Build.Reports.literal.map
      | bool => exact Build.Reports.literal.map
      | tuple => exact (hchild .tuple "first").bind fun _ => (hchild .tuple "second").bind_pure
      | first => exact (hchild .first "value").map
      | second => exact (hchild .second "value").map
      | binary =>
        exact (hchild .binary "lhs").bind fun _ => Build.Reports.text.bind fun _ =>
          (hchild .binary "rhs").bind_pure
      | letIn =>
        exact Build.Reports.text.bind fun _ => (hchild .letIn "value").bind fun _ =>
          (hchild .letIn "next").bind_pure
      | var => exact Build.Reports.text.map
      | print => exact (hchild .print "value").map
      | cond =>
        exact (hchild .cond "condition").bind fun _ => (hchild .cond "then").bind fun _ =>
          (hchild .cond "otherwise").bind_pure
      | function =>
        dsimp only
        cases (tree.field? "parameters").bind Tree.items? with
        | none => exact .throw_bind
        | some entries =>
          refine .pure_bind ((Build.Reports.params fun _ => Iff.rfl).bind fun _ => ?_)
          exact (hchild .function "value").bind_pure
      | call =>
        refine (hchild .call "callee").bind fun _ => ?_
        split
        · rename_i hnone
          rw [Tree.memberDefects_of_none hnone]
          exact .throw
        · rename_i member hmember
          rw [Tree.memberDefects_of_some hmember]
          split
          · rename_i hno
            cases member with
            | array items => cases hno
            | _ => exact .throw
          · rename_i items hitems
            have hsize := Tree.sizeOf_items hmember hitems
            rw [Tree.items?_eq_some] at hitems
            subst hitems
            exact (Expr.reports_ofArguments items).bind_pure
termination_by sizeOf tree

/-- The same for the arguments of a call. -/
theorem Expr.reports_ofArguments (items : List Tree) :
    Build.Reports (Expr.ofArguments items) (Tree.argumentDefects items) := by
  cases items with
  | nil =>
    rw [Expr.ofArguments, Tree.argumentDefects]
    exact .pure
  | cons item items =>
    rw [Expr.ofArguments, Tree.argumentDefects]
    split
    · exact (Expr.reports_ofTree item).bind fun _ => (Expr.reports_ofArguments items).bind_pure
    · exact .throw
termination_by sizeOf items

end

theorem Expr.reports_ofProgram (tree : Tree) :
    Build.Reports (Expr.ofProgram tree) tree.programDefects := by
  unfold Expr.ofProgram Tree.programDefects
  cases tree.field? "expression" with
  | none => exact .throw
  | some member =>
    cases member with
    | object fields =>
      cases fields with
      | nil => exact .throw
      | cons entry rest => exact Expr.reports_ofTree _
    | _ => exact .throw

/-- Building reports the first defect. It fails with a cause exactly if this is the first of all
defects of the tree in the order of reading, and it succeeds exactly if there is none, that is, if
the tree denotes an expression. The same is true of the tree of a program. -/
theorem Expr.ofTree_first_defect (log : Log) (tree : Tree) :
    (∀ cause, Build.answer (Expr.ofTree tree) log = .error cause ↔
      tree.defects.head? = some cause) ∧
    ((∃ e, Build.answer (Expr.ofTree tree) log = .ok e) ↔ tree.defects = []) ∧
    (tree.defects = [] ↔ ∃ e, Denotes tree e) ∧
    (∀ cause, Build.answer (Expr.ofProgram tree) log = .error cause ↔
      tree.programDefects.head? = some cause) ∧
    ((∃ e, Build.answer (Expr.ofProgram tree) log = .ok e) ↔ tree.programDefects = []) := by
  have htree := Expr.reports_ofTree tree
  have hprogram := Expr.reports_ofProgram tree
  have hdenotes : (∃ e, Build.answer (Expr.ofTree tree) log = .ok e) ↔ ∃ e, Denotes tree e :=
    exists_congr fun e => Expr.accepts_ofTree tree log e
  refine ⟨fun cause => htree.answer_eq_error, htree.answer_eq_ok, ?_,
    fun cause => hprogram.answer_eq_error, hprogram.answer_eq_ok⟩
  rw [← hdenotes]
  exact htree.answer_eq_ok.symm

/-- A pair of literals that are both malformed: a string is reported as it is, anything else by its
compact text, and the one that is read first is reported. -/
theorem Expr.ofTree_first_defect_literals :
    let int : Tree := .object [("kind", .str "Int"), ("value", .str "4 \"x\"")]
    let bool : Tree := .object [("kind", .str "Bool"), ("value", .object
      [("a", .array [.int (-1), .null, .bool true]), ("b", .str "\"\n\x01")])]
    let pair (first second : Tree) : Tree :=
      .object [("first", first), ("kind", .str "Tuple"), ("second", second)]
    let intDefect : BuildError := .malformedLiteral .int "4 \"x\""
    let boolDefect : BuildError := .malformedLiteral .bool
      "\x7b\"a\":[-1,null,true],\"b\":\"\\\"\\n\\u0001\"\x7d"
    (pair int bool).defects = [intDefect, boolDefect] ∧
    Build.answer (Expr.ofTree (pair int bool)) Log.off = .error intDefect ∧
    Build.answer (Expr.ofTree (pair bool int)) Log.off = .error boolDefect := by
  intro int bool pair intDefect boolDefect
  have hdefects : (pair int bool).defects = [intDefect, boolDefect] := by
    subst boolDefect intDefect pair bool int
    with_unfolding_all rfl
  have hdefects' : (pair bool int).defects = [boolDefect, intDefect] := by
    subst boolDefect intDefect pair bool int
    with_unfolding_all rfl
  have hfirst := (Expr.ofTree_first_defect Log.off (pair int bool)).1 intDefect
  have hfirst' := (Expr.ofTree_first_defect Log.off (pair bool int)).1 boolDefect
  exact ⟨hdefects, hfirst.mpr (congrArg List.head? hdefects),
    hfirst'.mpr (congrArg List.head? hdefects')⟩

end TreeLang
