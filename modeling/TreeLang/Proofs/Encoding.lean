import Mathlib.Data.List.Induction
import Mathlib.Data.List.Nodup
import TreeLang.Proofs.Defects
import TreeLang.Proofs.Parameters

/-!
# The canonical tree of an expression

Every expression has a canonical tree: each node has the members that are read from its kind and no
other ones, and a literal has a value of its own type, not a string that spells it. Building gives
the expression back unless one of its function literals lists a parameter twice; then it reports the
first repeated name of the first such literal in the order of reading. Whatever tree an expression
was built from, its canonical tree is built to the same expression.
-/

namespace TreeLang

/-! ## Canonical trees -/

/-- A node of this kind with these members. -/
def Tree.node (kind : Kind) (members : List (String × Tree)) : Tree :=
  .ofFields (("kind", .str kind.name) :: members)

/-- What a parameter and the name of a binding are written as. -/
def Tree.named (name : String) : Tree := .ofFields [("text", .str name)]

/-- The tree of a program with this expression. -/
def Tree.program (tree : Tree) : Tree := .ofFields [("expression", tree)]

mutual

/-- The canonical tree of an expression. -/
def Expr.toTree : Expr → Tree
  | .str text => .node .str [("value", .str text)]
  | .int n => .node .int [("value", .int n.toInt)]
  | .bool b => .node .bool [("value", .bool b)]
  | .tuple first second => .node .tuple [("first", first.toTree), ("second", second.toTree)]
  | .projection side source => .node side.kind [("value", source.toTree)]
  | .binary op lhs rhs => .node .binary [("op", .str op), ("lhs", lhs.toTree), ("rhs", rhs.toTree)]
  | .letIn name value next =>
    .node .letIn [("name", .named name), ("value", value.toTree), ("next", next.toTree)]
  | .var name => .node .var [("text", .str name)]
  | .print inner => .node .print [("value", inner.toTree)]
  | .cond condition consequent alternative =>
    .node .cond [("condition", condition.toTree), ("then", consequent.toTree),
      ("otherwise", alternative.toTree)]
  | .function params body =>
    .node .function [("parameters", .array (params.map .named)), ("value", body.toTree)]
  | .call callee arguments =>
    .node .call [("callee", callee.toTree), ("arguments", .array (Expr.toTrees arguments))]

/-- The canonical trees of expressions. -/
def Expr.toTrees : List Expr → List Tree
  | [] => []
  | e :: es => e.toTree :: Expr.toTrees es

end

/-- A member that is put into an object is found there, and other members are found as before. -/
theorem Fields.get?_insert (name key : String) (value : Tree) (fields : List (String × Tree)) :
    Fields.get? name (Fields.insert key value fields) =
      if key = name then some value else Fields.get? name fields := by
  induction fields with
  | nil => rfl
  | cons member rest ih =>
    obtain ⟨other, old⟩ := member
    unfold Fields.insert
    by_cases hkey : key = other
    · subst hkey
      rw [if_pos rfl]
      simp only [Fields.get?]
      split <;> rfl
    · rw [if_neg hkey]
      by_cases hlt : key < other
      · rw [if_pos hlt]
        rfl
      · rw [if_neg hlt]
        simp only [Fields.get?, ih]
        by_cases hname : key = name
        · rw [if_neg (fun hother => hkey (hname.trans hother.symm)), if_pos hname, if_pos hname]
        · simp only [if_neg hname]

/-- The last entry of a name is the member of this name. -/
theorem Tree.field?_ofFields (name : String) (entries : List (String × Tree)) :
    (Tree.ofFields entries).field? name = Fields.get? name entries.reverse := by
  show Fields.get? name (Fields.ofList entries) = _
  induction entries using List.reverseRecOn with
  | nil => rfl
  | append_singleton entries entry ih =>
    rw [Fields.ofList, List.foldl_append, List.reverse_append]
    show Fields.get? name (Fields.insert entry.1 entry.2 (Fields.ofList entries)) = _
    rw [Fields.get?_insert, ih]
    rfl

theorem Tree.textField?_of_field? {tree : Tree} {name text : String}
    (h : tree.field? name = some (.str text)) : tree.textField? name = some text := by
  rw [Tree.textField?, h]
  rfl

theorem Tree.textField?_named (name : String) : (Tree.named name).textField? "text" = some name :=
  Tree.textField?_of_field? (Tree.field?_ofFields ..)

theorem Tree.textFields_named (params : List String) :
    (params.map Tree.named).map (Tree.textField? "text") = params.map some := by
  rw [List.map_map]
  exact List.map_congr_left fun name _ => Tree.textField?_named name

theorem Expr.isObject_toTree (e : Expr) : e.toTree.isObject = true := by
  cases e <;> rfl

theorem Expr.textField?_kind_toTree (e : Expr) :
    e.toTree.textField? "kind" = some e.kind.name := by
  cases e <;> exact Tree.textField?_of_field? (Tree.field?_ofFields ..)

/-! ## Parts of expressions -/

/-- The expressions of which an expression consists. -/
def Expr.parts : Expr → List Expr
  | .function _ body => [body]
  | e => e.operands

theorem Expr.sizeOf_part {e part : Expr} (h : part ∈ e.parts) : sizeOf part < sizeOf e := by
  cases e with
  | str _ | int _ | bool _ | var _ => cases h
  | call callee arguments =>
    rcases List.mem_cons.mp h with rfl | hmem
    · simp only [Expr.call.sizeOf_spec]
      omega
    · have hargument := List.sizeOf_lt_of_mem hmem
      simp only [Expr.call.sizeOf_spec]
      omega
  | _ =>
    simp only [Expr.parts, Expr.operands, List.mem_cons, List.not_mem_nil, or_false] at h
    simp only [Expr.tuple.sizeOf_spec, Expr.projection.sizeOf_spec, Expr.binary.sizeOf_spec,
      Expr.letIn.sizeOf_spec, Expr.print.sizeOf_spec, Expr.cond.sizeOf_spec,
      Expr.function.sizeOf_spec]
    grind

/-- What is true of an expression if it is true of its parts is true of all expressions. -/
theorem Expr.parts_induction {motive : Expr → Prop}
    (step : ∀ e : Expr, (∀ part ∈ e.parts, motive part) → motive e) (e : Expr) : motive e :=
  step e fun part _ => parts_induction step part
termination_by sizeOf e
decreasing_by exact Expr.sizeOf_part ‹_›

theorem Expr.OccursIn.part {e part inner : Expr} (h : inner.OccursIn part)
    (hpart : part ∈ e.parts) : inner.OccursIn e := by
  cases e with
  | function params body =>
    obtain rfl := List.mem_singleton.mp hpart
    exact .body h
  | _ => exact .operand hpart h

theorem Expr.DistinctParams.part {e part : Expr} (h : e.DistinctParams) (hpart : part ∈ e.parts) :
    part.DistinctParams :=
  fun params body hliteral => h params body (hliteral.part hpart)

/-! ## What canonical trees denote -/

theorem DenotesAll.toTrees {es : List Expr} (h : ∀ e ∈ es, Denotes e.toTree e) :
    DenotesAll (Expr.toTrees es) es := by
  induction es with
  | nil => exact .nil
  | cons e rest ih =>
    obtain ⟨he, hrest⟩ := List.forall_mem_cons.mp h
    exact .cons he (ih hrest)

/-- The members of a canonical tree are those of its expression, if this is true of the parts. -/
theorem Expr.denotesAs_toTree {e : Expr} (hparts : ∀ part ∈ e.parts, Denotes part.toTree part)
    (hparams : ∀ params body, e = .function params body → params.Nodup) :
    DenotesAs e.kind e.toTree e := by
  -- All members are found where they were put.
  cases e with
  | str text => exact .str (Tree.field?_ofFields ..)
  | int n =>
    have hmin := n.le_toInt
    have hmax := n.toInt_lt
    have hform : DenotesAs .int (Expr.int n).toTree (.int (Int32.ofInt n.toInt)) :=
      .number (Tree.field?_ofFields ..) (by omega) (by omega)
    rwa [Int32.ofInt_toInt] at hform
  | bool b => exact .bool (Tree.field?_ofFields ..)
  | tuple first second =>
    exact .tuple (Tree.field?_ofFields ..) (Tree.field?_ofFields ..) (hparts _ (.head _))
      (hparts _ (.tail _ (.head _)))
  | projection side source =>
    have hsource := hparts source (.head _)
    cases side with
    | first => exact .first (Tree.field?_ofFields ..) hsource
    | second => exact .second (Tree.field?_ofFields ..) hsource
  | binary op lhs rhs =>
    exact .binary (Tree.field?_ofFields ..) (Tree.textField?_of_field? (Tree.field?_ofFields ..))
      (Tree.field?_ofFields ..) (hparts _ (.head _)) (hparts _ (.tail _ (.head _)))
  | letIn name value next =>
    exact .letIn (Tree.field?_ofFields ..) (Tree.textField?_named name) (Tree.field?_ofFields ..)
      (Tree.field?_ofFields ..) (hparts _ (.head _)) (hparts _ (.tail _ (.head _)))
  | var name => exact .var (Tree.textField?_of_field? (Tree.field?_ofFields ..))
  | print inner => exact .print (Tree.field?_ofFields ..) (hparts _ (.head _))
  | cond condition consequent alternative =>
    exact .cond (Tree.field?_ofFields ..) (Tree.field?_ofFields ..) (Tree.field?_ofFields ..)
      (hparts _ (.head _)) (hparts _ (.tail _ (.head _)))
      (hparts _ (.tail _ (.tail _ (.head _))))
  | function params body =>
    exact .function (Tree.field?_ofFields ..) (Tree.textFields_named params)
      (hparams params body rfl) (Tree.field?_ofFields ..) (hparts _ (.head _))
  | call callee arguments =>
    obtain ⟨hcallee, harguments⟩ := List.forall_mem_cons.mp hparts
    exact .call (Tree.field?_ofFields ..) (Tree.field?_ofFields ..) hcallee (.toTrees harguments)

/-- A canonical tree denotes its expression if no function literal lists a parameter twice. -/
theorem Expr.denotes_toTree (e : Expr) : e.DistinctParams → Denotes e.toTree e := by
  induction e using Expr.parts_induction with
  | step e ih =>
    intro h
    refine .node e.textField?_kind_toTree (e.denotesAs_toTree ?_ ?_)
    · exact fun part hpart => ih part hpart (h.part hpart)
    · rintro params body rfl
      exact h params body .here

/-! ## Parameters that are listed twice -/

/-- The parameters of a function literal. -/
def Expr.ownParams : Expr → List (List String)
  | .function params _ => [params]
  | _ => []

mutual

/-- The parameters of all function literals in an expression, in the order of reading. Those of a
literal come before those in its body. -/
def Expr.parameterLists : Expr → List (List String)
  | .str _ | .int _ | .bool _ | .var _ => []
  | .tuple first second => first.parameterLists ++ second.parameterLists
  | .projection _ source => source.parameterLists
  | .binary _ lhs rhs => lhs.parameterLists ++ rhs.parameterLists
  | .letIn _ value next => value.parameterLists ++ next.parameterLists
  | .print inner => inner.parameterLists
  | .cond condition consequent alternative =>
    condition.parameterLists ++ (consequent.parameterLists ++ alternative.parameterLists)
  | .function params body => params :: body.parameterLists
  | .call callee arguments => callee.parameterLists ++ Expr.allParameterLists arguments

/-- The parameters of all function literals in the expressions. -/
def Expr.allParameterLists : List Expr → List (List String)
  | [] => []
  | e :: es => e.parameterLists ++ Expr.allParameterLists es

end

theorem Expr.allParameterLists_eq (es : List Expr) :
    Expr.allParameterLists es = es.flatMap Expr.parameterLists := by
  induction es with
  | nil => rfl
  | cons e rest ih => rw [Expr.allParameterLists, ih, List.flatMap_cons]

/-- The parameters of a literal come first, then those in the parts. -/
theorem Expr.parameterLists_eq (e : Expr) :
    e.parameterLists = e.ownParams ++ e.parts.flatMap Expr.parameterLists := by
  cases e with
  | call callee arguments =>
    rw [Expr.parameterLists, Expr.allParameterLists_eq]
    rfl
  | _ => simp [Expr.parameterLists, Expr.ownParams, Expr.parts, Expr.operands]

theorem Expr.mem_parameterLists {params : List String} (e : Expr) :
    params ∈ e.parameterLists ↔ ∃ body, (Expr.function params body).OccursIn e := by
  constructor
  · induction e using Expr.parts_induction with
    | step e ih =>
      intro h
      rw [Expr.parameterLists_eq, List.mem_append, List.mem_flatMap] at h
      rcases h with hown | ⟨part, hpart, h⟩
      · cases e with
        | function params' body =>
          obtain rfl := List.mem_singleton.mp hown
          exact ⟨body, .here⟩
        | _ => cases hown
      · obtain ⟨body, hbody⟩ := ih part hpart h
        exact ⟨body, hbody.part hpart⟩
  · rintro ⟨body, h⟩
    induction h with
    | here => exact List.mem_cons_self
    | @operand e part hoperand _ ih =>
      have hpart : part ∈ e.parts := by
        cases e with
        | function _ _ => cases hoperand
        | _ => exact hoperand
      rw [Expr.parameterLists_eq]
      exact List.mem_append_right _ (List.mem_flatMap.mpr ⟨part, hpart, ih⟩)
    | body _ ih => exact List.mem_cons_of_mem _ ih

theorem Expr.distinctParams_iff {e : Expr} :
    e.DistinctParams ↔ ∀ params ∈ e.parameterLists, params.Nodup := by
  constructor
  · intro h params hmem
    obtain ⟨body, hliteral⟩ := e.mem_parameterLists.mp hmem
    exact h params body hliteral
  · intro h params body hliteral
    exact h params (e.mem_parameterLists.mpr ⟨body, hliteral⟩)

instance (e : Expr) : Decidable e.DistinctParams := decidable_of_iff _ Expr.distinctParams_iff.symm

/-! ## The defects of a canonical tree -/

theorem Kind.ofName?_name (kind : Kind) : Kind.ofName? kind.name = some kind :=
  Kind.ofName?_eq_some.mpr rfl

/-- A member with a canonical tree has the defects of this tree. -/
theorem Tree.memberDefects_toTree {tree : Tree} {field : String} {kind : Kind} {e : Expr}
    (h : tree.field? field = some e.toTree) :
    (tree.memberDefects field (.malformedField kind field) fun c _ =>
      if c.isObject then c.defects else [.malformedField kind field]) = e.toTree.defects := by
  rw [Tree.memberDefects_of_some h, if_pos e.isObject_toTree]

theorem Tree.argumentDefects_toTrees (es : List Expr) :
    Tree.argumentDefects (Expr.toTrees es) = es.flatMap fun e => e.toTree.defects := by
  induction es with
  | nil => rw [Expr.toTrees, Tree.argumentDefects, List.flatMap_nil]
  | cons e rest ih =>
    rw [Expr.toTrees, Tree.argumentDefects, if_pos e.isObject_toTree, ih, List.flatMap_cons]

theorem Tree.literalDefects_eq_nil {α : Type} {tree value : Tree} {kind : Kind}
    {value? : Tree → Option α} {a : α} (h : tree.field? "value" = some value)
    (ha : value? value = some a) : tree.literalDefects kind value? = [] := by
  unfold Tree.literalDefects
  rw [h]
  dsimp only
  rw [ha]

theorem Tree.textDefects_eq_nil {kind : Kind} {field text : String} {text? : Option String}
    (h : text? = some text) : Tree.textDefects kind field text? = [] := by
  rw [h]
  rfl

/-- A canonical tree has no defects of its own but parameters that are listed twice, and these come
before the defects of the parts. -/
theorem Expr.defects_toTree_parts (e : Expr) :
    e.toTree.defects =
      (e.ownParams.flatMap fun params => Tree.paramDefects [] (params.map .named)) ++
        e.parts.flatMap fun part => part.toTree.defects := by
  rw [Tree.defects]
  simp only [e.textField?_kind_toTree, Kind.ofName?_name]
  -- Behind the name of its kind, a node has the members that are read from this kind.
  cases e with
  | str text =>
    exact Tree.literalDefects_eq_nil (Tree.field?_ofFields ..) (Tree.strLiteral?_eq_some.mpr rfl)
  | int n =>
    exact Tree.literalDefects_eq_nil (Tree.field?_ofFields ..)
      (Tree.intLiteral?_eq_some.mpr (.inl rfl))
  | bool b =>
    exact Tree.literalDefects_eq_nil (Tree.field?_ofFields ..)
      (Tree.boolLiteral?_eq_some.mpr (.inl rfl))
  | var name =>
    exact Tree.textDefects_eq_nil (Tree.textField?_of_field? (Tree.field?_ofFields ..))
  | tuple first second =>
    dsimp only [Expr.kind]
    rw [Tree.memberDefects_toTree (Tree.field?_ofFields ..),
      Tree.memberDefects_toTree (Tree.field?_ofFields ..)]
    simp [Expr.ownParams, Expr.parts, Expr.operands]
  | projection side source =>
    cases side with
    | first | second =>
      dsimp only [Expr.kind, Side.kind]
      rw [Tree.memberDefects_toTree (Tree.field?_ofFields ..)]
      simp [Expr.ownParams, Expr.parts, Expr.operands]
  | binary op lhs rhs =>
    dsimp only [Expr.kind]
    rw [Tree.memberDefects_toTree (Tree.field?_ofFields ..),
      Tree.textDefects_eq_nil (Tree.textField?_of_field? (Tree.field?_ofFields ..)),
      Tree.memberDefects_toTree (Tree.field?_ofFields ..)]
    simp [Expr.ownParams, Expr.parts, Expr.operands]
  | letIn name value next =>
    dsimp only [Expr.kind]
    have hname : (Expr.letIn name value next).toTree.boundName? = some name :=
      Option.bind_eq_some_iff.mpr ⟨_, Tree.field?_ofFields .., Tree.textField?_named name⟩
    rw [Tree.textDefects_eq_nil hname, Tree.memberDefects_toTree (Tree.field?_ofFields ..),
      Tree.memberDefects_toTree (Tree.field?_ofFields ..)]
    simp [Expr.ownParams, Expr.parts, Expr.operands]
  | print inner =>
    dsimp only [Expr.kind]
    rw [Tree.memberDefects_toTree (Tree.field?_ofFields ..)]
    simp [Expr.ownParams, Expr.parts, Expr.operands]
  | cond condition consequent alternative =>
    dsimp only [Expr.kind]
    rw [Tree.memberDefects_toTree (Tree.field?_ofFields ..),
      Tree.memberDefects_toTree (Tree.field?_ofFields ..),
      Tree.memberDefects_toTree (Tree.field?_ofFields ..)]
    simp [Expr.ownParams, Expr.parts, Expr.operands]
  | function params body =>
    dsimp only [Expr.kind]
    have hentries : ((Expr.function params body).toTree.field? "parameters").bind Tree.items? =
        some (params.map .named) :=
      Option.bind_eq_some_iff.mpr ⟨_, Tree.field?_ofFields .., rfl⟩
    rw [hentries, Tree.memberDefects_toTree (Tree.field?_ofFields ..)]
    simp [Expr.ownParams, Expr.parts]
  | call callee arguments =>
    dsimp only [Expr.kind]
    rw [Tree.memberDefects_toTree (Tree.field?_ofFields ..),
      Tree.memberDefects_of_some (Tree.field?_ofFields ..)]
    dsimp only
    rw [Tree.argumentDefects_toTrees]
    simp [Expr.ownParams, Expr.parts, Expr.operands]

/-- The defects of a canonical tree are the parameters that are listed twice. -/
theorem Expr.defects_toTree (e : Expr) :
    e.toTree.defects =
      e.parameterLists.flatMap fun params => Tree.paramDefects [] (params.map .named) := by
  induction e using Expr.parts_induction with
  | step e ih =>
    rw [Expr.defects_toTree_parts, Expr.parameterLists_eq, List.flatMap_append,
      List.flatMap_assoc]
    exact congrArg _ (List.flatMap_congr ih)

/-! ## The first repeated parameter -/

/-- The names before this one are different, and it is one of them. -/
def FirstRepeated (params : List String) (name : String) : Prop :=
  ∃ seen rest, params = seen ++ name :: rest ∧ seen.Nodup ∧ name ∈ seen

/-- The name is the first one that is repeated by the first function literal that lists a parameter
twice. -/
def Expr.FirstRepeatedParam (e : Expr) (name : String) : Prop :=
  ∃ before params after, e.parameterLists = before ++ params :: after ∧
    (∀ earlier ∈ before, earlier.Nodup) ∧ FirstRepeated params name

theorem exists_firstRepeated {params : List String} (h : ¬ params.Nodup) :
    ∃ name, FirstRepeated params name := by
  induction params using List.reverseRecOn with
  | nil => exact absurd List.nodup_nil h
  | append_singleton init last ih =>
    by_cases hinit : init.Nodup
    · have hlast : last ∈ init := by
        by_contra hnew
        exact h (List.nodup_append.mpr ⟨hinit, List.nodup_singleton last, by grind⟩)
      exact ⟨last, init, [], rfl, hinit, hlast⟩
    · obtain ⟨name, seen, rest, rfl, hseen⟩ := ih hinit
      exact ⟨name, seen, rest ++ [last], by simp, hseen⟩

theorem Expr.exists_firstRepeatedParam {e : Expr} (h : ¬ e.DistinctParams) :
    ∃ name, e.FirstRepeatedParam name := by
  have hfind : (e.parameterLists.find? fun params => !decide params.Nodup).isSome := by
    rw [Expr.distinctParams_iff] at h
    rw [List.find?_isSome]
    simpa using h
  obtain ⟨params, hparams⟩ := Option.isSome_iff_exists.mp hfind
  obtain ⟨hfound, before, after, heq, hearlier⟩ := List.find?_eq_some_iff_append.mp hparams
  have hrepeats : ¬ params.Nodup := by simpa using hfound
  have hbefore : ∀ earlier ∈ before, earlier.Nodup := by simpa using hearlier
  obtain ⟨name, hname⟩ := exists_firstRepeated hrepeats
  exact ⟨name, before, params, after, heq, hbefore, hname⟩

section

variable {earlier : List String}

/-- New names that are different have no defects. -/
theorem Tree.paramDefects_named_eq_nil {params : List String} (h : params.Nodup)
    (hnew : ∀ name ∈ params, name ∉ earlier) :
    Tree.paramDefects earlier (params.map .named) = [] := by
  induction params generalizing earlier with
  | nil => rfl
  | cons name rest ih =>
    obtain ⟨hname, hrest⟩ := List.nodup_cons.mp h
    obtain ⟨hfree, hnew⟩ := List.forall_mem_cons.mp hnew
    rw [List.map_cons, Tree.paramDefects, Tree.textField?_named]
    dsimp only
    rw [if_neg hfree]
    refine ih hrest fun other hother => ?_
    rw [List.mem_cons, not_or]
    exact ⟨fun heq => hname (heq ▸ hother), hnew other hother⟩

/-- The first name that is one of those before it is a defect. -/
theorem Tree.head?_paramDefects_named {seen rest : List String} {name : String} (h : seen.Nodup)
    (hnew : ∀ other ∈ seen, other ∉ earlier) (hname : name ∈ seen ∨ name ∈ earlier) :
    (Tree.paramDefects earlier ((seen ++ name :: rest).map .named)).head? =
      some (.duplicateParameter name) := by
  induction seen generalizing earlier with
  | nil =>
    have hname : name ∈ earlier := hname.resolve_left List.not_mem_nil
    rw [List.nil_append, List.map_cons, Tree.paramDefects, Tree.textField?_named]
    dsimp only
    rw [if_pos hname]
    rfl
  | cons first seen ih =>
    obtain ⟨hfirst, hseen⟩ := List.nodup_cons.mp h
    obtain ⟨hfree, hnew⟩ := List.forall_mem_cons.mp hnew
    rw [List.cons_append, List.map_cons, Tree.paramDefects, Tree.textField?_named]
    dsimp only
    rw [if_neg hfree]
    refine ih hseen (fun other hother => ?_) ?_
    · rw [List.mem_cons, not_or]
      exact ⟨fun heq => hfirst (heq ▸ hother), hnew other hother⟩
    · rw [List.mem_cons] at hname ⊢
      grind

end

theorem Expr.FirstRepeatedParam.head?_defects {e : Expr} {name : String}
    (h : e.FirstRepeatedParam name) :
    e.toTree.defects.head? = some (.duplicateParameter name) := by
  obtain ⟨before, params, after, hlists, hbefore, seen, rest, rfl, hseen, hname⟩ := h
  have hnone : (before.flatMap fun params => Tree.paramDefects [] (params.map .named)) = [] :=
    List.flatMap_eq_nil_iff.mpr fun params hparams =>
      Tree.paramDefects_named_eq_nil (hbefore params hparams) fun _ _ => List.not_mem_nil
  rw [Expr.defects_toTree, hlists, List.flatMap_append, hnone, List.nil_append, List.flatMap_cons,
    List.head?_append, Tree.head?_paramDefects_named hseen (fun _ _ => List.not_mem_nil)
      (.inl hname), Option.some_or]

theorem Expr.FirstRepeatedParam.unique {e : Expr} {name other : String}
    (h : e.FirstRepeatedParam name) (h' : e.FirstRepeatedParam other) : other = name := by
  have heq := h'.head?_defects.symm.trans h.head?_defects
  exact BuildError.duplicateParameter.inj (Option.some.inj heq)

/-! ## Building canonical trees -/

/-- A tree that has a member is an object with members. -/
theorem Tree.exists_of_field? {tree child : Tree} {name : String}
    (h : tree.field? name = some child) : ∃ entry rest, tree = .object (entry :: rest) := by
  cases tree with
  | object fields =>
    cases fields with
    | nil => cases h
    | cons entry rest => exact ⟨entry, rest, rfl⟩
  | _ => cases h

/-- The tree of a program is built like that of its expression. -/
theorem Expr.ofProgram_program (e : Expr) :
    Expr.ofProgram (.program e.toTree) = Expr.ofTree e.toTree := by
  obtain ⟨kind, hkind, -⟩ := Option.bind_eq_some_iff.mp e.textField?_kind_toTree
  obtain ⟨entry, rest, htree⟩ := Tree.exists_of_field? hkind
  have hmember : (Tree.program e.toTree).field? "expression" = some e.toTree :=
    Tree.field?_ofFields ..
  unfold Expr.ofProgram
  rw [hmember, htree]

/-- Building undoes writing, and writing undoes building up to the spelling. The canonical tree of
an expression is built to this expression, also as a program, if each function literal in it lists
different parameters. Else the error names the first repeated parameter of the first literal that
has one, in the order of reading. And if an expression was built from any tree, its literals list
different parameters, so its canonical tree is built to it. -/
theorem Expr.ofTree_toTree (e : Expr) (log : Log) :
    (e.DistinctParams →
      Build.answer (Expr.ofTree e.toTree) log = .ok e ∧
      Build.answer (Expr.ofProgram (.program e.toTree)) log = .ok e) ∧
    (¬ e.DistinctParams → ∃ name, e.FirstRepeatedParam name ∧
      Build.answer (Expr.ofTree e.toTree) log = .error (.duplicateParameter name) ∧
      Build.answer (Expr.ofProgram (.program e.toTree)) log = .error (.duplicateParameter name)) ∧
    (∀ tree log', Build.answer (Expr.ofTree tree) log' = .ok e →
      e.DistinctParams ∧ Build.answer (Expr.ofTree e.toTree) log = .ok e) := by
  have hbuilt : e.DistinctParams → Build.answer (Expr.ofTree e.toTree) log = .ok e :=
    fun h => (Expr.accepts_ofTree e.toTree log e).mpr (e.denotes_toTree h)
  rw [Expr.ofProgram_program]
  refine ⟨fun h => ⟨hbuilt h, hbuilt h⟩, fun h => ?_, fun tree log' htree => ?_⟩
  · obtain ⟨name, hname⟩ := Expr.exists_firstRepeatedParam h
    have herror : Build.answer (Expr.ofTree e.toTree) log = .error (.duplicateParameter name) :=
      (Expr.reports_ofTree e.toTree).answer_eq_error.mpr hname.head?_defects
    exact ⟨name, hname, herror, herror⟩
  · have hdistinct := Expr.distinctParams_of_built (.inl htree)
    exact ⟨hdistinct, hbuilt hdistinct⟩

/-- Of two literals that list a parameter twice, the one that is read first is in the body of a
literal that does not. An integer that is spelled in a string is written as a number. -/
theorem Expr.ofTree_toTree_nested :
    let inner : Expr := .function ["p", "q", "q", "p"] (.var "p")
    let e : Expr := .call (.function ["x", "y"] inner) [.function ["z", "z"] (.var "z"), .int 1]
    let spelled := Tree.node .int [("value", .str "+1")]
    ¬ e.DistinctParams ∧
    Build.answer (Expr.ofTree e.toTree) Log.off = .error (.duplicateParameter "q") ∧
    Build.answer (Expr.ofProgram (.program e.toTree)) Log.off = .error (.duplicateParameter "q") ∧
    Build.answer (Expr.ofTree spelled) Log.off = .ok (.int 1) ∧
    spelled ≠ (Expr.int 1).toTree ∧
    (Expr.int 1).DistinctParams ∧
    Build.answer (Expr.ofTree (Expr.int 1).toTree) Log.off = .ok (.int 1) := by
  intro inner e spelled
  have hrepeats : ¬ e.DistinctParams := by decide
  have hfirst : e.FirstRepeatedParam "q" :=
    ⟨[["x", "y"]], ["p", "q", "q", "p"], [["z", "z"]], rfl, by decide, ["p", "q"], ["p"], rfl,
      by decide, by decide⟩
  obtain ⟨name, hname, htree, hprogram⟩ := (Expr.ofTree_toTree e Log.off).2.1 hrepeats
  obtain rfl : name = "q" := hfirst.unique hname
  have hread : Numeral.readInt32 "+1" = .ok 1 := by decide
  have hdenotes : Denotes spelled (.int (Int32.ofInt 1)) :=
    .node (Tree.textField?_of_field? (Tree.field?_ofFields ..))
      (.numeral (Tree.field?_ofFields ..) (Numeral.readInt32_eq_ok.mp hread) (by decide)
        (by decide))
  have hspelled : Build.answer (Expr.ofTree spelled) Log.off = .ok (.int 1) :=
    (Expr.accepts_ofTree spelled Log.off (.int 1)).mpr hdenotes
  obtain ⟨hdistinct, hbuilt⟩ := (Expr.ofTree_toTree (.int 1) Log.off).2.2 spelled Log.off hspelled
  refine ⟨hrepeats, htree, hprogram, hspelled, ?_, hdistinct, hbuilt⟩
  intro heq
  have hvalue := (Tree.field?_ofFields ..).symm.trans (congrArg (Tree.field? "value") heq)
  cases hvalue.trans (Tree.field?_ofFields ..)

end TreeLang
