import Mathlib.Data.List.Forall2
import TreeLang.Expr.Outline

/-!
# The layout of an expression

The outline of an expression is laid out level by level: what stands inside of something is its own
layout with every line four columns deeper and a comma at the end. `Expr.layout` says this without
levels. An outline is printed with the level of each line instead, which comes to the same, since
names, numerals and quoted texts take one line each (`Expr.outlineText_eq_layout`).
-/

namespace TreeLang

/-! ## Texts of one line -/

theorem newline_notMem_toDigits {b : Nat} (hb : 1 < b) (n : Nat) : '\n' ∉ Nat.toDigits b n := by
  induction n using Nat.strongRecOn with
  | ind n ih =>
    by_cases hn : n < b
    · rw [Nat.toDigits_of_lt_base hn, List.mem_singleton]
      exact (Nat.digitChar_ne '\n' rfl).symm
    · have hle : b ≤ n := Nat.le_of_not_lt hn
      rw [Nat.toDigits_of_base_le hb hle, List.mem_append, List.mem_singleton]
      rintro (hmem | heq)
      · exact ih (n / b) (Nat.div_lt_self (by omega) hb) hmem
      · exact Nat.digitChar_ne '\n' rfl heq.symm

theorem Numeral.newline_notMem_ofInt (n : Int) : '\n' ∉ Numeral.ofInt n := by
  have hdigits := newline_notMem_toDigits (by decide : 1 < 10) n.natAbs
  unfold Numeral.ofInt
  split
  · rw [List.mem_cons, not_or]
    exact ⟨by decide, hdigits⟩
  · exact hdigits

theorem Quoted.newline_notMem_escape (c : Char) : '\n' ∉ Quoted.escape c := by
  fun_cases Quoted.escape c with
  | case7 _ _ _ hnewline =>
    rw [List.mem_singleton]
    exact fun h => hnewline h.symm
  | case8 =>
    have hdigits := newline_notMem_toDigits (by decide : 1 < 16) c.toNat
    simp [Quoted.hexDigits, hdigits]
  | _ => decide

/-- A quoted text takes one line. -/
theorem Quoted.newline_notMem_encode (text : String) : '\n' ∉ (Quoted.encode text).toList := by
  have hescapes : '\n' ∉ text.toList.flatMap Quoted.escape := by
    rw [List.mem_flatMap]
    rintro ⟨c, -, hc⟩
    exact Quoted.newline_notMem_escape c hc
  simp [Quoted.encode, hescapes]

/-! ## Layouts -/

namespace Layout

/-- What becomes of a character when the lines of its text move to the right. -/
def deepenChar (columns : Nat) (c : Char) : List Char :=
  if c = '\n' then '\n' :: List.replicate columns ' ' else [c]

/-- A text with every line but the first one so many columns deeper. -/
def deepen (columns : Nat) (text : String) : String :=
  String.ofList (text.toList.flatMap (deepenChar columns))

/-- Texts one below the other, each four columns deeper and with a comma behind it. -/
def entries (texts : List String) : String :=
  String.join (texts.map fun text => "    " ++ deepen 4 text ++ ",\n")

theorem entries_cons (text : String) (texts : List String) :
    entries (text :: texts) = "    " ++ deepen 4 text ++ ",\n" ++ entries texts := by
  rw [entries, List.map_cons, String.join_cons]
  rfl

/-- Texts between an opening and a closing. -/
def enclose (opening closing : String) (texts : List String) : String :=
  opening ++ "\n" ++ entries texts ++ closing

/-- Something with its parts. -/
def parens (name : String) (parts : List String) : String :=
  enclose (name ++ "(") ")" parts

/-- A part with its name in front. -/
def field (name text : String) : String := name ++ ": " ++ text

/-- Something with parts that have names. -/
def braces (name : String) (fields : List (String × String)) : String :=
  enclose (name ++ " \x7b") "\x7d" (fields.map fun (name, text) => field name text)

/-- The name of a side. -/
def side : Side → String
  | .first => "First"
  | .second => "Second"

/-- A list. -/
def brackets : List String → String
  | [] => "[]"
  | item :: items => enclose "[" "]" (item :: items)

end Layout

open Layout (parens braces brackets)

mutual

/-- The layout of an expression. -/
def Expr.layout : Expr → String
  | .str text => parens "Str" [Quoted.encode text]
  | .int value => parens "Int" [String.ofList (Numeral.ofInt value.toInt)]
  | .bool value => parens "Bool" [if value then "true" else "false"]
  | .tuple first second => braces "Tuple" [("first", first.layout), ("second", second.layout)]
  | .projection side source =>
    braces "Projection" [("which", Layout.side side), ("source", source.layout)]
  | .binary op lhs rhs =>
    braces "Binary" [("op", Quoted.encode op), ("lhs", lhs.layout), ("rhs", rhs.layout)]
  | .letIn name value next =>
    braces "Let" [("name", Quoted.encode name), ("value", value.layout), ("next", next.layout)]
  | .var name => parens "Var" [Quoted.encode name]
  | .print inner => parens "Print" [inner.layout]
  | .cond condition consequent alternative =>
    braces "If" [("condition", condition.layout), ("then_branch", consequent.layout),
      ("else_branch", alternative.layout)]
  | .function params body =>
    parens "Function" [braces "FunctionDef"
      [("params", brackets (params.map Quoted.encode)), ("body", body.layout)]]
  | .call callee arguments =>
    braces "Call" [("callee", callee.layout), ("arguments", brackets (Expr.layouts arguments))]

/-- The layouts of expressions in order. -/
def Expr.layouts : List Expr → List String
  | [] => []
  | e :: rest => e.layout :: Expr.layouts rest

end

namespace Layout

variable {columns : Nat} {text name : String}

/-! ## Deeper lines -/

theorem deepen_append (columns : Nat) (first second : String) :
    deepen columns (first ++ second) = deepen columns first ++ deepen columns second := by
  rw [deepen, String.toList_append, List.flatMap_append, String.ofList_append]
  rfl

theorem flatMap_deepenChar_of_notMem {chars : List Char} (h : '\n' ∉ chars) :
    chars.flatMap (deepenChar columns) = chars := by
  induction chars with
  | nil => rfl
  | cons c chars ih =>
    rw [List.mem_cons, not_or] at h
    obtain ⟨hne, hrest⟩ := h
    rw [List.flatMap_cons, deepenChar, if_neg (Ne.symm hne), ih hrest]
    rfl

/-- A text of one line stays as it is. -/
theorem deepen_of_notMem (h : '\n' ∉ text.toList) : deepen columns text = text := by
  rw [deepen, flatMap_deepenChar_of_notMem h, String.ofList_toList]

theorem deepen_zero (text : String) : deepen 0 text = text := by
  have hchars : deepenChar 0 = fun c => [c] := by
    funext c
    by_cases hc : c = '\n'
    · rw [deepenChar, if_pos hc, hc]
      rfl
    · rw [deepenChar, if_neg hc]
  rw [deepen, hchars, List.flatMap_singleton', String.ofList_toList]

/-- Behind a line stands the indentation of the next one. -/
theorem deepen_line (level : Nat) (h : '\n' ∉ text.toList) :
    deepen (4 * level) (text ++ "\n") = text ++ "\n" ++ Outline.indent level := by
  have hnewline : deepen (4 * level) "\n" = "\n" ++ Outline.indent level := by
    have hchars : "\n".toList.flatMap (deepenChar (4 * level)) =
        "\n".toList ++ List.replicate (4 * level) ' ' := by simp [deepenChar]
    rw [deepen, hchars, String.ofList_append, String.ofList_toList]
    rfl
  rw [deepen_append, deepen_of_notMem h, hnewline, String.append_assoc]

theorem deepen_deepen (outer inner : Nat) (text : String) :
    deepen outer (deepen inner text) = deepen (outer + inner) text := by
  have hchar : ∀ c, (deepenChar inner c).flatMap (deepenChar outer) =
      deepenChar (outer + inner) c := by
    intro c
    by_cases hc : c = '\n'
    · have hblanks : (List.replicate inner ' ').flatMap (deepenChar outer) =
          List.replicate inner ' ' := flatMap_deepenChar_of_notMem (by simp)
      rw [deepenChar, if_pos hc, List.flatMap_cons, hblanks, deepenChar, if_pos rfl, deepenChar,
        if_pos hc, List.cons_append, List.replicate_append_replicate]
    · rw [deepenChar, if_neg hc, List.flatMap_singleton, deepenChar, if_neg hc, deepenChar,
        if_neg hc]
  rw [deepen, deepen, deepen, String.toList_ofList, List.flatMap_assoc]
  simp only [hchar]

/-! ## Printing lays out -/

/-- What is printed at a level has this layout, however deep the level. -/
def Lays (print : Nat → String) (text : String) : Prop :=
  ∀ level, print level = deepen (4 * level) text

/-- The lines of parts at a level. -/
def printAll (level : Nat) (prints : List (Nat → String)) : String :=
  String.join (prints.map fun print => Outline.indent level ++ print level ++ ",\n")

theorem printAll_cons (level : Nat) (print : Nat → String) (prints : List (Nat → String)) :
    printAll level (print :: prints) =
      Outline.indent level ++ print level ++ ",\n" ++ printAll level prints := by
  rw [printAll, List.map_cons, String.join_cons]
  rfl

theorem indent_succ (level : Nat) :
    Outline.indent (level + 1) = Outline.indent level ++ "    " := by
  rw [Outline.indent, Outline.indent, Nat.mul_add, ← List.replicate_append_replicate,
    String.ofList_append]
  rfl

theorem Lays.deepen_entry {print : Nat → String} (h : Lays print text) (level : Nat) :
    deepen (4 * level) ("    " ++ deepen 4 text ++ ",\n") =
      "    " ++ print (level + 1) ++ ",\n" ++ Outline.indent level := by
  have hcomma : deepen (4 * level) ",\n" = ",\n" ++ Outline.indent level :=
    deepen_line level (by decide : '\n' ∉ ",".toList)
  rw [deepen_append, deepen_append, deepen_of_notMem (by decide), deepen_deepen, hcomma,
    h (level + 1)]
  simp only [Nat.mul_add, String.append_assoc]

/-- Below each other at the next level, parts have their layouts four columns deeper. The
indentation in front of the first entry comes back behind the last one, for what closes them. -/
theorem printAll_of_lays {prints : List (Nat → String)} {texts : List String}
    (h : List.Forall₂ Lays prints texts) (level : Nat) :
    printAll (level + 1) prints ++ Outline.indent level =
      Outline.indent level ++ deepen (4 * level) (entries texts) := by
  induction h with
  | nil =>
    show "" ++ Outline.indent level = Outline.indent level ++ ""
    simp
  | @cons print text prints texts hlays _ ih =>
    calc printAll (level + 1) (print :: prints) ++ Outline.indent level
        = Outline.indent (level + 1) ++ print (level + 1) ++ ",\n" ++
            (printAll (level + 1) prints ++ Outline.indent level) := by
          rw [printAll_cons, String.append_assoc]
      _ = Outline.indent level ++ ("    " ++ print (level + 1) ++ ",\n" ++ Outline.indent level ++
            deepen (4 * level) (entries texts)) := by
          rw [ih, indent_succ]
          simp only [String.append_assoc]
      _ = Outline.indent level ++ deepen (4 * level) (entries (text :: texts)) := by
          rw [← hlays.deepen_entry, ← deepen_append, entries_cons]

/-- What is printed at a level with parts between an opening and a closing. -/
def printEnclosed (opening closing : String) (prints : List (Nat → String)) (level : Nat) :
    String :=
  opening ++ "\n" ++ printAll (level + 1) prints ++ Outline.indent level ++ closing

/-- Between an opening and a closing of one line, parts are laid out as entries. -/
theorem lays_enclose {prints : List (Nat → String)} {texts : List String}
    {opening closing : String} (hopening : '\n' ∉ opening.toList) (hclosing : '\n' ∉ closing.toList)
    (h : List.Forall₂ Lays prints texts) :
    Lays (printEnclosed opening closing prints) (enclose opening closing texts) := by
  intro level
  calc opening ++ "\n" ++ printAll (level + 1) prints ++ Outline.indent level ++ closing
      = opening ++ "\n" ++ (printAll (level + 1) prints ++ Outline.indent level) ++ closing := by
        simp only [String.append_assoc]
    _ = opening ++ "\n" ++ Outline.indent level ++ deepen (4 * level) (entries texts) ++
          closing := by
        rw [printAll_of_lays h]
        simp only [String.append_assoc]
    _ = deepen (4 * level) (enclose opening closing texts) := by
        rw [enclose, deepen_append, deepen_append, deepen_line level hopening,
          deepen_of_notMem hclosing]

/-! ## Outlines -/

/-- How a part is printed. -/
def print (part : Outline) (level : Nat) : String := part.render level

/-- How a part with its name is printed. -/
def printField (part : String × Outline) (level : Nat) : String :=
  field part.1 (print part.2 level)

theorem renderParts_eq_printAll (level : Nat) (parts : List Outline) :
    Outline.renderParts level parts = printAll level (parts.map print) := by
  induction parts with
  | nil => rfl
  | cons part parts ih => rw [Outline.renderParts, ih, List.map_cons, printAll_cons, print]

theorem renderFields_eq_printAll (level : Nat) (parts : List (String × Outline)) :
    Outline.renderFields level parts = printAll level (parts.map printField) := by
  induction parts with
  | nil => rfl
  | cons part parts ih =>
    rw [Outline.renderFields, ih, List.map_cons, printAll_cons]
    simp only [printField, field, print, String.append_assoc]

theorem print_items (name : String) (parts : List Outline) :
    print (.items name parts) = printEnclosed (name ++ "(") ")" (parts.map print) := by
  funext level
  rw [print, Outline.render, renderParts_eq_printAll, show "(\n" = "(" ++ "\n" from rfl,
    ← String.append_assoc]
  rfl

theorem print_record (name : String) (parts : List (String × Outline)) :
    print (.record name parts) =
      printEnclosed (name ++ " \x7b") "\x7d" (parts.map printField) := by
  funext level
  rw [print, Outline.render, renderFields_eq_printAll, show " \x7b\n" = " \x7b" ++ "\n" from rfl,
    ← String.append_assoc]
  rfl

theorem print_list (part : Outline) (parts : List Outline) :
    print (.list (part :: parts)) = printEnclosed "[" "]" ((part :: parts).map print) := by
  funext level
  rw [print, Outline.render, renderParts_eq_printAll]
  rfl

/-- What an outline prints has this layout. -/
def LaysOutline (part : Outline) (text : String) : Prop := Lays (print part) text

/-- What an outline prints behind a name of one line has this layout behind the same name. -/
inductive LaysField : String × Outline → String × String → Prop where
  | named {name text : String} {part : Outline} (line : '\n' ∉ name.toList)
    (h : LaysOutline part text) : LaysField (name, part) (name, text)

theorem LaysField.lays {part : String × Outline} {layout : String × String}
    (h : LaysField part layout) : Lays (printField part) (field layout.1 layout.2) := by
  obtain ⟨line, hpart⟩ := h
  have hcolon : '\n' ∉ ": ".toList := by decide
  intro level
  rw [printField, field, field, hpart level, deepen_append, deepen_append, deepen_of_notMem line,
    deepen_of_notMem hcolon]

theorem laysOutline_leaf (h : '\n' ∉ text.toList) : LaysOutline (.leaf text) text :=
  fun _ => (deepen_of_notMem h).symm

theorem laysOutline_ofText (text : String) : LaysOutline (.ofText text) (Quoted.encode text) :=
  laysOutline_leaf (Quoted.newline_notMem_encode text)

theorem laysOutline_side (side : Side) : LaysOutline side.outline (Layout.side side) := by
  cases side <;> exact laysOutline_leaf (by decide)

theorem laysOutline_items {parts : List Outline} {texts : List String}
    (hname : '\n' ∉ name.toList) (h : List.Forall₂ LaysOutline parts texts) :
    LaysOutline (.items name parts) (parens name texts) := by
  have hopening : '\n' ∉ (name ++ "(").toList := by simp [hname]
  rw [LaysOutline, print_items]
  exact lays_enclose hopening (by decide) (List.forall₂_map_left_iff.mpr h)

theorem laysOutline_record {parts : List (String × Outline)} {layouts : List (String × String)}
    (hname : '\n' ∉ name.toList) (h : List.Forall₂ LaysField parts layouts) :
    LaysOutline (.record name parts) (braces name layouts) := by
  have hopening : '\n' ∉ (name ++ " \x7b").toList := by simp [hname]
  have hfields := h.imp fun _ _ => LaysField.lays
  rw [LaysOutline, print_record]
  refine lays_enclose hopening (by decide) ?_
  exact List.forall₂_map_left_iff.mpr (List.forall₂_map_right_iff.mpr hfields)

theorem laysOutline_empty : LaysOutline (.list []) "[]" := by
  have hbrackets : '\n' ∉ "[]".toList := by decide
  exact fun _ => (deepen_of_notMem hbrackets).symm

theorem laysOutline_list {parts : List Outline} {texts : List String}
    (h : List.Forall₂ LaysOutline parts texts) : LaysOutline (.list parts) (brackets texts) := by
  cases h with
  | nil => exact laysOutline_empty
  | cons hpart hparts =>
    rw [LaysOutline, print_list]
    exact lays_enclose (by decide) (by decide) (List.forall₂_map_left_iff.mpr (.cons hpart hparts))

end Layout

open Layout

mutual

/-- An expression is printed with its layout. -/
theorem Expr.lays_outline : (e : Expr) → LaysOutline e.outline e.layout
  | .str text => laysOutline_items (by decide) (.cons (laysOutline_ofText text) .nil)
  | .int value =>
    have hnumeral : '\n' ∉ (String.ofList (Numeral.ofInt value.toInt)).toList := by
      rw [String.toList_ofList]
      exact Numeral.newline_notMem_ofInt _
    laysOutline_items (by decide) (.cons (laysOutline_leaf hnumeral) .nil)
  | .bool value =>
    have hbool : '\n' ∉ (if value then "true" else "false").toList := by cases value <;> decide
    laysOutline_items (by decide) (.cons (laysOutline_leaf hbool) .nil)
  | .tuple first second =>
    laysOutline_record (by decide) <|
      .cons (.named (by decide) first.lays_outline) <|
      .cons (.named (by decide) second.lays_outline) .nil
  | .projection side source =>
    laysOutline_record (by decide) <|
      .cons (.named (by decide) (laysOutline_side side)) <|
      .cons (.named (by decide) source.lays_outline) .nil
  | .binary op lhs rhs =>
    laysOutline_record (by decide) <|
      .cons (.named (by decide) (laysOutline_ofText op)) <|
      .cons (.named (by decide) lhs.lays_outline) <|
      .cons (.named (by decide) rhs.lays_outline) .nil
  | .letIn name value next =>
    laysOutline_record (by decide) <|
      .cons (.named (by decide) (laysOutline_ofText name)) <|
      .cons (.named (by decide) value.lays_outline) <|
      .cons (.named (by decide) next.lays_outline) .nil
  | .var name => laysOutline_items (by decide) (.cons (laysOutline_ofText name) .nil)
  | .print inner => laysOutline_items (by decide) (.cons inner.lays_outline .nil)
  | .cond condition consequent alternative =>
    laysOutline_record (by decide) <|
      .cons (.named (by decide) condition.lays_outline) <|
      .cons (.named (by decide) consequent.lays_outline) <|
      .cons (.named (by decide) alternative.lays_outline) .nil
  | .function params body =>
    have hparams : List.Forall₂ LaysOutline (params.map Outline.ofText)
        (params.map Quoted.encode) := by
      rw [List.forall₂_map_left_iff, List.forall₂_map_right_iff, List.forall₂_same]
      exact fun name _ => laysOutline_ofText name
    laysOutline_items (by decide) <| .cons (laysOutline_record (by decide) <|
      .cons (.named (by decide) (laysOutline_list hparams)) <|
      .cons (.named (by decide) body.lays_outline) .nil) .nil
  | .call callee arguments =>
    laysOutline_record (by decide) <|
      .cons (.named (by decide) callee.lays_outline) <|
      .cons (.named (by decide) (laysOutline_list (Expr.lays_outlines arguments))) .nil

theorem Expr.lays_outlines :
    (es : List Expr) → List.Forall₂ LaysOutline (Expr.outlines es) (Expr.layouts es)
  | [] => .nil
  | e :: rest => .cons e.lays_outline (Expr.lays_outlines rest)

end

/-- The outline text of an expression is its layout. -/
theorem Expr.outlineText_eq_layout (e : Expr) : e.outlineText = e.layout := by
  rw [← deepen_zero e.layout]
  exact e.lays_outline 0

end TreeLang
