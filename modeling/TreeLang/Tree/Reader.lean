import TreeLang.Tree.Reader.Numbers
import TreeLang.Tree.Reader.Strings

/-!
# Reading the text of a tree

The text is read strictly: no comments, no trailing commas, nothing but blanks behind the value.
Arrays and objects nest at most 127 levels deep. Of two members with one name the later one stays.

Reading goes from the left and stops at the first offence. Every step leaves a shorter rest, which
is what ends the recursion.
-/

namespace TreeLang

namespace Tree

/-- The number of levels to which arrays and objects may nest. -/
def maxLevels : Nat := 127

/-- Space, tab, line feed and carriage return. -/
def isBlank (b : UInt8) : Bool := b = 32 || b = 9 || b = 10 || b = 13

/-- Drops blanks in front. -/
def skipBlanks (s : Bytes) : { rest : Bytes // rest.length ≤ s.length } :=
  ⟨s.dropWhile isBlank, (List.dropWhile_suffix _).length_le⟩

/-- Reads what a word goes on with behind its first letter. -/
def readWord : (word s : Bytes) → Except Offence { rest : Bytes // rest.length ≤ s.length }
  | [], s => .ok ⟨s, Nat.le_refl _⟩
  | _ :: _, [] => .error (.taken .endInValue [])
  | w :: word, b :: s =>
    if b = w then
      match readWord word s with
      | .error e => .error e
      | .ok ⟨rest, h⟩ => .ok ⟨rest, by simp only [List.length_cons]; omega⟩
    else .error (.taken .expectedWord s)

/-- A value that was read from a text shorter than `bound`, with the rest of that text. -/
abbrev Read (α : Type) (bound : Nat) : Type :=
  Except Offence (α × { rest : Bytes // rest.length < bound })

/-- Reads the value of a word whose first letter is taken. -/
def readConstant (value : Tree) (word s : Bytes) : Read Tree (s.length + 1) :=
  match readWord word s with
  | .error e => .error e
  | .ok ⟨rest, h⟩ => .ok (value, ⟨rest, by omega⟩)

/-- Reads a number. -/
def readNumber (s : Bytes) : Read Tree s.length :=
  match h : Number.read s with
  | .error e => .error e
  | .ok (tree, rest) => .ok (tree, ⟨rest, Number.read_length h⟩)

/-- A result that holds for a smaller bound holds for a larger one. -/
def Read.widen {α : Type} {m n : Nat} (h : m ≤ n) : Read α m → Read α n
  | .error e => .error e
  | .ok (value, ⟨rest, hrest⟩) => .ok (value, ⟨rest, Nat.lt_of_lt_of_le hrest h⟩)

mutual

/-- Reads a value, behind blanks; `levels` more levels of arrays and objects may be opened. -/
def readValue (levels : Nat) (s : Bytes) : Read Tree s.length :=
  match skipBlanks s with
  | ⟨[], _⟩ => .error (.taken .endInValue [])
  | ⟨b :: rest, h⟩ =>
    have hrest : rest.length < s.length := h
    if b = 110 then (readConstant .null [117, 108, 108] rest).widen hrest
    else if b = 116 then (readConstant (.bool true) [114, 117, 101] rest).widen hrest
    else if b = 102 then (readConstant (.bool false) [97, 108, 115, 101] rest).widen hrest
    else if b = 34 then
      match Strings.readString s.length rest ByteArray.empty (by omega) with
      | .error e => .error e
      | .ok (text, behind) => .ok (.str text, behind)
    else if b = 45 || Number.isDigit b then (readNumber (b :: rest)).widen h
    else if b = 91 then
      match levels with
      | 0 => .error (.seen .nestedTooDeep (b :: rest))
      | levels + 1 => (readItems levels true [] rest).widen (by omega)
    else if b = 123 then
      match levels with
      | 0 => .error (.seen .nestedTooDeep (b :: rest))
      | levels + 1 => (readFields levels true [] rest).widen (by omega)
    else .error (.seen .expectedValue (b :: rest))
termination_by 2 * s.length
decreasing_by all_goals (simp only [List.length_cons] at *; omega)

/-- Reads what is left of an array, whose elements so far are `done` in reverse. -/
def readItems (levels : Nat) (first : Bool) (done : List Tree) (s : Bytes) : Read Tree s.length :=
  match skipBlanks s with
  | ⟨[], _⟩ => .error (.taken .endInArray [])
  | ⟨b :: rest, h⟩ =>
    have hrest : rest.length < s.length := h
    if b = 93 then .ok (.array done.reverse, ⟨rest, hrest⟩)
    else if first then
      match readValue levels (b :: rest) with
      | .error e => .error e
      | .ok (item, ⟨behind, _⟩) =>
        (readItems levels false (item :: done) behind).widen (by omega)
    else if b = 44 then
      match skipBlanks rest with
      | ⟨[], _⟩ => .error (.taken .endInValue [])
      | ⟨c :: behind, hbehind⟩ =>
        if c = 93 then .error (.seen .trailingComma (c :: behind))
        else
          match readValue levels (c :: behind) with
          | .error e => .error e
          | .ok (item, ⟨after, _⟩) =>
            (readItems levels false (item :: done) after).widen (by omega)
    else .error (.seen .expectedCommaOrBracket (b :: rest))
termination_by 2 * s.length + 1
decreasing_by all_goals (simp only [List.length_cons] at *; omega)

/-- Reads what is left of an object, whose members so far are `done`. -/
def readFields (levels : Nat) (first : Bool) (done : List (String × Tree)) (s : Bytes) :
    Read Tree s.length :=
  match skipBlanks s with
  | ⟨[], _⟩ => .error (.taken .endInObject [])
  | ⟨b :: rest, h⟩ =>
    have hrest : rest.length < s.length := h
    if b = 125 then .ok (.object done, ⟨rest, hrest⟩)
    else if first then (readField levels done (b :: rest)).widen h
    else if b = 44 then
      match skipBlanks rest with
      | ⟨[], _⟩ => .error (.taken .endInValue [])
      | ⟨c :: behind, hbehind⟩ =>
        if c = 125 then .error (.seen .trailingComma (c :: behind))
        else (readField levels done (c :: behind)).widen (by omega)
    else .error (.seen .expectedCommaOrBrace (b :: rest))
termination_by 2 * s.length + 1
decreasing_by all_goals (simp only [List.length_cons] at *; omega)

/-- Reads a member from its name on, and what is left of its object. -/
def readField (levels : Nat) (done : List (String × Tree)) (s : Bytes) : Read Tree s.length :=
  match s with
  | 34 :: rest =>
    match Strings.readString (rest.length + 1) rest ByteArray.empty (by omega) with
    | .error e => .error e
    | .ok (name, ⟨behind, _⟩) =>
      match skipBlanks behind with
      | ⟨[], _⟩ => .error (.taken .endInObject [])
      | ⟨c :: after, h⟩ =>
        if c = 58 then
          match readValue levels after with
          | .error e => .error e
          | .ok (value, ⟨more, _⟩) =>
            (readFields levels false (Fields.insert name value done) more).widen
              (by simp only [List.length_cons] at h ⊢; omega)
        else .error (.seen .expectedColon (c :: after))
  | s => .error (.seen .keyNotString s)
termination_by 2 * s.length
decreasing_by all_goals (simp only [List.length_cons] at *; omega)

end

/-- Reads a whole text. -/
def readBytes (s : Bytes) : Except Offence Tree :=
  match readValue maxLevels s with
  | .error e => .error e
  | .ok (tree, ⟨rest, _⟩) =>
    match skipBlanks rest with
    | ⟨[], _⟩ => .ok tree
    | ⟨rest, _⟩ => .error (.seen .trailingCharacters rest)

/-- The tree that a text stands for, or the first offence in it. -/
def ofText (text : String) : Except TextError Tree :=
  let bytes := text.toUTF8.toList
  (readBytes bytes).mapError (TextError.locate bytes)

end Tree

end TreeLang
