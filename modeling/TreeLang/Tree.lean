import TreeLang.Binary64

/-!
# Syntax trees

A tree is an untyped document of null, booleans, numbers, strings, arrays and objects. A program
arrives as one, and `Expr.ofTree` decides which trees denote an expression.

An object lists its members by strictly ascending name; `Fields.insert` keeps the order, and a
later member replaces an earlier one of the same name. Looking a member up does not need the
order.
-/

namespace TreeLang

/-- An untyped syntax tree. -/
inductive Tree where
  /-- The null value. -/
  | null
  /-- A truth value. -/
  | bool (value : Bool)
  /-- A number that is written as an integer. -/
  | int (value : Int)
  /-- A number that is held as a double. -/
  | float (value : Binary64)
  /-- A text. -/
  | str (text : String)
  /-- A sequence of trees. -/
  | array (items : List Tree)
  /-- Named members. -/
  | object (fields : List (String × Tree))

namespace Fields

/-- The member of the given name. -/
def get? (name : String) : List (String × Tree) → Option Tree
  | [] => none
  | (key, value) :: rest => if key = name then some value else get? name rest

/-- Puts a member at its place in the ascending order, over any member of the same name. -/
def insert (name : String) (value : Tree) : List (String × Tree) → List (String × Tree)
  | [] => [(name, value)]
  | (key, old) :: rest =>
    if name = key then (name, value) :: rest
    else if name < key then (name, value) :: (key, old) :: rest
    else (key, old) :: insert name value rest

/-- The members of an object whose entries are read in this order. -/
def ofList (entries : List (String × Tree)) : List (String × Tree) :=
  entries.foldl (fun fields entry => insert entry.1 entry.2 fields) []

end Fields

namespace Tree

/-- The member of the given name, if the tree is an object that has one. -/
def field? (name : String) : Tree → Option Tree
  | object fields => Fields.get? name fields
  | _ => none

/-- The text of a string. -/
def text? : Tree → Option String
  | str text => some text
  | _ => none

/-- The elements of an array. -/
def items? : Tree → Option (List Tree)
  | array items => some items
  | _ => none

/-- Whether the tree is an object. -/
def isObject : Tree → Bool
  | object _ => true
  | _ => false

/-- The string member of the given name. -/
def textField? (name : String) (tree : Tree) : Option String :=
  (tree.field? name).bind text?

/-- An object with these entries. -/
def ofFields (entries : List (String × Tree)) : Tree :=
  object (Fields.ofList entries)

end Tree

/-- A member that is found is one of the members. -/
theorem Fields.mem_of_get? {name : String} {child : Tree} :
    ∀ {fields : List (String × Tree)}, Fields.get? name fields = some child →
      (name, child) ∈ fields
  | [], h => by simp [Fields.get?] at h
  | (key, value) :: rest, h => by
    unfold Fields.get? at h
    split at h
    · rename_i hkey
      cases h
      simp [hkey]
    · exact List.mem_cons_of_mem _ (Fields.mem_of_get? h)

/-- A member is smaller than the tree that holds it. -/
theorem Tree.sizeOf_field? {name : String} {child tree : Tree}
    (h : tree.field? name = some child) : sizeOf child < sizeOf tree := by
  cases tree with
  | object fields =>
    have hmem := List.sizeOf_lt_of_mem (Fields.mem_of_get? h)
    simp only [Prod.mk.sizeOf_spec] at hmem
    simp only [Tree.object.sizeOf_spec]
    omega
  | _ => simp [Tree.field?] at h

end TreeLang
