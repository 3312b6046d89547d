import TreeLang.Value

/-!
# Environments

An environment holds the bindings of one frame: a finite map from names to values. A frame has a
single flat scope, so binding a name again replaces its value. A frame that is entered by a call
inherits those bindings of the caller whose names it does not bind itself.

The bindings are kept in a list with no name twice; their order means nothing.
-/

namespace TreeLang

/-- The bindings of a frame. -/
structure Env where
  /-- The bindings, in no particular order. -/
  bindings : List (String × Value)
  /-- No name is bound twice. -/
  nodup : (bindings.map Prod.fst).Nodup

namespace Env

/-- Environments with the same bindings are the same. -/
theorem eq_of_bindings {env env' : Env} (h : env.bindings = env'.bindings) : env = env' := by
  cases env
  cases env'
  cases h
  rfl

/-- The environment without bindings. -/
def empty : Env := ⟨[], List.nodup_nil⟩

/-- The value to which a name is bound. -/
def get? (env : Env) (name : String) : Option Value :=
  env.bindings.lookup name

/-- Whether a name is bound. -/
def contains (env : Env) (name : String) : Bool :=
  (env.get? name).isSome

/-- The number of bindings. -/
def size (env : Env) : Nat := env.bindings.length

/-- Whether there are no bindings. -/
def isEmpty (env : Env) : Bool := env.bindings.isEmpty

/-- The names that are bound. -/
def names (env : Env) : List String := env.bindings.map Prod.fst

/-- Leaving out bindings binds no name twice. -/
theorem nodup_filter {bindings : List (String × Value)} (p : String × Value → Bool)
    (h : (bindings.map Prod.fst).Nodup) : ((bindings.filter p).map Prod.fst).Nodup :=
  h.sublist (List.filter_sublist.map _)

/-- Binds a name, in place of what it was bound to. -/
def set (env : Env) (name : String) (value : Value) : Env where
  bindings := (name, value) :: env.bindings.filter (·.1 ≠ name)
  nodup := by
    rw [List.map_cons, List.nodup_cons]
    refine ⟨?_, nodup_filter _ env.nodup⟩
    simp

/-- Leaving out bindings of other names does not change what a name is bound to. -/
theorem lookup_filter {α : Type} {bindings : List (String × α)} {p : String → Bool}
    {name : String} (h : p name = true) :
    (bindings.filter fun b => p b.1).lookup name = bindings.lookup name := by
  induction bindings with
  | nil => rfl
  | cons b rest ih =>
    obtain ⟨key, value⟩ := b
    by_cases hname : name = key
    · subst hname
      simp [h]
    · have hbeq : (name == key) = false := by simpa using hname
      by_cases hkey : p key = true
      · simp [hkey, List.lookup_cons, hbeq, ih]
      · simp [hkey, List.lookup_cons, hbeq, ih]

/-- Looking a name up in a list of bindings finds something exactly when the list has the name. -/
theorem isSome_lookup (bindings : List (String × Value)) (name : String) :
    (bindings.lookup name).isSome = true ↔ name ∈ bindings.map Prod.fst := by
  induction bindings with
  | nil => simp
  | cons b rest ih =>
    obtain ⟨key, value⟩ := b
    by_cases h : name = key
    · simp [h]
    · have hbeq : (name == key) = false := by simpa using h
      simp [List.lookup_cons, hbeq, h, ih]

/-- A name is bound exactly when it is one of the bound names. -/
theorem contains_iff (env : Env) (name : String) :
    env.contains name = true ↔ name ∈ env.names :=
  isSome_lookup env.bindings name

/-- Adds those bindings of `caller` whose names are not bound yet. -/
def inherit (env caller : Env) : Env where
  bindings := env.bindings ++ caller.bindings.filter fun b => !env.contains b.1
  nodup := by
    rw [List.map_append, List.nodup_append]
    refine ⟨env.nodup, nodup_filter _ caller.nodup, ?_⟩
    intro a ha b hb hab
    subst hab
    obtain ⟨binding, hmem, rfl⟩ := List.mem_map.mp hb
    have hfree := (List.mem_filter.mp hmem).2
    have hbound : env.contains binding.1 = true := (contains_iff env _).mpr ha
    simp [hbound] at hfree

/-- Nothing is bound in the empty environment. -/
@[simp]
theorem get?_empty (name : String) : empty.get? name = none := rfl

/-- Binding a name changes the look-up of that name only. -/
theorem get?_set (env : Env) (name : String) (value : Value) (other : String) :
    (env.set name value).get? other = if other = name then some value else env.get? other := by
  by_cases h : other = name
  · simp [set, get?, h]
  · have hbeq : (other == name) = false := by simpa using h
    simp only [set, get?, List.lookup_cons, hbeq, if_neg h]
    exact lookup_filter (p := fun key => decide (key ≠ name)) (by simpa using h)

/-- What is bound stays, and what is not bound is looked up in the caller. -/
theorem get?_inherit (env caller : Env) (name : String) :
    (env.inherit caller).get? name = (env.get? name).or (caller.get? name) := by
  simp only [inherit, get?, List.lookup_append]
  cases h : env.bindings.lookup name with
  | some value => rfl
  | none =>
    have hfree : (!env.contains name) = true := by simp [contains, get?, h]
    simp only [Option.none_or]
    exact lookup_filter (p := fun key => !env.contains key) hfree

/-- There are no bindings exactly when their number is zero. -/
theorem isEmpty_iff (env : Env) : env.isEmpty = true ↔ env.size = 0 := by
  simp [isEmpty, size, List.isEmpty_iff]

end Env

end TreeLang
