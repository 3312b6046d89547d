import Mathlib.Data.Finmap
import TreeLang.Env.Workspace

/-!
# Environments as finite maps

Whatever is done to environments, each of them is a finite map from names to values: binding a name
overwrites it, inheriting is the union in which the own bindings win, and a copy is the map itself.
`Env.Shows` says that look-ups in an environment are those in a map. It is kept by each change, so
it holds after all histories of changes, and what else can be asked of an environment follows.

Bindings are inherited one after another, in an order that means nothing. `Env.inheritEach` does
this in a given order, and `Workspace.After` admits every order.
-/

namespace TreeLang

/-- A finite map from names to values. -/
abbrev Bindings := Finmap fun _ : String => Value

/-- Look-ups in the environment are look-ups in the map. -/
def Env.Shows (env : Env) (z : Bindings) : Prop :=
  ∀ name, env.get? name = z.lookup name

/-- All that can be asked of the environment is as the map has it. -/
structure Env.Observes (env : Env) (z : Bindings) : Prop where
  get : ∀ name, env.get? name = z.lookup name
  contains : ∀ name, env.contains name = true ↔ name ∈ z
  contains_iff_get : ∀ name, env.contains name = true ↔ (env.get? name).isSome = true
  /-- Each name is counted once. -/
  size : env.size = z.keys.card
  isEmpty : env.isEmpty = true ↔ z = ∅
  isEmpty_iff_size : env.isEmpty = true ↔ env.size = 0

namespace Env

/-- Adds those of the entries whose names are not bound yet, one after another. -/
def inheritEach (env : Env) : List (String × Value) → Env
  | [] => env
  | (name, value) :: rest =>
    (if env.contains name = true then env else env.set name value).inheritEach rest

/-- The entries are the bindings of the environment, each once, in some order. -/
structure Enumerates (env : Env) (entries : List (String × Value)) : Prop where
  nodup : (entries.map Prod.fst).Nodup
  mem_iff : ∀ name value, (name, value) ∈ entries ↔ env.get? name = some value

/-! ## Entries in some order -/

theorem lookup_eq_some_of_mem {entries : List (String × Value)} {name : String} {value : Value}
    (hnodup : (entries.map Prod.fst).Nodup) (h : (name, value) ∈ entries) :
    entries.lookup name = some value := by
  induction entries with
  | nil => cases h
  | cons entry rest ih =>
    obtain ⟨key, found⟩ := entry
    obtain ⟨hkey, hrest⟩ := List.nodup_cons.mp hnodup
    rcases List.mem_cons.mp h with heq | hmem
    · cases heq
      exact List.lookup_cons_self
    · have hne : name ≠ key := by
        rintro rfl
        exact hkey (List.mem_map.mpr ⟨_, hmem, rfl⟩)
      have hbeq : (name == key) = false := by simpa using hne
      rw [List.lookup_cons, hbeq]
      exact ih hrest hmem

theorem mem_of_lookup_eq_some {entries : List (String × Value)} {name : String} {value : Value}
    (h : entries.lookup name = some value) : (name, value) ∈ entries := by
  obtain ⟨before, after, rfl, -⟩ := List.lookup_eq_some_iff.mp h
  simp

theorem Enumerates.lookup {env : Env} {entries : List (String × Value)}
    (h : env.Enumerates entries) (name : String) : entries.lookup name = env.get? name := by
  ext value
  rw [← h.mem_iff name value]
  exact ⟨mem_of_lookup_eq_some, lookup_eq_some_of_mem h.nodup⟩

/-- The order in which the bindings are kept is one of the orders. -/
theorem enumerates_bindings (env : Env) : env.Enumerates env.bindings where
  nodup := env.nodup
  mem_iff := fun _ _ => ⟨lookup_eq_some_of_mem env.nodup, mem_of_lookup_eq_some⟩

theorem Enumerates.perm {env : Env} {entries entries' : List (String × Value)}
    (h : env.Enumerates entries) (hperm : entries'.Perm entries) : env.Enumerates entries' where
  nodup := (hperm.map Prod.fst).nodup_iff.mpr h.nodup
  mem_iff := fun name value => hperm.mem_iff.trans (h.mem_iff name value)

/-- Of the entries of one name, the first one counts, and none if the name is bound already. -/
theorem get?_inheritEach (env : Env) (entries : List (String × Value)) (name : String) :
    (env.inheritEach entries).get? name = (env.get? name).or (entries.lookup name) := by
  induction entries generalizing env with
  | nil => rw [inheritEach, List.lookup_nil, Option.or_none]
  | cons entry rest ih =>
    obtain ⟨key, value⟩ := entry
    rw [inheritEach, ih, List.lookup_cons]
    by_cases hname : name = key
    · subst hname
      cases hbound : env.get? name with
      | some found => simp [contains, hbound]
      | none => simp [contains, hbound, get?_set]
    · have hbeq : (name == key) = false := by simpa using hname
      have hget : (if env.contains key = true then env else env.set key value).get? name =
          env.get? name := by
        split
        · rfl
        · rw [get?_set, if_neg hname]
      rw [hget, hbeq]

/-- What is inherited once is not inherited again. -/
theorem inherit_inherit (env caller : Env) :
    (env.inherit caller).inherit caller = env.inherit caller := by
  have hnone : caller.bindings.filter (fun b => !(env.inherit caller).contains b.1) = [] := by
    refine List.filter_eq_nil_iff.mpr fun b hb hfree => ?_
    have hget : caller.get? b.1 = some b.2 := lookup_eq_some_of_mem caller.nodup hb
    have hbound : (env.inherit caller).contains b.1 = true := by
      rw [contains, get?_inherit, hget]
      cases env.get? b.1 <;> rfl
    rw [hbound] at hfree
    cases hfree
  refine eq_of_bindings ?_
  show (env.inherit caller).bindings ++ _ = _
  rw [hnone, List.append_nil]

/-! ## Changes of maps -/

namespace Shows

variable {env caller : Env} {z z' : Bindings}

theorem empty : Env.empty.Shows ∅ := fun _ => rfl

theorem set (h : env.Shows z) (name : String) (value : Value) :
    (env.set name value).Shows (z.insert name value) := by
  intro other
  rw [get?_set]
  by_cases hother : other = name
  · subst hother
    rw [if_pos rfl, Finmap.lookup_insert]
  · rw [if_neg hother, Finmap.lookup_insert_of_ne z hother]
    exact h other

theorem lookup_union (z z' : Bindings) (name : String) :
    (z ∪ z').lookup name = (z.lookup name).or (z'.lookup name) := by
  by_cases hname : name ∈ z
  · obtain ⟨value, hvalue⟩ := Finmap.mem_iff.mp hname
    rw [Finmap.lookup_union_left hname, hvalue, Option.some_or]
  · rw [Finmap.lookup_union_right hname, Finmap.lookup_eq_none.mpr hname, Option.none_or]

theorem inherit (h : env.Shows z) (hcaller : caller.Shows z') :
    (env.inherit caller).Shows (z ∪ z') := by
  intro name
  rw [get?_inherit, h name, hcaller name, lookup_union]

theorem inheritEach (h : env.Shows z) (hcaller : caller.Shows z')
    {entries : List (String × Value)} (hentries : caller.Enumerates entries) :
    (env.inheritEach entries).Shows (z ∪ z') := by
  intro name
  rw [get?_inheritEach, hentries.lookup, h name, hcaller name, lookup_union]

/-- The bound names are those of the map. -/
theorem names_toFinset (h : env.Shows z) : env.names.toFinset = z.keys := by
  ext name
  rw [List.mem_toFinset, ← contains_iff, contains, h name, Finmap.lookup_isSome, Finmap.mem_keys]

theorem observes (h : env.Shows z) : env.Observes z := by
  have hsize : env.size = z.keys.card := by
    rw [← h.names_toFinset, names, List.toFinset_card_of_nodup env.nodup, List.length_map, size]
  have hempty : z.keys.card = 0 ↔ z = ∅ := by
    constructor
    · intro hcard
      have hkeys : z.keys = ∅ := Finset.card_eq_zero.mp hcard
      refine Finmap.ext_lookup fun name => ?_
      rw [Finmap.lookup_empty, Finmap.lookup_eq_none, ← Finmap.mem_keys, hkeys]
      exact Finset.notMem_empty name
    · rintro rfl
      rw [Finmap.keys_empty, Finset.card_empty]
  refine ⟨h, fun name => ?_, fun _ => Iff.rfl, hsize, ?_, env.isEmpty_iff⟩
  · rw [contains, h name, Finmap.lookup_isSome]
  · rw [env.isEmpty_iff, hsize, hempty]

end Shows

end Env

/-! ## Histories -/

/-- What a change does to the maps of all environments. -/
def EnvStep.onMaps (maps : String → Bindings) (target : String) : EnvStep → String → Bindings
  | .set name value => Function.update maps target ((maps target).insert name value)
  | .inherit other => Function.update maps target (maps target ∪ maps other)
  | .copy other => Function.update maps target (maps other)
  | .new => Function.update maps target ∅

/-- The maps after a history of changes, each with the environment that it changes. At first all
maps are empty. -/
def mapsAfter (history : List (String × EnvStep)) : String → Bindings :=
  history.foldl (fun maps change => change.2.onMaps maps change.1) fun _ => ∅

namespace Workspace

/-- Makes all changes of a history. -/
def run (w : Workspace) (history : List (String × EnvStep)) : Workspace :=
  history.foldl (fun w change => w.apply change.1 change.2) w

/-- The history leads from empty environments to this workspace. Wherever an environment inherits
bindings, this may also be done one by one, in any order. -/
inductive After : List (String × EnvStep) → Workspace → Prop where
  | start : After [] Workspace.empty
  | apply {history : List (String × EnvStep)} {w : Workspace} (h : After history w)
      (target : String) (step : EnvStep) : After (history ++ [(target, step)]) (w.apply target step)
  | inheritEach {history : List (String × EnvStep)} {w : Workspace} (h : After history w)
      (target other : String) {entries : List (String × Value)}
      (hentries : (w.get other).Enumerates entries) :
      After (history ++ [(target, .inherit other)])
        (w.put target ((w.get target).inheritEach entries))

theorem after_run (history : List (String × EnvStep)) : After history (empty.run history) := by
  induction history using List.reverseRecOn with
  | nil => exact .start
  | append_singleton history change ih =>
    rw [run, List.foldl_append]
    exact ih.apply change.1 change.2

/-- Each environment of the workspace shows its map. -/
def Shows (w : Workspace) (maps : String → Bindings) : Prop :=
  ∀ frame, (w.get frame).Shows (maps frame)

theorem Shows.put {w : Workspace} {maps : String → Bindings} (h : w.Shows maps) (target : String)
    {env : Env} {z : Bindings} (henv : env.Shows z) :
    (w.put target env).Shows (Function.update maps target z) := by
  intro frame
  rw [get_put, Function.update_apply]
  split
  · exact henv
  · exact h frame

theorem Shows.apply {w : Workspace} {maps : String → Bindings} (h : w.Shows maps)
    (target : String) (step : EnvStep) : (w.apply target step).Shows (step.onMaps maps target) := by
  cases step with
  | set name value => exact h.put target ((h target).set name value)
  | inherit other => exact h.put target ((h target).inherit (h other))
  | copy other => exact h.put target (h other)
  | new => exact h.put target .empty

theorem After.shows {history : List (String × EnvStep)} {w : Workspace} (h : After history w) :
    w.Shows (mapsAfter history) := by
  induction h with
  | start => exact fun _ => .empty
  | apply _ target step ih =>
    rw [mapsAfter, List.foldl_append]
    exact ih.apply target step
  | inheritEach _ target other hentries ih =>
    rw [mapsAfter, List.foldl_append]
    exact ih.put target ((ih target).inheritEach (ih other) hentries)

/-- Environments are finite maps under any history of changes: bindings, inheriting, copies and
fresh starts. Whatever can be asked of an environment agrees with the map that the history makes, in
which a binding overwrites one name, and inheriting keeps the own bindings and adds those of the
other names. In particular no name is counted twice. If one environment inherits from another, then
it has as many bindings as both have names together, inheriting again changes nothing, and every
order in which the bindings are inherited leaves the same map. -/
theorem After.isFiniteMap {history : List (String × EnvStep)} {w : Workspace}
    (h : After history w) :
    After history (empty.run history) ∧
    (∀ frame, (w.get frame).Observes (mapsAfter history frame)) ∧
    ∀ frame other,
      let env := w.get frame
      let caller := w.get other
      let z := mapsAfter history frame
      let z' := mapsAfter history other
      (env.inherit caller).Observes (z ∪ z') ∧
      (env.inherit caller).size = (z.keys ∪ z'.keys).card ∧
      (env.inherit caller).inherit caller = env.inherit caller ∧
      ∀ entries, caller.Enumerates entries → (env.inheritEach entries).Observes (z ∪ z') := by
  have hshows : w.Shows (mapsAfter history) := h.shows
  refine ⟨after_run history, fun frame => (hshows frame).observes, fun frame other => ?_⟩
  intro env caller z z'
  have hinherit : (env.inherit caller).Shows (z ∪ z') := (hshows frame).inherit (hshows other)
  refine ⟨hinherit.observes, ?_, env.inherit_inherit caller, fun entries hentries => ?_⟩
  · rw [hinherit.observes.size, Finmap.keys_union]
  · exact ((hshows frame).inheritEach (hshows other) hentries).observes

/-- A frame inherits two bindings in the other order than they are kept in, one of them for a name
that it binds itself. What the caller binds later does not show. -/
theorem After.isFiniteMap_snapshot :
    let before : List (String × EnvStep) :=
      [("caller", .set "x" (.int 1)), ("caller", .set "y" (.int 2)), ("frame", .set "x" (.str "p"))]
    let w := empty.run before
    let history := before ++ [("frame", .inherit "caller")] ++ [("caller", .set "y" (.int 5))]
    let inherited := (w.get "frame").inheritEach (w.get "caller").bindings.reverse
    let last := (w.put "frame" inherited).apply "caller" (.set "y" (.int 5))
    After history last ∧
    (mapsAfter history "frame").lookup "x" = some (.str "p") ∧
    (mapsAfter history "frame").lookup "y" = some (.int 2) ∧
    (mapsAfter history "frame").keys.card = 2 ∧
    ((last.get "frame").inherit (last.get "caller")).size = 2 := by
  intro before w history inherited last
  have hbefore : After before w := after_run before
  have hentries : (w.get "caller").Enumerates (w.get "caller").bindings.reverse :=
    (w.get "caller").enumerates_bindings.perm (List.reverse_perm _)
  have hlast : After history last := (hbefore.inheritEach "frame" "caller" hentries).apply _ _
  obtain ⟨-, hobserves, -⟩ := After.isFiniteMap hlast
  have hframe := hobserves "frame"
  refine ⟨hlast, ?_, ?_, ?_, rfl⟩
  · rw [← hframe.get "x"]
    rfl
  · rw [← hframe.get "y"]
    rfl
  · rw [← hframe.size]
    rfl

end Workspace

end TreeLang
