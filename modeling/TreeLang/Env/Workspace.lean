import TreeLang.Env

/-!
# Workspaces

A workspace holds environments under names. Every name stands for an environment from the start;
one that has not been touched is empty.
-/

namespace TreeLang

/-- Environments under names. -/
structure Workspace where
  /-- The environments that were touched, the latest state of each first. -/
  frames : List (String × Env)

namespace Workspace

/-- The workspace in which every environment is empty. -/
def empty : Workspace := ⟨[]⟩

/-- The environment of a name. -/
def get (w : Workspace) (name : String) : Env :=
  (w.frames.lookup name).getD Env.empty

/-- Puts an environment under a name. -/
def put (w : Workspace) (name : String) (env : Env) : Workspace :=
  ⟨(name, env) :: w.frames.filter (·.1 ≠ name)⟩

/-- Putting an environment under a name changes that name only. -/
theorem get_put (w : Workspace) (name : String) (env : Env) (other : String) :
    (w.put name env).get other = if other = name then env else w.get other := by
  by_cases h : other = name
  · simp [put, get, h]
  · have hbeq : (other == name) = false := by simpa using h
    have hfilter : (w.frames.filter fun f => decide (f.1 ≠ name)).lookup other =
        w.frames.lookup other :=
      Env.lookup_filter (p := fun key => decide (key ≠ name)) (by simpa using h)
    simp only [put, get, List.lookup_cons, hbeq, if_neg h, hfilter]

end Workspace

/-- A change to one environment of a workspace. -/
inductive EnvStep where
  /-- Binds a name. -/
  | set (name : String) (value : Value)
  /-- Adds the bindings of another environment whose names are not bound yet. -/
  | inherit (other : String)
  /-- Takes over another environment as it is. -/
  | copy (other : String)
  /-- Drops all bindings. -/
  | new

/-- Changes the environment of the given name. -/
def Workspace.apply (w : Workspace) (target : String) : EnvStep → Workspace
  | .set name value => w.put target ((w.get target).set name value)
  | .inherit other => w.put target ((w.get target).inherit (w.get other))
  | .copy other => w.put target (w.get other)
  | .new => w.put target Env.empty

end TreeLang
