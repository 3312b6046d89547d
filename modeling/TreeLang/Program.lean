import TreeLang.Expr.OfTree
import TreeLang.Failure
import TreeLang.Evaluator

/-!
# Running programs

A program is run by building its expression and evaluating that in an empty environment, with a
sink that is flushed at the end.
-/

namespace TreeLang

/-- What is left of running a program. -/
structure Run where
  /-- The value of the program, or why there is none. -/
  result : Except Failure Value
  /-- The sink with what was printed. -/
  sink : Sink
  /-- The log with what happened. -/
  log : Log

/-- Runs an expression in an empty environment. There is no answer if that does not end. -/
def Expr.run? (limit : Option Nat) (e : Expr) (sink : Sink) (log : Log) : Option Run :=
  ((Evaluator.new limit sink log).run? e Env.empty).map fun done =>
    ⟨done.result.mapError .eval, done.evaluator.sink, done.evaluator.log⟩

/-- The log with the event that a program of this name is built, if the tree has a name. -/
def Tree.announce (tree : Tree) (log : Log) : Log :=
  match tree.textField? "name" with
  | some name => log.add (.building name)
  | none => log

/-- Runs the program of a tree. There is no answer if that does not end. -/
def Tree.run? (limit : Option Nat) (tree : Tree) (sink : Sink) (log : Log) : Option Run :=
  match Expr.ofProgram tree (tree.announce log) with
  | .ok e log => e.run? limit sink log
  | .error cause log => some ⟨.error (.build cause), sink, log⟩

theorem Tree.run?_of_ok {tree : Tree} {e : Expr} {log log' : Log}
    (h : Expr.ofProgram tree (tree.announce log) = .ok e log') (limit : Option Nat) (sink : Sink) :
    tree.run? limit sink log = e.run? limit sink log' := by
  rw [Tree.run?, h]

end TreeLang
