import TreeLang.Expr.BuildError
import TreeLang.Eval.Error
import TreeLang.Source.Load

/-!
# Failures and their reports

A program fails while it is loaded, built or run. The report of a failure names the stage and the
path, says what went wrong and what lies behind it, and ends with advice, where there is some, and
the code of the error.
-/

namespace TreeLang

/-- Why there is no result of a program. -/
inductive Failure where
  /-- The tree cannot be loaded. -/
  | load (cause : LoadError)
  /-- The tree denotes no expression. -/
  | build (cause : BuildError)
  /-- The evaluation fails. -/
  | eval (cause : EvalError)
  deriving DecidableEq

namespace Failure

/-- The stage at which a failure arises. -/
def stage : Failure → String
  | load _ => "loading"
  | build _ => "building"
  | eval _ => "running"

/-- The words for a failure. -/
def message : Failure → String
  | load cause => cause.message
  | build cause => cause.message
  | eval cause => cause.message

/-- The code that stands for the failure in reports. -/
def code : Failure → String
  | load cause => cause.code
  | build cause => cause.code
  | eval cause => cause.code

/-- Advice, where there is some. -/
def help? : Failure → Option String
  | load cause => cause.help?
  | build cause => cause.help?
  | eval cause => cause.help?

/-- The words for what lies behind a failure, if something does. -/
def cause? : Failure → Option String
  | load cause => cause.cause?
  | build _ => none
  | eval cause => cause.cause?

/-- The report of a failure of the program at a path. -/
def report (failure : Failure) (path : String) : String :=
  failure.stage ++ " " ++ path ++ " failed\n    Diagnostic severity: error\n" ++
    "    Caused by: " ++ failure.message ++ "\n" ++
    (match failure.cause? with
      | some cause => "    Caused by: " ++ cause ++ "\n"
      | none => "") ++
    (match failure.help? with
      | some help => "diagnostic help: " ++ help ++ "\n"
      | none => "") ++
    "diagnostic code: " ++ failure.code ++ "\n\n"

end Failure

end TreeLang
