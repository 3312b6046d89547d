import TreeLang.Source.Store
import TreeLang.Tree.Reader

/-!
# Loading trees

A tree is loaded from a file in three stages: the path has to name a tree, the file has to be
readable as text, and the text has to be that of a tree. The first stage looks at the path alone
and comes before the file is touched.
-/

namespace TreeLang

/-- Why no tree can be loaded from a path. -/
inductive LoadError where
  /-- The path does not name a tree. -/
  | unsupportedFile (path : String)
  /-- The file cannot be read. -/
  | unreadable (path : String) (fault : FileFault)
  /-- The text of the file is not that of a tree. -/
  | invalidText (error : TextError)
  deriving DecidableEq

namespace LoadError

/-- The words for an error. -/
def message : LoadError → String
  | unsupportedFile path => path ++ " is not a .json tree"
  | unreadable path _ => "Failed to read " ++ path
  | invalidText _ => "Invalid JSON tree"

/-- The code that stands for the error in reports. -/
def code : LoadError → String
  | unsupportedFile _ => "hina::unsupported_file"
  | unreadable _ _ => "hina::io"
  | invalidText _ => "hina::json"

/-- Advice, where there is some. -/
def help? : LoadError → Option String
  | unsupportedFile _ => some "pass the JSON syntax tree produced by the parser"
  | _ => none

/-- The words for what lies behind the error, if something does. -/
def cause? : LoadError → Option String
  | unsupportedFile _ => none
  | unreadable _ fault => some fault.message
  | invalidText error => some error.message

end LoadError

/-- Loads the tree from the file that a path names. -/
def Tree.load (files : FileSystem) (path : String) : Except LoadError Tree :=
  if Path.isTree path then
    match files.readText path with
    | .error fault => .error (.unreadable path fault)
    | .ok text => (Tree.ofText text).mapError .invalidText
  else .error (.unsupportedFile path)

end TreeLang
