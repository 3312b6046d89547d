/-!
# Paths

A path names a file by the components between its slashes. Empty components and single dots do
not count, except that they ask for a directory when they stand at the end.
-/

namespace TreeLang

namespace Path

/-- The parts between the slashes of a path. -/
def parts (path : String) : List String := (path.toList.splitOn '/').map String.ofList

/-- The last component that is neither empty nor a single dot. -/
def lastComponent? (path : String) : Option String :=
  ((parts path).filter fun part => part ≠ "" && part ≠ ".").getLast?

/-- The name of the file that a path leads to, unless its last component leads out of a
directory. -/
def fileName? (path : String) : Option String := (lastComponent? path).filter (· ≠ "..")

/-- What stands behind the last dot of a name, if something stands in front of that dot. -/
def extensionOf? (name : String) : Option String :=
  let fromEnd := name.toList.reverse
  match fromEnd.dropWhile (· ≠ '.') with
  | _dot :: _ :: _ => some (String.ofList (fromEnd.takeWhile (· ≠ '.')).reverse)
  | _ => none

/-- The extension of the name of a file. -/
def extension? (path : String) : Option String := (fileName? path).bind extensionOf?

/-- Whether the path names a tree, which its extension tells. -/
def isTree (path : String) : Bool := extension? path = some "json"

end Path

end TreeLang
