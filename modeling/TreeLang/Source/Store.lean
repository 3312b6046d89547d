import TreeLang.Source.Path

/-!
# File stores

A store is the content of a working directory. A path is followed part by part: each part but the
last has to be a directory, and two dots lead out of one. Nothing is known of what lies outside of
the working directory, so nothing is found there.
-/

namespace TreeLang

/-- Why a file cannot be read. -/
inductive FileFault where
  /-- There is nothing of this name. -/
  | notFound
  /-- A part of the path is not a directory, but should be. -/
  | notDirectory
  /-- The path names a directory. -/
  | isDirectory
  /-- A name or the path is too long. -/
  | nameTooLong
  /-- The content of the file is not text. -/
  | notText
  /-- The system gives another reason. -/
  | other (reason : String)
  deriving DecidableEq

/-- The words for a file that cannot be read. -/
def FileFault.message : FileFault → String
  | notFound => "No such file or directory (os error 2)"
  | notDirectory => "Not a directory (os error 20)"
  | isDirectory => "Is a directory (os error 21)"
  | nameTooLong => "File name too long (os error 36)"
  | notText => "stream did not contain valid UTF-8"
  | other reason => reason

/-- A file system, as far as programs are concerned: the content of the file that a path names. -/
abbrev FileSystem := String → Except FileFault ByteArray

/-- The text of the file that a path names. -/
def FileSystem.readText (files : FileSystem) (path : String) : Except FileFault String :=
  match files path with
  | .error fault => .error fault
  | .ok content =>
    match String.fromUTF8? content with
    | some text => .ok text
    | none => .error .notText

/-- The content of a working directory. -/
structure Store where
  /-- The files by their components from the working directory. -/
  files : List (List String × ByteArray)
  /-- Directories that exist even if they are empty. -/
  directories : List (List String)

namespace Store

/-- The most bytes that a name may have. -/
def maxName : Nat := 255

/-- One more than the most bytes that a path may have. -/
def maxPath : Nat := 4096

/-- Something in the working directory. -/
inductive Node where
  /-- A file with its content. -/
  | file (content : ByteArray)
  /-- A directory. -/
  | directory

/-- What stands at a place in the working directory; the place is given from the inside out. -/
def node? (store : Store) (place : List String) : Option Node :=
  let names := place.reverse
  match store.files.lookup names with
  | some content => some (.file content)
  | none =>
    if names.isEmpty || store.directories.any names.isPrefixOf ||
        store.files.any (fun file => names.isPrefixOf file.1) then some .directory
    else none

/-- Follows parts of a path from a place, or from outside of the working directory. -/
def follow (store : Store) : Option (List String) → List String → Except FileFault Node
  | none, [] => .ok .directory
  | none, part :: parts =>
    if part = "" ∨ part = "." ∨ part = ".." then store.follow none parts
    else if maxName < part.utf8ByteSize then .error .nameTooLong
    else .error .notFound
  | some place, [] =>
    match store.node? place with
    | some node => .ok node
    | none => .error .notFound
  | some place, part :: parts =>
    match store.node? place with
    | none => .error .notFound
    | some (.file _) => .error .notDirectory
    | some .directory =>
      if part = "" ∨ part = "." then store.follow (some place) parts
      else if part = ".." then
        match place with
        | [] => store.follow none parts
        | _ :: outer => store.follow (some outer) parts
      else if maxName < part.utf8ByteSize then .error .nameTooLong
      else store.follow (some (part :: place)) parts

/-- Where following a path starts. -/
def start (path : String) : Option (List String) :=
  if path.toList.head? = some '/' then none else some []

/-- The content of the file that a path names. -/
def read (store : Store) : FileSystem := fun path =>
  if path.isEmpty then .error .notFound
  else if maxPath ≤ path.utf8ByteSize then .error .nameTooLong
  else
    match store.follow (start path) (Path.parts path) with
    | .error fault => .error fault
    | .ok .directory => .error .isDirectory
    | .ok (.file content) => .ok content

end Store

end TreeLang
