import TreeLang.Command.Run

/-!
# The program

Reads the arguments, the settings of the environment and the one file that the arguments name,
lets `Command.run?` decide everything, and writes what it leaves.
-/

namespace TreeLang

namespace Main

/-- The number of an error, which some systems give with a minus sign. -/
def errorNumber (number : UInt32) : Nat := number.toInt32.toInt.natAbs

/-- The fault for the error number and the words of the system. -/
def fault (number : UInt32) (details : String) : FileFault :=
  match errorNumber number with
  | 2 => .notFound
  | 20 => .notDirectory
  | 21 => .isDirectory
  | 36 => .nameTooLong
  | number => .other s!"{details} (os error {number})"

/-- The fault for an error of the system. -/
def faultOfError : IO.Error → FileFault
  | .noFileOrDirectory _ number details => fault number details
  | .inappropriateType _ number details => fault number details
  | .invalidArgument _ number details => fault number details
  | .permissionDenied _ number details => fault number details
  | .otherError number details => fault number details
  | e => .other e.toString

/-- The content of the file that a path names. -/
def readFile (path : String) : IO (Except FileFault ByteArray) := do
  try
    let content ← IO.FS.readBinFile path
    pure (.ok content)
  catch e => pure (.error (faultOfError e))

/-- The file system as far as the arguments need it: the file that they name. -/
def files (settings : Settings) (arguments : List String) : IO FileSystem := do
  match Arguments.ofList settings.maxDepth arguments with
  | .ok read =>
    if Path.isTree read.file then
      let content ← readFile read.file
      pure fun _ => content
    else pure fun _ => .error .notFound
  | .error _ => pure fun _ => .error .notFound

/-- The settings that the environment holds. -/
def settings : IO Settings := do
  pure ⟨← IO.getEnv "HINA_MAX_DEPTH", ← IO.getEnv "HINA_LOG", ← IO.getEnv "RUST_LOG"⟩

end Main

end TreeLang

open TreeLang in
/-- Runs the command with the arguments of the process. -/
def main (arguments : List String) : IO UInt32 := do
  let settings ← Main.settings
  let files ← Main.files settings arguments
  match Command.run? files settings arguments Sink.unlimited with
  | none => pure 1
  | some done =>
    let output ← IO.getStdout
    output.write done.output
    output.flush
    (← IO.getStderr).putStr done.messages
    pure done.status.toUInt32
