import TreeLang.Command.Similar
import TreeLang.Text.Numeral
import TreeLang.Text.Terminal

/-!
# Command-line arguments

The command line names one file and may hold options in any order. An option with a value takes it
from behind an equals sign or from the next argument, short options may be joined, and everything
behind two hyphens is no option.

Arguments are read from the left. An option or a file that has been seen, but might still be
followed by its value, is `pending`; it is settled when the next argument is known to be an option
or a file, or at the end. Asking for help or for the version ends the reading at once.
-/

namespace TreeLang

/-- Something that the command line can hold. -/
inductive Argument where
  /-- The file to be run. -/
  | file
  /-- Only builds the expression. -/
  | check
  /-- Shows the expression. -/
  | dump
  /-- Limits the depth of calls. -/
  | maxDepth
  /-- Logs more. -/
  | verbose
  /-- Shows how the command is used. -/
  | help
  /-- Shows the version. -/
  | version
  deriving DecidableEq

namespace Argument

/-- The long name of an option. -/
def long? : Argument → Option String
  | file => none
  | check => some "check"
  | dump => some "dump-ast"
  | maxDepth => some "max-depth"
  | verbose => some "verbose"
  | help => some "help"
  | version => some "version"

/-- The options. -/
def options : List Argument := [check, dump, maxDepth, verbose, help, version]

/-- The option of this long name. -/
def ofLong? (name : String) : Option Argument :=
  options.find? (·.long? = some name)

/-- The option of this letter. -/
def ofShort? : Char → Option Argument
  | 'v' => some verbose
  | 'h' => some help
  | 'V' => some version
  | _ => none

/-- How an argument is shown, with the name of its value. -/
def shown : Argument → String
  | file => "<FILE>"
  | maxDepth => "--max-depth <MAX_DEPTH>"
  | option => "--" ++ option.long?.getD ""

end Argument

/-- What the command is asked to do. -/
structure Arguments where
  /-- The path of the file. -/
  file : String
  /-- Whether the expression is built but not evaluated. -/
  check : Bool
  /-- Whether the expression is shown. -/
  dump : Bool
  /-- The limit on the depth of calls, if there is one. -/
  maxDepth : Option Nat
  /-- Whether more is logged. -/
  verbose : Bool
  deriving DecidableEq

/-- Advice about an argument that nobody knows. -/
inductive Hint where
  /-- An option of a similar name exists. -/
  | similar (name : String)
  /-- It may have been meant as a value. -/
  | asValue
  /-- There is none. -/
  | none
  deriving DecidableEq

/-- Why a command line cannot be used. -/
inductive UsageFault where
  /-- There is no file; `used` has been seen. -/
  | missingFile (used : List Argument)
  /-- There is no such option, or a file too many. -/
  | unexpected (text : String) (hint : Hint) (used : List Argument)
  /-- An option is repeated. -/
  | repeated (option : Argument)
  /-- An option or the file lacks its value. -/
  | missingValue (argument : Argument)
  /-- An option that takes no value has one; `used` has been settled in front of it. -/
  | surplusValue (option : Argument) (value : String) (used : List Argument)
  /-- The limit is no number. -/
  | invalidDepth (value : String) (fault : NumeralFault)
  deriving DecidableEq

/-- Why the reading of a command line ends early. -/
inductive Halt where
  /-- Help is asked for. -/
  | help
  /-- The version is asked for. -/
  | version
  /-- The command line cannot be used. -/
  | fault (cause : UsageFault)
  deriving DecidableEq

/-- The words for a text that is no number. -/
def NumeralFault.message : NumeralFault → String
  | empty => "cannot parse integer from empty string"
  | invalidDigit => "invalid digit found in string"
  | tooLarge => "number too large to fit in target type"

namespace UsageFault

/-- How the command is used; options that have been used take the place of the general word. -/
def usage (used : List Argument) : String :=
  let options :=
    if used.isEmpty then " [OPTIONS]"
    else String.join ((used.filter (· ≠ .file)).map fun option => " " ++ option.shown)
  "\n\nUsage: hina" ++ options ++ " <FILE>"

/-- The options that a run of the command may hold. -/
def runOptions : List Argument := [.check, .dump, .maxDepth, .verbose]

/-- How the command is used with an option behind others: with any of its arguments, in front of
which an option stands that is not for a run. -/
def usageBehind (option : Argument) : String :=
  let apart := if option ∈ runOptions then "" else " " ++ option.shown
  let choice := String.join (runOptions.map fun option => "|" ++ option.shown)
  "\n\nUsage: hina" ++ apart ++ " <FILE" ++ choice ++ ">"

/-- The words for advice; of `text` they hold what is shown on a terminal. -/
def hintMessage (text : String) : Hint → String
  | .similar name => "\n\n  tip: a similar argument exists: '--" ++ name ++ "'"
  | .asValue =>
    let text := Terminal.plain text
    "\n\n  tip: to pass '" ++ text ++ "' as a value, use '-- " ++ text ++ "'"
  | .none => ""

/-- The words for a fault; of texts in the command line they hold what is shown on a terminal. -/
def summary : UsageFault → String
  | missingFile used =>
    "the following required arguments were not provided:\n  <FILE>" ++ usage (used ++ [.file])
  | unexpected text hint used =>
    "unexpected argument '" ++ Terminal.plain text ++ "' found" ++ hintMessage text hint ++
      usage used
  | repeated option =>
    "the argument '" ++ option.shown ++ "' cannot be used multiple times" ++ usage []
  | missingValue argument =>
    "a value is required for '" ++ argument.shown ++ "' but none was supplied"
  | surplusValue option value used =>
    "unexpected value '" ++ Terminal.plain value ++ "' for '" ++ option.shown ++
      "' found; no more were expected" ++
      (if used.isEmpty then usage [option] else usageBehind option)
  | invalidDepth value fault =>
    "invalid value '" ++ Terminal.plain value ++ "' for '" ++ Argument.maxDepth.shown ++ "': " ++
      fault.message

/-- What is written about a fault. -/
def message (fault : UsageFault) : String :=
  "error: " ++ fault.summary ++ "\n\nFor more information, try '--help'.\n"

end UsageFault

namespace Arguments

/-- The largest limit. -/
def maxLimit : Nat := UInt64.size - 1

/-- What has been read of a command line. -/
structure Progress where
  /-- The settled arguments in order. -/
  used : List Argument
  /-- The path of the file. -/
  file : Option String
  /-- The limit on the depth of calls. -/
  depth : Option Nat
  /-- What is not settled yet, with its value if that is there. -/
  pending : Option (Argument × Option String)

namespace Progress

/-- Nothing has been read. -/
def start : Progress := ⟨[], none, none, none⟩

/-- The limit that a text stands for. -/
def readDepth (text : String) : Except Halt Nat :=
  match Numeral.readNat maxLimit text with
  | .ok limit => .ok limit
  | .error fault => .error (.fault (.invalidDepth text fault))

/-- Settles an argument with its value. -/
def settleOne (p : Progress) (argument : Argument) (value? : Option String) :
    Except Halt Progress :=
  match argument, value? with
  | .help, _ => .error .help
  | .version, _ => .error .version
  | .maxDepth, none => .error (.fault (.missingValue .maxDepth))
  | argument, value? =>
    if argument ∈ p.used then .error (.fault (.repeated argument))
    else
      let p := { p with used := p.used ++ [argument] }
      match argument, value? with
      | .maxDepth, some value => (readDepth value).map fun limit => { p with depth := some limit }
      | .file, some value =>
        if value.isEmpty then .error (.fault (.missingValue .file))
        else .ok { p with file := some value }
      | _, _ => .ok p

/-- Settles what is pending. -/
def settle (p : Progress) : Except Halt Progress :=
  match p.pending with
  | some (argument, value?) => { p with pending := none }.settleOne argument value?
  | none => .ok p

/-- The arguments that are settled once what is pending has been settled as well as it can; one
that turns out to be repeated is given up. -/
def usedNow (p : Progress) : List Argument :=
  match p.pending with
  | some (.maxDepth, none) => p.used
  | some (argument, _) =>
    if argument ∈ p.used then p.used.filter (· ≠ argument) else p.used ++ [argument]
  | none => p.used

/-- Takes an option, with its value if that is attached. -/
def takeOption (p : Progress) (option : Argument) (attached? : Option String) :
    Except Halt Progress :=
  match option, attached? with
  | .maxDepth, none => do
    let p ← p.settle
    pure { p with pending := some (.maxDepth, none) }
  | .maxDepth, some value => do (← p.settle).settleOne .maxDepth (some value)
  | option, some value => .error (.fault (.surplusValue option value p.used))
  | option, none => do (← p.settle).settleOne option none

/-- Takes a long option without its hyphens. -/
def takeLong (p : Progress) (text : String) : Except Halt Progress :=
  let name := String.ofList (text.toList.takeWhile (· ≠ '='))
  let attached? :=
    match text.toList.dropWhile (· ≠ '=') with
    | _ :: value => some (String.ofList value)
    | [] => none
  match Argument.ofLong? name with
  | some option => p.takeOption option attached?
  | none =>
    let used := p.usedNow
    match Similar.closest? name (Argument.options.filterMap Argument.long?) with
    | some similar =>
      let added := (Argument.ofLong? similar).toList.filter (· ∉ used)
      .error (.fault (.unexpected ("--" ++ name) (.similar similar) (used ++ added)))
    | none => .error (.fault (.unexpected ("--" ++ name) .asValue used))

/-- Takes joined short options without their hyphen. -/
def takeShorts (p : Progress) : List Char → Except Halt Progress
  | [] => .ok p
  | c :: rest =>
    match Argument.ofShort? c with
    | some option => do (← p.takeOption option none).takeShorts rest
    | none => .error (.fault (.unexpected (String.ofList ['-', c]) .asValue []))

/-- Takes an argument that is no option. -/
def takePlain (p : Progress) (text : String) : Except Halt Progress :=
  if p.file.isSome || p.pending.any (·.1 = .file) then
    .error (.fault (.unexpected text .none []))
  else do
    let p ← p.settle
    pure { p with pending := some (.file, some text) }

/-- Takes one argument in front of two hyphens. -/
def take (p : Progress) (text : String) : Except Halt Progress :=
  match text.toList, p.pending with
  | '-' :: '-' :: name, _ => p.takeLong (String.ofList name)
  | '-' :: c :: rest, _ => p.takeShorts (c :: rest)
  | _, some (.maxDepth, none) => .ok { p with pending := some (.maxDepth, some text) }
  | _, _ => p.takePlain text

/-- Takes arguments in order; `options` tells whether there still may be options. -/
def takeAll (p : Progress) (options : Bool) : List String → Except Halt Progress
  | [] => p.settle
  | text :: rest =>
    if options then
      if text = "--" then p.takeAll false rest
      else do (← p.take text).takeAll true rest
    else do (← p.takePlain text).takeAll false rest

/-- Takes the limit from the environment, if the command line has none. -/
def takeDefault (p : Progress) (depth? : Option String) : Except Halt Progress :=
  match p.depth, depth? with
  | none, some text => p.settleOne .maxDepth (some text)
  | _, _ => .ok p

end Progress

/-- Reads a command line; `depth?` is the limit that is used if the command line has none. -/
def ofList (depth? : Option String) (arguments : List String) : Except Halt Arguments := do
  let p ← Progress.start.takeAll true arguments
  let p ← p.takeDefault depth?
  match p.file with
  | none => .error (.fault (.missingFile p.used))
  | some file =>
    pure
      { file
        check := .check ∈ p.used
        dump := .dump ∈ p.used
        maxDepth := p.depth
        verbose := .verbose ∈ p.used }

end Arguments

end TreeLang
