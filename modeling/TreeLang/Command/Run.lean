import TreeLang.Command.Arguments
import TreeLang.Command.LogFilter
import TreeLang.Expr.Outline
import TreeLang.Program
import TreeLang.Text.Terminal

/-!
# The command

The command loads a tree, builds its expression and evaluates that, as far as the arguments ask
for it. What the program prints goes to one sink; the log, the outline and the report of a failure
go to another place, in the order in which they arise.
-/

namespace TreeLang

/-- Settings that come with the command from outside of its arguments. -/
structure Settings where
  /-- The limit on nested calls that is used if the arguments have none. -/
  maxDepth : Option String
  /-- The filter of the log that is used first. -/
  log : Option String
  /-- The filter of the log that is used if the first one is missing or unusable. -/
  generalLog : Option String

/-- What the command leaves. -/
structure CommandResult where
  /-- The exit status. -/
  status : Nat
  /-- The bytes on standard output. -/
  output : ByteArray
  /-- The text on standard error. -/
  messages : String

namespace Command

open Terminal (bold)

/-- The filter of the log: verbosity wins over the settings, and without any of them warnings are
shown. -/
def filter (settings : Settings) (verbose : Bool) : LogFilter :=
  if verbose then .upTo Level.debug.detail
  else
    match settings.log.bind LogFilter.ofText? with
    | some filter => filter
    | none => (settings.generalLog.bind LogFilter.ofText?).getD (.upTo Level.warn.detail)

/-- The lines of a log that a filter shows. -/
def logText (filter : LogFilter) (log : Log) : String :=
  String.join ((log.records.filter filter.shows).map fun record => record.line ++ "\n")

/-- A log with nothing in it, and as detailed as another one. -/
def emptied (log : Log) : Log := { log with events := #[] }

/-- What is left of the command, up to the exit status. -/
structure Performance where
  /-- Why the command fails, if it does. -/
  failure : Option Failure
  /-- The sink with what was printed. -/
  sink : Sink
  /-- What was written besides. -/
  messages : String

/-- What the command leaves once it has performed: a failure makes the exit status and is reported
behind everything else. -/
def Performance.result (file : String) (done : Performance) : CommandResult :=
  match done.failure with
  | none => ⟨0, done.sink.written, done.messages⟩
  | some failure => ⟨1, done.sink.written, done.messages ++ failure.report file⟩

/-- Evaluates an expression that has been built, as far as the arguments ask for it. -/
def evaluate? (filter : LogFilter) (arguments : Arguments) (e : Expr) (sink : Sink) (log : Log)
    (messages : String) : Option Performance :=
  let messages := if arguments.dump then messages ++ e.outlineText ++ "\n" else messages
  if arguments.check then
    let log := log.add (.wellFormed arguments.file)
    some ⟨none, sink, messages ++ logText filter log⟩
  else
    (e.run? arguments.maxDepth sink log).map fun done =>
      match done.result with
      | .ok value =>
        let log := done.log.add (.finished value.render)
        ⟨none, done.sink, messages ++ logText filter log⟩
      | .error failure => ⟨some failure, done.sink, messages ++ logText filter done.log⟩

/-- Performs the command for arguments that have been read. -/
def perform? (files : FileSystem) (filter : LogFilter) (arguments : Arguments) (sink : Sink) :
    Option Performance :=
  match Tree.load files arguments.file with
  | .error cause => some ⟨some (.load cause), sink, ""⟩
  | .ok tree =>
    match Expr.ofProgram tree ⟨filter.detail, #[]⟩ with
    | .error cause log => some ⟨some (.build cause), sink, logText filter log⟩
    | .ok e log => evaluate? filter arguments e sink (emptied log) (logText filter log)

/-- Runs the command for arguments that have been read. There is no answer if the evaluation of the
program does not end. -/
def execute? (files : FileSystem) (settings : Settings) (arguments : Arguments) (sink : Sink) :
    Option CommandResult :=
  (perform? files (filter settings arguments.verbose) arguments sink).map
    (Performance.result arguments.file)

/-- How the command is used, for a terminal. The limit in the settings is shown beside its option,
with its lines indented like the descriptions of the options. -/
def styledHelp (settings : Settings) : String :=
  let limit := (settings.maxDepth.getD "").replace "\n" ("\n" ++ "".pushn ' ' 31)
  "Evaluates programs given as JSON syntax trees\n" ++
  "\n" ++
  bold "Usage:" ++ " " ++ bold "hina" ++ " [OPTIONS] <FILE>\n" ++
  "\n" ++
  bold "Arguments:" ++ "\n" ++
  "  <FILE>  Path to the JSON syntax tree\n" ++
  "\n" ++
  bold "Options:" ++ "\n" ++
  "      " ++ bold "--check" ++
    "                  Build the expression tree without evaluating it\n" ++
  "      " ++ bold "--dump-ast" ++ "               Print the built expression tree to stderr\n" ++
  "      " ++ bold "--max-depth" ++
    " <MAX_DEPTH>  Abort once calls nest deeper than this [env: HINA_MAX_DEPTH=" ++ limit ++
    "]\n" ++
  "  " ++ bold "-v" ++ ", " ++ bold "--verbose" ++ "                Enable debug logging\n" ++
  "  " ++ bold "-h" ++ ", " ++ bold "--help" ++ "                   Print help\n" ++
  "  " ++ bold "-V" ++ ", " ++ bold "--version" ++ "                Print version\n"

/-- How the command is used, as far as it is shown on a terminal. -/
def help (settings : Settings) : String := Terminal.plain (styledHelp settings)

/-- The name and version of the command. -/
def version : String := "hina 0.1.0\n"

/-- Runs the command. There is no answer if the evaluation of the program does not end. -/
def run? (files : FileSystem) (settings : Settings) (arguments : List String) (sink : Sink) :
    Option CommandResult :=
  match Arguments.ofList settings.maxDepth arguments with
  | .error .help => some ⟨0, (sink.write (help settings).toUTF8).2.written, ""⟩
  | .error .version => some ⟨0, (sink.write version.toUTF8).2.written, ""⟩
  | .error (.fault cause) => some ⟨2, sink.written, cause.message⟩
  | .ok arguments => execute? files settings arguments sink

end Command

end TreeLang
