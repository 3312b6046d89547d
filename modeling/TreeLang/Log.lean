import TreeLang.Expr
import TreeLang.Text.Quoted

/-!
# Logs

A log keeps the events of building and evaluating in the order in which they happen, down to a
level of detail. The end of a call is an event as well, so that at any moment of a log the calls
that are active can be counted; it is the only event that is never shown.
-/

namespace TreeLang

/-- Levels of events, from the most important to the most detailed. -/
inductive Level where
  | error
  | warn
  | info
  | debug
  | trace
  deriving DecidableEq

namespace Level

/-- The name of a level. -/
def name : Level → String
  | error => "ERROR"
  | warn => "WARN"
  | info => "INFO"
  | debug => "DEBUG"
  | trace => "TRACE"

/-- The detail of a level: the larger, the more is shown. -/
def detail : Level → Nat
  | error => 1
  | warn => 2
  | info => 3
  | debug => 4
  | trace => 5

end Level

/-- Something that happens while a program is built or evaluated. -/
inductive Event where
  /-- The program of this name is about to be built. -/
  | building (program : String)
  /-- A node of this kind is about to be built, even if there is no such kind. -/
  | node (kind : String)
  /-- The evaluation of an expression starts, inside so many calls. -/
  | eval (kind : Kind) (depth : Nat)
  /-- A name is about to be bound. -/
  | binding (name : String)
  /-- A function of these parameters is entered; `depth` counts this call too, and the new frame
  has so many bindings. -/
  | call (params : List String) (depth bindings : Nat)
  /-- The call that was entered last and not left yet is left. -/
  | leave
  /-- The tree of this file denotes an expression. -/
  | wellFormed (file : String)
  /-- The program has ended with a value of this text. -/
  | finished (result : String)
  deriving DecidableEq

/-- The value of a field of an event. -/
inductive FieldValue where
  /-- A number. -/
  | number (n : Nat)
  /-- A text that is shown between quotes. -/
  | quoted (text : String)
  /-- A text that is shown as it is. -/
  | plain (text : String)
  deriving DecidableEq

/-- How a field is shown in a line of a log. -/
def FieldValue.shown : FieldValue → String
  | number n => String.ofList (Nat.toDigits 10 n)
  | quoted text => Quoted.encode text
  | plain text => text

/-- What is shown of an event. -/
structure Record where
  /-- The level of the event. -/
  level : Level
  /-- The part of the program in which the event happens. -/
  target : String
  /-- What happens. -/
  message : String
  /-- The particulars. -/
  fields : List (String × FieldValue)

namespace Event

/-- The level of an event. -/
def level : Event → Level
  | building _ => .debug
  | node _ => .trace
  | eval _ _ => .trace
  | binding _ => .trace
  | call _ _ _ => .debug
  | leave => .debug
  | wellFormed _ => .debug
  | finished _ => .debug

/-- What is shown of an event, if it is shown at all. -/
def record? : Event → Option Record
  | building program => some ⟨.debug, "hina", "building", [("program", .quoted program)]⟩
  | node kind =>
    some ⟨.trace, "hina::language::builder", "building node", [("kind", .quoted kind)]⟩
  | eval kind depth =>
    some ⟨.trace, "hina::runtime::interpreter", "eval",
      [("kind", .quoted kind.name), ("depth", .number depth)]⟩
  | binding name =>
    some ⟨.trace, "hina::runtime::interpreter", "binding", [("name", .quoted name)]⟩
  | call params depth bindings =>
    some ⟨.debug, "hina::runtime::interpreter", "call",
      [("function", .plain (Lambda.signatureOf params)), ("depth", .number depth),
        ("bindings", .number bindings)]⟩
  | leave => none
  | wellFormed file => some ⟨.debug, "hina", "tree is well formed", [("file", .plain file)]⟩
  | finished result => some ⟨.debug, "hina", "finished", [("result", .plain result)]⟩

end Event

/-- The line that shows a record: the level in five columns, the target, the message and the
fields. -/
def Record.line (record : Record) : String :=
  let level := record.level.name
  let padding := String.ofList (List.replicate (5 - level.length) ' ')
  let fields := record.fields.map fun (name, value) => " " ++ name ++ "=" ++ value.shown
  padding ++ level ++ " " ++ record.target ++ ": " ++ record.message ++ String.join fields

/-- The events so far. -/
structure Log where
  /-- The largest detail that is kept; nothing is kept at zero. -/
  detail : Nat
  /-- The events that were kept, in order. -/
  events : Array Event

namespace Log

/-- A log that keeps nothing. -/
def off : Log := ⟨0, #[]⟩

/-- A log that keeps every event. -/
def full : Log := ⟨Level.trace.detail, #[]⟩

/-- Adds an event, if the log keeps events of its level. -/
def add (log : Log) (event : Event) : Log :=
  if event.level.detail ≤ log.detail then { log with events := log.events.push event } else log

/-- What is shown of a log. -/
def records (log : Log) : List Record := log.events.toList.filterMap Event.record?

end Log

end TreeLang
