import TreeLang.Log
import TreeLang.Text.Numeral

/-!
# Log filters

A filter is written as directives between commas. A directive gives a level, a target, or a target
with a level; a target alone stands for all levels. Of the directives whose target starts that of
a record, the most specific one decides whether the record is shown, and of equally specific ones
the last.

A directive may also ask for a span, in square brackets, and a field, in braces. There are no
spans, so a directive that asks for one, or for the value of a field, never applies.
-/

namespace TreeLang

/-- One rule of a filter. -/
structure Directive where
  /-- How the target of a record has to start. -/
  target : String
  /-- The field that a record needs to have, if there is one. -/
  field : Option String
  /-- The largest detail that is shown; nothing is shown at zero. -/
  detail : Nat
  /-- Whether the directive can apply at all. -/
  applies : Bool
  deriving DecidableEq

/-- A filter: its directives in the order in which they are written. -/
abbrev LogFilter := List Directive

namespace LogFilter

/-- The detail of a level that is given by its name or number. -/
def readLevel? (text : List Char) : Option Nat :=
  match String.ofList (text.map Char.toLower) with
  | "off" => some 0
  | "error" => some 1
  | "warn" => some 2
  | "info" => some 3
  | "debug" => some 4
  | "trace" => some 5
  | name => (Numeral.readNat 5 name).toOption

/-- The detail behind an equals sign, where nothing stands for everything. -/
def readBehind? (text : List Char) : Option Nat :=
  if text.isEmpty then some 5 else readLevel? text

/-- Reads what follows the square brackets of a directive, which begins at a place of the whole
directive. -/
def readTail? (whole target : List Char) (field : Option String) (applies : Bool) (place : Nat) :
    List Char → Option Directive
  | [] => some ⟨String.ofList target, field, 5, applies⟩
  | '=' :: _ =>
    (readBehind? (whole.drop (place + 1))).map (⟨String.ofList target, field, ·, applies⟩)
  | _ => none

/-- Reads what follows the opening bracket of a directive, which begins at a place of the whole
directive. -/
def readBracket? (whole target : List Char) (place : Nat) (text : List Char) : Option Directive :=
  let span := text.takeWhile fun c => c ≠ ']' && c ≠ '\x7b'
  let place := place + span.length + 1
  match text.drop span.length with
  | ']' :: rest => readTail? whole target none false place rest
  | '\x7b' :: inner =>
    let size := (inner.takeWhile (· ≠ '\x7d')).length
    let field := (whole.drop place).take size
    if size = 0 then none
    else
      match inner.drop size with
      | '\x7d' :: ']' :: rest =>
        readTail? whole target (some (String.ofList field)) (span.isEmpty && !field.contains '=')
          (place + size + 2) rest
      | _ => none
  | _ => none

/-- Whether a target may start with this character. -/
def startsTarget (c : Char) : Bool :=
  c.isAlphanum || c = '-' || c = ':' || c = '_' || 0x80 ≤ c.toNat

/-- Whether a character is white space. -/
def isSpace (c : Char) : Bool :=
  ('\t' ≤ c && c ≤ '\r') || c = ' ' || c = '\u0085' || c = '\u00a0' || c = '\u1680' ||
    ('\u2000' ≤ c && c ≤ '\u200a') || c = '\u2028' || c = '\u2029' || c = '\u202f' ||
    c = '\u205f' || c = '\u3000'

/-- The characters of a text without white space at its ends. -/
def trim (text : List Char) : List Char :=
  ((text.dropWhile isSpace).reverse.dropWhile isSpace).reverse

/-- Reads a directive. Its places are found in the text without white space at its ends, but the
parts are cut at these places from the whole of it; so a part may have white space in it, which
then makes it another name or no level at all. -/
def readDirective? (whole : List Char) : Option Directive :=
  let text := trim whole
  match text with
  | '[' :: rest => readBracket? whole [] 1 rest
  | c :: _ =>
    if startsTarget c then
      let size := (text.takeWhile fun c => c ≠ '=' && c ≠ '[').length
      let target := whole.take size
      match text.drop size with
      | '=' :: _ =>
        (readBehind? (whole.drop (size + 1))).map (⟨String.ofList target, none, ·, true⟩)
      | _ :: rest => readBracket? whole target (size + 1) rest
      | [] =>
        match readLevel? whole with
        | some detail => some ⟨"", none, detail, true⟩
        | none => some ⟨String.ofList whole, none, 5, true⟩
    else none
  | [] => none

/-- Shows records up to this detail, whatever their target. -/
def upTo (detail : Nat) : LogFilter := [⟨"", none, detail, true⟩]

/-- Reads a filter; an empty text shows errors only. -/
def ofText? (text : String) : Option LogFilter :=
  if text.isEmpty then some (upTo 1)
  else (text.toList.splitOn ',').mapM readDirective?

/-- The largest detail that a filter ever shows. -/
def detail (filter : LogFilter) : Nat := (filter.map Directive.detail).foldl max 0

/-- Whether a directive is about a record. -/
def concerns (record : Record) (d : Directive) : Bool :=
  d.applies && d.target.toList.isPrefixOf record.target.toList &&
    d.field.all fun name => name = "message" || record.fields.any (·.1 = name)

/-- Whether the second of two directives about one record is at least as specific. -/
def atLeast (d e : Directive) : Bool :=
  d.target.length < e.target.length ||
    (d.target.length = e.target.length &&
      match d.field, e.field with
      | none, _ => true
      | some _, none => false
      | some m, some n => m ≤ n)

/-- Whether a filter shows a record. -/
def shows (filter : LogFilter) (record : Record) : Bool :=
  let decisive := (filter.filter (concerns record)).foldl
    (fun (best : Option Directive) d =>
      match best with
      | none => some d
      | some b => if atLeast b d then some d else some b) none
  decisive.any fun d => record.level.detail ≤ d.detail

end LogFilter

end TreeLang
