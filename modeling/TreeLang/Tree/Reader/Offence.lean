/-!
# Offences in the text of a tree

The text of a tree is read byte by byte and refused at the first byte that fits nothing. An
offence keeps what is wrong and how many bytes of the text lie behind it; its line and column are
counted from the text only when they are shown.

An offence either points at a byte that was only looked at, or behind the last byte that was
taken.
-/

namespace TreeLang

/-- What is wrong with the text of a tree. -/
inductive TextFault where
  /-- The text ends where a value is due. -/
  | endInValue
  /-- The text ends inside an array. -/
  | endInArray
  /-- The text ends inside an object. -/
  | endInObject
  /-- The text ends inside a string. -/
  | endInString
  /-- A word that starts like `null`, `true` or `false` goes on otherwise. -/
  | expectedWord
  /-- No value starts like this. -/
  | expectedValue
  /-- An element is followed by neither a comma nor the end of the array. -/
  | expectedCommaOrBracket
  /-- A member is followed by neither a comma nor the end of the object. -/
  | expectedCommaOrBrace
  /-- The name of a member is not followed by a colon. -/
  | expectedColon
  /-- A comma is followed by the end of its array or object. -/
  | trailingComma
  /-- The name of a member is not a string. -/
  | keyNotString
  /-- Something follows the value. -/
  | trailingCharacters
  /-- Arrays and objects are nested too deeply. -/
  | nestedTooDeep
  /-- A control character stands unescaped in a string. -/
  | controlCharacter
  /-- No such escape exists. -/
  | invalidEscape
  /-- A surrogate stands without its partner. -/
  | loneSurrogate
  /-- The escape of the second surrogate is missing. -/
  | endOfEscape
  /-- A number is not written as one. -/
  | invalidNumber
  /-- A number is too large for a double. -/
  | numberOutOfRange
  deriving DecidableEq

/-- The words for a fault. -/
def TextFault.message : TextFault → String
  | endInValue => "EOF while parsing a value"
  | endInArray => "EOF while parsing a list"
  | endInObject => "EOF while parsing an object"
  | endInString => "EOF while parsing a string"
  | expectedWord => "expected ident"
  | expectedValue => "expected value"
  | expectedCommaOrBracket => "expected `,` or `]`"
  | expectedCommaOrBrace => "expected `,` or `\x7d`"
  | expectedColon => "expected `:`"
  | trailingComma => "trailing comma"
  | keyNotString => "key must be a string"
  | trailingCharacters => "trailing characters"
  | nestedTooDeep => "recursion limit exceeded"
  | controlCharacter => "control character (\\u0000-\\u001F) found while parsing a string"
  | invalidEscape => "invalid escape"
  | loneSurrogate => "lone leading surrogate in hex escape"
  | endOfEscape => "unexpected end of hex escape"
  | invalidNumber => "invalid number"
  | numberOutOfRange => "number out of range"

/-- The bytes of a text that are still to be read. -/
abbrev Bytes := List UInt8

/-- A fault and where it stands. -/
structure Offence where
  /-- What is wrong. -/
  fault : TextFault
  /-- The number of bytes of the text behind the place of the fault. -/
  behind : Nat
  deriving DecidableEq

namespace Offence

/-- The fault stands behind the last byte that was taken; `rest` is what follows. -/
def taken (fault : TextFault) (rest : Bytes) : Offence := ⟨fault, rest.length⟩

/-- The fault is the first byte of `rest`, or the end of the text. -/
def seen (fault : TextFault) (rest : Bytes) : Offence := ⟨fault, rest.length - 1⟩

end Offence

/-- A fault with the line and the column where it stands. -/
structure TextError where
  /-- What is wrong. -/
  fault : TextFault
  /-- The line, counted from one. -/
  line : Nat
  /-- The number of bytes of that line up to and with the fault. -/
  column : Nat
  deriving DecidableEq

/-- Places an offence in its text. -/
def TextError.locate (text : Bytes) (offence : Offence) : TextError :=
  let before := text.take (text.length - offence.behind)
  { fault := offence.fault
    line := before.count 10 + 1
    column := (before.reverse.takeWhile (· ≠ 10)).length }

/-- The words for a fault and its place. -/
def TextError.message (error : TextError) : String :=
  s!"{error.fault.message} at line {error.line} column {error.column}"

end TreeLang
