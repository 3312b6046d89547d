/-!
# Text on a terminal

A text may hold control sequences, which a terminal obeys instead of showing them. `plain` leaves
of a text what a terminal shows, for a reader that is none: the visible characters and the blanks
outside of control sequences. A sequence that is not finished hides the text up to its end.
-/

namespace TreeLang

namespace Terminal

/-- The character that starts a control sequence. -/
def escape : Char := '\x1b'

/-- Whether a character has a shape or is a space; beyond ASCII, every character counts. -/
def isVisible (c : Char) : Bool := ' ' ≤ c && c ≠ '\x7f'

/-- Whether a control character is a blank. -/
def isBlank (c : Char) : Bool := c = '\t' || c = '\n' || c = '\x0c' || c = '\r'

/-- Whether a character is shown outside of control sequences. -/
def isShown (c : Char) : Bool := isVisible c || isBlank c

/-- A control sequence that has been read in part. -/
inductive Sequence where
  /-- The escape character alone. -/
  | start
  /-- A short sequence, which ends with its first character behind `/`. -/
  | short
  /-- A sequence opened by a bracket, which ends with its first character behind `?`. -/
  | control
  /-- A string for the device, without parameters so far. -/
  | device
  /-- A string for the device, in its parameters. -/
  | parameters
  /-- A string for the device, behind its parameters. -/
  | intermediates
  /-- A string for the device whose parameters are malformed; it does not end by itself. -/
  | malformed
  /-- Data, which end with the byte 9C, be it part of a character. -/
  | data
  /-- A command to the system, which ends with the bell. -/
  | command
  deriving DecidableEq

namespace Sequence

/-- What an escape character and a character behind `/` open. -/
def opened? : Char → Option Sequence
  | '[' => some control
  | ']' => some command
  | 'P' => some device
  | 'X' => some data
  | '^' => some data
  | '_' => some data
  | _ => none

/-- The sequence with one more character, or nothing if it ends there. Characters that cannot
stand in a sequence do not change it. -/
def next? (s : Sequence) (c : Char) : Option Sequence :=
  if c = '\x18' || c = '\x1a' then none
  else if c = escape then some start
  else
    match s with
    | start =>
      if c < ' ' || '~' < c then some start else if c ≤ '/' then some short else opened? c
    | short => if '/' < c && c ≤ '~' then none else some short
    | control => if '?' < c && c ≤ '~' then none else some control
    | device =>
      if c < ' ' || '~' < c then some device
      else if c ≤ '/' then some intermediates
      else if c ≤ '?' then some parameters
      else some data
    | parameters =>
      if c < ' ' || '~' < c then some parameters
      else if c ≤ '/' then some intermediates
      else if c ≤ ';' then some parameters
      else if c ≤ '?' then some malformed
      else some data
    | intermediates =>
      if c < ' ' || '~' < c || c ≤ '/' then some intermediates
      else if c ≤ '?' then some malformed
      else some data
    | malformed => some malformed
    | data => if 0x9c ∈ String.utf8EncodeChar c then none else some data
    | command => if c = '\x07' then none else some command

/-- Whether a blank inside of the sequence is shown; in strings it is not. -/
def showsBlanks (s : Sequence) : Bool := s = start || s = short || s = control

end Sequence

/-- How the next character of a text is read. -/
inductive Mode where
  /-- Outside of control sequences. -/
  | text
  /-- Inside of a sequence. -/
  | inside (s : Sequence)
  /-- Behind a blank in a sequence. What follows is shown, until a control character takes the
  sequence up again or a character beyond ASCII gives it up. -/
  | suspended (s : Sequence)
  deriving DecidableEq

namespace Mode

/-- The mode inside of a sequence, or outside if it has ended. -/
def ofSequence? : Option Sequence → Mode
  | some s => inside s
  | none => text

/-- Whether a character is shown in this mode. -/
def shows : Mode → Char → Bool
  | text, c => isShown c
  | inside s, c => s.showsBlanks && isBlank c
  | suspended _, c => isShown c

/-- The mode behind a character. -/
def next (mode : Mode) (c : Char) : Mode :=
  match mode with
  | text => if c = escape then inside .start else text
  | inside s => if mode.shows c then suspended s else ofSequence? (s.next? c)
  | suspended s =>
    if mode.shows c then (if c ≤ '~' then suspended s else text) else ofSequence? (s.next? c)

end Mode

/-- A text that has been read in part. -/
structure Reading where
  /-- How the rest is read. -/
  mode : Mode
  /-- What is shown of the first part. -/
  shown : String

/-- Reads one more character. -/
def Reading.take (r : Reading) (c : Char) : Reading :=
  ⟨r.mode.next c, if r.mode.shows c then r.shown.push c else r.shown⟩

/-- What is shown of a text. -/
def plain (text : String) : String :=
  (text.toList.foldl Reading.take ⟨.text, ""⟩).shown

/-- A text in bold letters. -/
def bold (text : String) : String := "\x1b[1m" ++ text ++ "\x1b[0m"

end Terminal

end TreeLang
