/-!
# Decimal numerals

A numeral is an optional sign and at least one ASCII digit; leading zeros are allowed. Digits are
read from the left against a bound, and the first offence decides how a text is refused: a
character that is no digit, or the digit with which the number passes the bound.
-/

namespace TreeLang

/-- Why a text is not a numeral within its bound. -/
inductive NumeralFault where
  /-- There is no character at all. -/
  | empty
  /-- A character that is no digit stands where a digit is due. -/
  | invalidDigit
  /-- The digits read so far exceed the bound. -/
  | tooLarge
  deriving DecidableEq

namespace Numeral

/-- The value of an ASCII digit. -/
def digit? (c : Char) : Option Nat :=
  if 48 ≤ c.toNat ∧ c.toNat ≤ 57 then some (c.toNat - 48) else none

/-- Reads digits behind those that made `value`, never passing `bound`. -/
def readDigits (bound : Nat) : Nat → List Char → Except NumeralFault Nat
  | value, [] => .ok value
  | value, c :: rest =>
    match digit? c with
    | none => .error .invalidDigit
    | some d =>
      if 10 * value + d ≤ bound then readDigits bound (10 * value + d) rest
      else .error .tooLarge

/-- Reads an unsigned part: at least one digit, of a number that is at most `bound`. -/
def readUnsigned (bound : Nat) : List Char → Except NumeralFault Nat
  | [] => .error .invalidDigit
  | digits => readDigits bound 0 digits

/-- Reads a natural number up to `bound`; a plus sign may stand in front. -/
def readNat (bound : Nat) (text : String) : Except NumeralFault Nat :=
  match text.toList with
  | [] => .error .empty
  | '+' :: digits => readUnsigned bound digits
  | digits => readUnsigned bound digits

/-- The largest integer of 32 bits. -/
def maxInt32 : Nat := 2147483647

/-- Reads a signed 32-bit integer; a plus or a minus sign may stand in front. -/
def readInt32 (text : String) : Except NumeralFault Int32 :=
  match text.toList with
  | [] => .error .empty
  | '+' :: digits => (readUnsigned maxInt32 digits).map Int32.ofNat
  | '-' :: digits => (readUnsigned (maxInt32 + 1) digits).map fun n => Int32.ofInt (-(n : Int))
  | digits => (readUnsigned maxInt32 digits).map Int32.ofNat

/-- The decimal digits of an integer without leading zeros, behind a minus sign if it is
negative. -/
def ofInt (n : Int) : List Char :=
  if n < 0 then '-' :: Nat.toDigits 10 n.natAbs else Nat.toDigits 10 n.natAbs

end Numeral

end TreeLang
