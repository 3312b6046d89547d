import TreeLang.Tree
import TreeLang.Binary64.Shortest
import TreeLang.Text.Numeral

/-!
# Compact text of a tree

The text has no spaces, lists members in their order, and writes each number with the fewest
digits that read back the same.
-/

namespace TreeLang

/-- How a floating-point number is laid out. -/
structure FloatLayout where
  /-- The least decimal exponent that is written without an exponent part. -/
  leastPositional : Int
  /-- The greatest decimal exponent that is written without an exponent part. -/
  greatestPositional : Int

namespace FloatLayout

/-- Numbers from `0.00001` to below `10 ^ 16` are written without an exponent part. -/
def tree : FloatLayout := ⟨-5, 15⟩

/-- A number of magnitude `d.ddd · 10 ^ exponent` written without an exponent part: always with a
fraction, which is `0` for an integer. -/
def positional (digits : List Char) (exponent : Int) : List Char :=
  if exponent < 0 then
    '0' :: '.' :: List.replicate (-exponent - 1).toNat '0' ++ digits
  else
    let count := exponent.toNat + 1
    if digits.length ≤ count then
      digits ++ List.replicate (count - digits.length) '0' ++ ['.', '0']
    else digits.take count ++ '.' :: digits.drop count

/-- A number of magnitude `d.ddd · 10 ^ exponent` written with an exponent part, whose sign is
always there; a single digit has no point. -/
def scientific (digits : List Char) (exponent : Int) : List Char :=
  let sign := if exponent < 0 then '-' else '+'
  let point := if digits.length ≤ 1 then digits else digits.take 1 ++ '.' :: digits.drop 1
  point ++ 'e' :: sign :: Nat.toDigits 10 exponent.natAbs

/-- The text of a double. -/
def text (layout : FloatLayout) (x : Binary64) : List Char :=
  let sign := if x.negative then ['-'] else []
  if x.mantissa = 0 then sign ++ ['0', '.', '0']
  else
    let decimal := x.shortest
    let digits := Nat.toDigits 10 decimal.digits
    let exponent := decimal.exponent + digits.length - 1
    sign ++
      if layout.leastPositional ≤ exponent ∧ exponent ≤ layout.greatestPositional then
        positional digits exponent
      else scientific digits exponent

end FloatLayout

namespace Tree

/-- How one character of a string is written between the quotes. -/
def escape (c : Char) : List Char :=
  match c with
  | '"' => ['\\', '"']
  | '\\' => ['\\', '\\']
  | '\x08' => ['\\', 'b']
  | '\x0c' => ['\\', 'f']
  | '\n' => ['\\', 'n']
  | '\r' => ['\\', 'r']
  | '\t' => ['\\', 't']
  | c =>
    if c.toNat < 0x10 then ['\\', 'u', '0', '0', '0', Nat.digitChar c.toNat]
    else if c.toNat < 0x20 then ['\\', 'u', '0', '0', '1', Nat.digitChar (c.toNat - 0x10)]
    else [c]

/-- A text between quotes. -/
def quote (text : String) : List Char :=
  '"' :: text.toList.flatMap escape ++ ['"']

mutual

/-- The characters of the compact text. -/
def chars : Tree → List Char
  | null => ['n', 'u', 'l', 'l']
  | bool true => ['t', 'r', 'u', 'e']
  | bool false => ['f', 'a', 'l', 's', 'e']
  | int value => Numeral.ofInt value
  | float value => FloatLayout.tree.text value
  | str text => quote text
  | array items => '[' :: itemChars items ++ [']']
  | object fields => '\x7b' :: fieldChars fields ++ ['\x7d']

/-- The elements of an array, with commas between them. -/
def itemChars : List Tree → List Char
  | [] => []
  | [item] => item.chars
  | item :: next :: rest => item.chars ++ ',' :: itemChars (next :: rest)

/-- The members of an object, with commas between them. -/
def fieldChars : List (String × Tree) → List Char
  | [] => []
  | [(key, value)] => quote key ++ ':' :: value.chars
  | (key, value) :: next :: rest =>
    quote key ++ ':' :: value.chars ++ ',' :: fieldChars (next :: rest)

end

/-- The compact text of a tree. -/
def text (tree : Tree) : String :=
  String.ofList tree.chars

end Tree

end TreeLang
