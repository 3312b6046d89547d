import TreeLang.Expr
import TreeLang.Text.Numeral

/-!
# Values

What an expression evaluates to: a text, a 32-bit integer, a truth value, a pair, or a closure. A
closure is a function and nothing else, since a function sees the bindings of its caller.

Values are equal when they are the same term. The comparison of two values that share their cells
does not look into them, so values with much sharing compare quickly; the answer is that of the
comparison by contents.
-/

namespace TreeLang

/-- A value. -/
inductive Value where
  /-- A text. -/
  | str (text : String)
  /-- A signed integer of 32 bits. -/
  | int (value : Int32)
  /-- A truth value. -/
  | bool (value : Bool)
  /-- A pair. -/
  | tuple (first second : Value)
  /-- A function that can be called. -/
  | closure (function : Lambda)

/-- The types of values. -/
inductive ValueType where
  | str
  | int
  | bool
  | tuple
  | closure
  deriving DecidableEq

/-- The name of a type. -/
def ValueType.name : ValueType → String
  | str => "Str"
  | int => "Int"
  | bool => "Bool"
  | tuple => "Tuple"
  | closure => "Closure"

namespace Value

/-- The type of a value. -/
def type : Value → ValueType
  | str _ => .str
  | int _ => .int
  | bool _ => .bool
  | tuple _ _ => .tuple
  | closure _ => .closure

/-- Decides whether two values are the same term. -/
def decEq (v w : Value) : Decidable (v = w) :=
  withPtrEqDecEq v w fun _ =>
    match v, w with
    | str a, str b => decidable_of_iff (a = b) (by simp)
    | int a, int b => decidable_of_iff (a = b) (by simp)
    | bool a, bool b => decidable_of_iff (a = b) (by simp)
    | closure f, closure g => decidable_of_iff (f = g) (by simp)
    | tuple a b, tuple c d =>
      match decEq a c with
      | isFalse h => isFalse (by simp [h])
      | isTrue h =>
        match decEq b d with
        | isFalse h => isFalse (by simp [h])
        | isTrue h' => isTrue (by simp [h, h'])
    | str _, int _ | str _, bool _ | str _, tuple _ _ | str _, closure _ => isFalse nofun
    | int _, str _ | int _, bool _ | int _, tuple _ _ | int _, closure _ => isFalse nofun
    | bool _, str _ | bool _, int _ | bool _, tuple _ _ | bool _, closure _ => isFalse nofun
    | tuple _ _, str _ | tuple _ _, int _ | tuple _ _, bool _ | tuple _ _, closure _ =>
      isFalse nofun
    | closure _, str _ | closure _, int _ | closure _, bool _ | closure _, tuple _ _ =>
      isFalse nofun

instance : DecidableEq Value := decEq

/-- The text of an integer. -/
def renderInt (n : Int32) : String := String.ofList (Numeral.ofInt n.toInt)

/-- The text of a truth value. -/
def renderBool : Bool → String
  | true => "true"
  | false => "false"

/-- The text of a value, as it is printed and as it is put together with other texts. -/
def render : Value → String
  | str text => text
  | int value => renderInt value
  | bool value => renderBool value
  | tuple first second => "(" ++ first.render ++ ", " ++ second.render ++ ")"
  | closure _ => "<#closure>"

end Value

end TreeLang
