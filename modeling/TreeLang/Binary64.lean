/-!
# Double-precision numbers

A finite double is `mantissa · 2 ^ exponent` with a sign, where the mantissa has at most 53 bits
and the exponent is at least -1074. Numbers are rounded into this form with exact integer
arithmetic, to the nearest double and in a tie to the one with the even mantissa.
-/

namespace TreeLang

/-- A finite double. -/
structure Binary64 where
  /-- Whether the sign is minus; zero has a sign too. -/
  negative : Bool
  /-- The significant bits, at most 53 of them; fewer than 53 only at the least exponent. -/
  mantissa : Nat
  /-- The power of two that scales the mantissa, from -1074 to 971. -/
  exponent : Int
  deriving DecidableEq

namespace Binary64

/-- The exponent of the smallest positive double. -/
def minExponent : Int := -1074

/-- The largest exponent of a finite double. -/
def maxExponent : Int := 971

/-- The least mantissa of 53 bits. -/
def leastNormal : Nat := Nat.pow 2 52

/-- Zero without a sign. -/
def zero : Binary64 := ⟨false, 0, minExponent⟩

/-- The quotient of two numbers rounded to the nearest integer, a tie going to the even one. -/
def divRound (num den : Nat) : Nat :=
  let quotient := num / den
  let rest := num % den
  if 2 * rest < den then quotient
  else if den < 2 * rest then quotient + 1
  else if quotient % 2 = 0 then quotient else quotient + 1

/-- The fraction `num / (den * 2 ^ exponent)` as numerator and denominator. -/
def scaleDown (num den : Nat) (exponent : Int) : Nat × Nat :=
  (num * Nat.pow 2 (-exponent).toNat, den * Nat.pow 2 exponent.toNat)

/-- The double nearest to `num / den`, or nothing if that lies beyond the finite doubles. -/
def ofRatio (num den : Nat) : Option Binary64 :=
  if num = 0 then some zero
  else
    let guess : Int := (num.log2 : Int) - (den.log2 : Int) - 52
    let (top, bottom) := scaleDown num den guess
    let exponent := max minExponent (if top < bottom * leastNormal then guess - 1 else guess)
    let (top, bottom) := scaleDown num den exponent
    let mantissa := divRound top bottom
    let rounded : Binary64 :=
      if mantissa = 2 * leastNormal then ⟨false, leastNormal, exponent + 1⟩
      else ⟨false, mantissa, exponent⟩
    if rounded.exponent ≤ maxExponent then some rounded else none

/-- The absolute value as a fraction. -/
def ratio (x : Binary64) : Nat × Nat :=
  (x.mantissa * Nat.pow 2 x.exponent.toNat, Nat.pow 2 (-x.exponent).toNat)

/-- Whether the first absolute value is less than the second one. -/
def absLess (x y : Binary64) : Bool :=
  x.ratio.1 * y.ratio.2 < y.ratio.1 * x.ratio.2

/-- The double nearest to the sum of two absolute values. -/
def add (x y : Binary64) : Option Binary64 :=
  ofRatio (x.ratio.1 * y.ratio.2 + y.ratio.1 * x.ratio.2) (x.ratio.2 * y.ratio.2)

/-- The double nearest to the product of two absolute values. -/
def mul (x y : Binary64) : Option Binary64 :=
  ofRatio (x.ratio.1 * y.ratio.1) (x.ratio.2 * y.ratio.2)

/-- The double nearest to the quotient of two absolute values. -/
def div (x y : Binary64) : Option Binary64 :=
  ofRatio (x.ratio.1 * y.ratio.2) (x.ratio.2 * y.ratio.1)

/-- The double nearest to a natural number. -/
def ofNat (n : Nat) : Option Binary64 :=
  ofRatio n 1

/-- The double with the given sign. -/
def withSign (negative : Bool) (x : Binary64) : Binary64 :=
  ⟨negative, x.mantissa, x.exponent⟩

end Binary64

end TreeLang
