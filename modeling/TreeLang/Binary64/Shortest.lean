import TreeLang.Binary64

/-!
# Shortest decimal text of a double

Every real number of a certain interval rounds to a given double. Its ends lie half way to the two
neighbouring doubles and belong to the interval exactly when the mantissa is even. The shortest
digits of the double are found on decimal grids of ever finer step: on each grid only the two
points around the double are tried, the first grid with a point in the interval wins, and of two
such points the nearer one is taken.
-/

namespace TreeLang

namespace Binary64

/-- A decimal number `digits · 10 ^ exponent`. -/
structure Decimal where
  /-- The significant digits, read as a number. -/
  digits : Nat
  /-- The power of ten that scales the digits. -/
  exponent : Int
  deriving DecidableEq

/-- The numbers that round to a double, scaled by a common denominator. -/
structure Interval where
  /-- The lower end. -/
  low : Nat
  /-- The double itself. -/
  middle : Nat
  /-- The upper end. -/
  high : Nat
  /-- The common denominator. -/
  denominator : Nat
  /-- Whether the ends belong to the interval. -/
  closed : Bool

/-- The numbers that round to the absolute value of `x`. Below a power of two the doubles lie
twice as close, unless that power has the least exponent. -/
def interval (x : Binary64) : Interval :=
  let below := if x.mantissa = leastNormal ∧ minExponent < x.exponent then 1 else 2
  let scale := Nat.pow 2 (x.exponent - 2).toNat
  { low := (4 * x.mantissa - below) * scale
    middle := 4 * x.mantissa * scale
    high := (4 * x.mantissa + 2) * scale
    denominator := Nat.pow 2 (2 - x.exponent).toNat
    closed := x.mantissa % 2 = 0 }

/-- The interval in units of `10 ^ exponent`. -/
def Interval.inUnits (i : Interval) (exponent : Int) : Interval :=
  let up := Nat.pow 10 (-exponent).toNat
  { low := i.low * up
    middle := i.middle * up
    high := i.high * up
    denominator := i.denominator * Nat.pow 10 exponent.toNat
    closed := i.closed }

/-- Whether an integer lies in the interval. -/
def Interval.holds (i : Interval) (n : Nat) : Bool :=
  let point := n * i.denominator
  if i.closed then i.low ≤ point && point ≤ i.high else i.low < point && point < i.high

/-- The integer next to the middle that lies in the interval, the nearer one if there are two;
in a tie the even one. -/
def Interval.nearest? (i : Interval) : Option Nat :=
  let lower := i.middle / i.denominator
  let upper := lower + 1
  match i.holds lower, i.holds upper with
  | true, true =>
    let before := i.middle - lower * i.denominator
    let after := upper * i.denominator - i.middle
    if before < after then some lower
    else if after < before then some upper
    else if lower % 2 = 0 then some lower else some upper
  | true, false => some lower
  | false, true => some upper
  | false, false => none

/-- The number of digits in front of the decimal point; for a number below one, minus the number
of zeros that follow the point. No double is below `10 ^ -400`. -/
def Interval.magnitude (i : Interval) : Int :=
  (Nat.toDigits 10 (i.middle * Nat.pow 10 400 / i.denominator)).length - 400

/-- Tries grids of `digits`, `digits + 1`, … digits, `tries` of them. -/
def Interval.search (i : Interval) (magnitude : Int) : Nat → Nat → Decimal
  | 0, digits => ⟨0, magnitude - digits⟩
  | tries + 1, digits =>
    let exponent := magnitude - digits
    match (i.inUnits exponent).nearest? with
    | some n => ⟨n, exponent⟩
    | none => i.search magnitude tries (digits + 1)

/-- Moves trailing zeros of the digits into the exponent. -/
def Decimal.strip (d : Decimal) : Nat → Decimal
  | 0 => d
  | tries + 1 =>
    if d.digits ≠ 0 ∧ d.digits % 10 = 0 then
      Decimal.strip ⟨d.digits / 10, d.exponent + 1⟩ tries
    else d

/-- The shortest decimal number that rounds to the absolute value of `x`. Seventeen digits always
suffice. -/
def shortest (x : Binary64) : Decimal :=
  let i := x.interval
  (i.search i.magnitude 17 1).strip 18

end Binary64

end TreeLang
