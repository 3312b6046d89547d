import TreeLang.Tree
import TreeLang.Tree.Reader.Offence

/-!
# Numbers in the text of a tree

A number without fraction and exponent stays an integer if it lies between `-2 ^ 63` and
`2 ^ 64 - 1`; minus zero and everything else become doubles.

The significand of a double collects digits while it stays below `2 ^ 64`. Integer digits beyond
that only raise the exponent and further fraction digits are dropped, so the result is not always
the double nearest to the text. One rounded multiplication or division by a power of ten applies
the exponent; powers that are no double are applied in steps.
-/

namespace TreeLang

namespace Number

/-- Whether a byte is an ASCII digit. -/
def isDigit (b : UInt8) : Bool := 48 ≤ b && b ≤ 57

/-- The largest number whose digits are collected. -/
def maxSignificand : Nat := UInt64.size - 1

/-- The largest exponent that is counted, that of 31 bits. -/
def maxExponent : Nat := 2147483647

/-- The least integer, without its sign. -/
def maxNegative : Nat := 9223372036854775808

/-- Appends digits to a number while it stays within a bound. The second component holds the
digits from the first one on that does not fit. -/
def collect (bound : Nat) : Nat → Bytes → Nat × Bytes
  | value, [] => (value, [])
  | value, b :: rest =>
    let next := 10 * value + (b.toNat - 48)
    if next ≤ bound then collect bound next rest else (value, b :: rest)

/-- Divides by `10 ^ 308` the given number of times. -/
def shrink (x : Binary64) : Nat → Binary64
  | 0 => x
  | steps + 1 =>
    if x.mantissa = 0 then x
    else shrink ((x.div ((Binary64.ofNat (Nat.pow 10 308)).getD .zero)).getD .zero) steps

/-- The double `significand * 10 ^ exponent`, or nothing if it is too large. -/
def scale (significand : Nat) (exponent : Int) : Option Binary64 :=
  (Binary64.ofNat significand).bind fun x =>
    if x.mantissa = 0 then some x
    else if 308 < exponent then none
    else if 0 ≤ exponent then (Binary64.ofNat (Nat.pow 10 exponent.toNat)).bind x.mul
    else
      let steps := ((-exponent).toNat - 1) / 308
      let rest := (-exponent).toNat - 308 * steps
      (Binary64.ofNat (Nat.pow 10 rest)).bind (shrink x steps).div

/-- An exponent that was read. -/
inductive Exponent where
  /-- A power of ten. -/
  | power (exponent : Int)
  /-- A negative exponent too large to be counted, or any such exponent of zero. -/
  | vanishing

/-- Reads an exponent behind its letter and sign; `zero` tells whether the significand is zero. -/
def readUnsignedExponent (zero negative : Bool) (s : Bytes) :
    Except Offence (Exponent × Bytes) :=
  match s with
  | [] => .error (.taken .endInValue [])
  | b :: rest =>
    if isDigit b then
      let behind := s.dropWhile isDigit
      match collect maxExponent 0 (s.takeWhile isDigit) with
      | (value, []) => .ok (.power (if negative then -(value : Int) else value), behind)
      | (_, _ :: unread) =>
        if negative || zero then .ok (.vanishing, behind)
        else .error (.taken .numberOutOfRange (unread ++ behind))
    else .error (.taken .invalidNumber rest)

/-- Reads an exponent behind its letter. -/
def readExponent (zero : Bool) (s : Bytes) : Except Offence (Exponent × Bytes) :=
  match s with
  | 43 :: rest => readUnsignedExponent zero false rest
  | 45 :: rest => readUnsignedExponent zero true rest
  | s => readUnsignedExponent zero false s

/-- The number made of a significand, a power of ten and an exponent part, which ends in front of
`rest`. -/
def applyExponent (negative : Bool) (significand : Nat) (exponent : Int) (part : Exponent)
    (rest : Bytes) : Except Offence (Tree × Bytes) :=
  match part with
  | .vanishing => .ok (.float (Binary64.zero.withSign negative), rest)
  | .power more =>
    match scale significand (exponent + more) with
    | some x => .ok (.float (x.withSign negative), rest)
    | none => .error (.taken .numberOutOfRange rest)

/-- Whether an exponent part starts here. -/
def isExponentLetter (b : UInt8) : Bool := b = 101 || b = 69

/-- The number made of a significand and a power of ten, and of an exponent part if one follows. -/
def finish (negative : Bool) (significand : Nat) (exponent : Int) (s : Bytes) :
    Except Offence (Tree × Bytes) :=
  match s with
  | b :: behind =>
    if isExponentLetter b then
      match readExponent (significand = 0) behind with
      | .error e => .error e
      | .ok (part, rest) => applyExponent negative significand exponent part rest
    else applyExponent negative significand exponent (.power 0) s
  | [] => applyExponent negative significand exponent (.power 0) s

/-- Reads the fraction behind its point. -/
def readFraction (negative : Bool) (significand : Nat) (exponent : Int) (s : Bytes) :
    Except Offence (Tree × Bytes) :=
  let digits := s.takeWhile isDigit
  let rest := s.dropWhile isDigit
  if digits.isEmpty then
    match rest with
    | [] => .error (.taken .endInValue [])
    | rest => .error (.seen .invalidNumber rest)
  else
    let (value, dropped) := collect maxSignificand significand digits
    finish negative value (exponent - (digits.length - dropped.length : Nat)) rest

/-- The number that an integer without fraction and exponent stands for. -/
def ofInteger (negative : Bool) (value : Nat) : Tree :=
  if negative then
    if value = 0 ∨ maxNegative < value then
      .float (((Binary64.ofNat value).getD .zero).withSign true)
    else .int (-(value : Int))
  else .int value

/-- Reads a number behind its sign. -/
def readMagnitude (negative : Bool) (s : Bytes) : Except Offence (Tree × Bytes) :=
  match s with
  | [] => .error (.taken .endInValue [])
  | b :: rest =>
    if isDigit b then
      let digits := s.takeWhile isDigit
      let behind := s.dropWhile isDigit
      if b = 48 ∧ digits.length ≠ 1 then .error (.seen .invalidNumber rest)
      else
        let (value, unused) := collect maxSignificand 0 digits
        match behind with
        | 46 :: fraction => readFraction negative value unused.length fraction
        | _ =>
          if unused.isEmpty && !(behind.head?.any isExponentLetter) then
            .ok (ofInteger negative value, behind)
          else finish negative value unused.length behind
    else .error (.taken .invalidNumber rest)

/-- Reads a number, which starts with a minus sign or a digit. -/
def read (s : Bytes) : Except Offence (Tree × Bytes) :=
  match s with
  | 45 :: rest => readMagnitude true rest
  | _ => readMagnitude false s

/-- An exponent leaves no longer a rest. -/
theorem readExponent_length {zero : Bool} {s rest : Bytes} {part : Exponent}
    (h : readExponent zero s = .ok (part, rest)) : rest.length ≤ s.length := by
  have hdrop (r : Bytes) : (r.dropWhile isDigit).length ≤ r.length :=
    (List.dropWhile_suffix _).length_le
  have key (negative : Bool) (r : Bytes) (hr : r.length ≤ s.length)
      (hk : readUnsignedExponent zero negative r = .ok (part, rest)) :
      rest.length ≤ s.length := by
    unfold readUnsignedExponent at hk
    have := hdrop r
    split at hk
    · cases hk
    · split at hk
      · split at hk
        · cases hk
          omega
        · split at hk
          · cases hk
            omega
          · cases hk
      · cases hk
  unfold readExponent at h
  split at h
  · exact key _ _ (by simp) h
  · exact key _ _ (by simp) h
  · exact key _ _ (Nat.le_refl _) h

/-- Finishing a number leaves no longer a rest. -/
theorem finish_length {negative : Bool} {significand : Nat} {exponent : Int} {s rest : Bytes}
    {tree : Tree} (h : finish negative significand exponent s = .ok (tree, rest)) :
    rest.length ≤ s.length := by
  have key (part : Exponent) (r : Bytes) (hr : r.length ≤ s.length)
      (hk : applyExponent negative significand exponent part r = .ok (tree, rest)) :
      rest.length ≤ s.length := by
    unfold applyExponent at hk
    split at hk
    · cases hk
      exact hr
    · split at hk
      · cases hk
        exact hr
      · cases hk
  unfold finish at h
  split at h
  · split at h
    · split at h
      · cases h
      · rename_i hread
        have := readExponent_length hread
        exact key _ _ (by simp only [List.length_cons]; omega) h
    · exact key _ _ (Nat.le_refl _) h
  · exact key _ _ (Nat.le_refl _) h

/-- A fraction leaves no longer a rest. -/
theorem readFraction_length {negative : Bool} {significand : Nat} {exponent : Int}
    {s rest : Bytes} {tree : Tree}
    (h : readFraction negative significand exponent s = .ok (tree, rest)) :
    rest.length ≤ s.length := by
  have hdrop : (s.dropWhile isDigit).length ≤ s.length := (List.dropWhile_suffix _).length_le
  unfold readFraction at h
  dsimp only at h
  split at h
  · split at h
    · cases h
    · cases h
  · exact Nat.le_trans (finish_length h) hdrop

/-- A number without its sign takes at least one byte. -/
theorem readMagnitude_length {negative : Bool} {s rest : Bytes} {tree : Tree}
    (h : readMagnitude negative s = .ok (tree, rest)) : rest.length < s.length := by
  unfold readMagnitude at h
  split at h
  · cases h
  · rename_i b behind
    split at h
    · rename_i hdigit
      have hdrop : ((b :: behind).dropWhile isDigit).length < (b :: behind).length := by
        rw [List.dropWhile_cons_of_pos hdigit]
        have := (List.dropWhile_suffix (l := behind) isDigit).length_le
        simp only [List.length_cons]
        omega
      dsimp only at h
      split at h
      · cases h
      · split at h
        · rename_i hpoint
          have := readFraction_length h
          rw [hpoint] at hdrop
          simp only [List.length_cons] at hdrop ⊢
          omega
        · split at h
          · cases h
            exact hdrop
          · exact Nat.lt_of_le_of_lt (finish_length h) hdrop
    · cases h

/-- A number takes at least one byte. -/
theorem read_length {s rest : Bytes} {tree : Tree} (h : read s = .ok (tree, rest)) :
    rest.length < s.length := by
  unfold read at h
  split at h
  · have := readMagnitude_length h
    simp only [List.length_cons]
    omega
  · exact readMagnitude_length h

end Number

end TreeLang
