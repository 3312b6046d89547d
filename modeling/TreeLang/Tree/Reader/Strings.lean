import TreeLang.Tree.Reader.Offence

/-!
# Strings in the text of a tree

A string stands between double quotes. A backslash starts an escape: one letter, or `u` and four
hexadecimal digits; a character beyond the basic plane takes two such escapes, its surrogates.
Every reading step leaves a shorter rest, which `readEscape_length` and `readString` state.
-/

namespace TreeLang

namespace Strings

/-- The value of a hexadecimal digit. -/
def hexDigit? (b : UInt8) : Option Nat :=
  if 48 ≤ b ∧ b ≤ 57 then some (b.toNat - 48)
  else if 65 ≤ b ∧ b ≤ 70 then some (b.toNat - 55)
  else if 97 ≤ b ∧ b ≤ 102 then some (b.toNat - 87)
  else none

/-- Reads the four digits of an escape. -/
def readHex : Bytes → Except Offence (Nat × Bytes)
  | a :: b :: c :: d :: rest =>
    match hexDigit? a, hexDigit? b, hexDigit? c, hexDigit? d with
    | some a, some b, some c, some d => .ok (((a * 16 + b) * 16 + c) * 16 + d, rest)
    | _, _, _, _ => .error (.taken .invalidEscape rest)
  | _ => .error (.taken .endInString [])

/-- The first of two surrogates. -/
def isLeading (unit : Nat) : Bool := 0xD800 ≤ unit && unit ≤ 0xDBFF

/-- The second of two surrogates. -/
def isTrailing (unit : Nat) : Bool := 0xDC00 ≤ unit && unit ≤ 0xDFFF

/-- The character of two surrogates. -/
def combine (leading trailing : Nat) : Nat :=
  0x10000 + (leading - 0xD800) * 0x400 + (trailing - 0xDC00)

/-- The bytes of a character. -/
def encodeChar (code : Nat) : Bytes :=
  String.utf8EncodeChar (Char.ofNat code)

/-- Reads the second surrogate behind the first one. -/
def readTrailing (leading : Nat) : Bytes → Except Offence (Bytes × Bytes)
  | [] => .error (.taken .endInString [])
  | 92 :: [] => .error (.taken .endInString [])
  | 92 :: 117 :: rest =>
    match readHex rest with
    | .error e => .error e
    | .ok (unit, rest) =>
      if isTrailing unit then .ok (encodeChar (combine leading unit), rest)
      else .error (.taken .loneSurrogate rest)
  | 92 :: _ :: rest => .error (.taken .endOfEscape rest)
  | _ :: rest => .error (.taken .endOfEscape rest)

/-- Reads an escape behind its `u`. -/
def readUnicode (s : Bytes) : Except Offence (Bytes × Bytes) :=
  match readHex s with
  | .error e => .error e
  | .ok (unit, rest) =>
    if isTrailing unit then .error (.taken .loneSurrogate rest)
    else if isLeading unit then readTrailing unit rest
    else .ok (encodeChar unit, rest)

/-- The byte that an escape of one letter stands for. -/
def letter? (b : UInt8) : Option UInt8 :=
  match b with
  | 34 => some 34
  | 92 => some 92
  | 47 => some 47
  | 98 => some 8
  | 102 => some 12
  | 110 => some 10
  | 114 => some 13
  | 116 => some 9
  | _ => none

/-- Reads an escape behind its backslash: the bytes it stands for and the rest. -/
def readEscape : Bytes → Except Offence (Bytes × Bytes)
  | [] => .error (.taken .endInString [])
  | b :: rest =>
    if b = 117 then readUnicode rest
    else
      match letter? b with
      | some c => .ok ([c], rest)
      | none => .error (.taken .invalidEscape rest)

/-- The digits of an escape leave a shorter rest. -/
theorem readHex_length {s rest : Bytes} {unit : Nat} (h : readHex s = .ok (unit, rest)) :
    rest.length < s.length := by
  unfold readHex at h
  split at h
  · split at h
    · cases h
      simp only [List.length_cons]
      omega
    · cases h
  · cases h

/-- The second surrogate leaves a shorter rest. -/
theorem readTrailing_length {s rest bytes : Bytes} {leading : Nat}
    (h : readTrailing leading s = .ok (bytes, rest)) : rest.length < s.length := by
  unfold readTrailing at h
  split at h
  · cases h
  · cases h
  · split at h
    · cases h
    · rename_i hhex
      split at h
      · simp only [Except.ok.injEq, Prod.mk.injEq] at h
        have := readHex_length hhex
        simp only [List.length_cons, ← h.2]
        omega
      · cases h
  · cases h
  · cases h

/-- An escape leaves a shorter rest. -/
theorem readEscape_length {s rest bytes : Bytes} (h : readEscape s = .ok (bytes, rest)) :
    rest.length < s.length := by
  unfold readEscape at h
  split at h
  · cases h
  · split at h
    · unfold readUnicode at h
      split at h
      · cases h
      · rename_i hhex
        have := readHex_length hhex
        split at h
        · cases h
        · split at h
          · have := readTrailing_length h
            simp only [List.length_cons]
            omega
          · simp only [Except.ok.injEq, Prod.mk.injEq] at h
            simp only [List.length_cons, ← h.2]
            omega
    · split at h
      · cases h
        simp
      · cases h

/-- Reads a string behind its opening quote; `done` holds the bytes read so far, which are text
because the whole of `s` is. The rest is shorter than `bound`, if `s` is no longer than that. -/
def readString (bound : Nat) (s : Bytes) (done : ByteArray) (h : s.length ≤ bound) :
    Except Offence (String × { rest : Bytes // rest.length < bound }) :=
  match s with
  | [] => .error (.taken .endInString [])
  | b :: rest =>
    have hrest : rest.length < bound := by simp only [List.length_cons] at h; omega
    if b = 34 then .ok ((String.fromUTF8? done).getD "", ⟨rest, hrest⟩)
    else if b = 92 then
      match hesc : readEscape rest with
      | .error e => .error e
      | .ok (bytes, behind) =>
        have hbehind := readEscape_length hesc
        readString bound behind (bytes.foldl ByteArray.push done) (by omega)
    else if b < 32 then .error (.taken .controlCharacter rest)
    else readString bound rest (done.push b) (by omega)
termination_by s.length
decreasing_by all_goals (simp_all only [List.length_cons]; omega)

end Strings

end TreeLang
