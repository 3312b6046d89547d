import TreeLang.Text.Numeral

/-!
# What numerals spell

A signed numeral of 32 bits is read digit by digit against a bound, so it is refused as soon as the
digits read so far pass the bound. The number that a text spells is said here without any bound:
an optional sign and at least one digit. Reading succeeds exactly if the text spells an integer of
32 bits, and then this is the result.
-/

namespace TreeLang.Numeral

/-- At least one ASCII digit, and nothing else. -/
def AllDigits (digits : List Char) : Prop := digits ≠ [] ∧ ∀ c ∈ digits, c.isDigit = true

/-- A text spells an integer: digits, and possibly a sign in front of them. -/
inductive Spells : List Char → Int → Prop where
  /-- Digits alone. -/
  | unsigned {digits : List Char} (hdigits : AllDigits digits) :
      Spells digits (Nat.ofDigitChars 10 digits 0)
  /-- A plus sign in front of digits. -/
  | plus {digits : List Char} (hdigits : AllDigits digits) :
      Spells ('+' :: digits) (Nat.ofDigitChars 10 digits 0)
  /-- A minus sign in front of digits. -/
  | minus {digits : List Char} (hdigits : AllDigits digits) :
      Spells ('-' :: digits) (-(Nat.ofDigitChars 10 digits 0))

/-! ## Digits -/

theorem digit?_eq_some {c : Char} {d : Nat} :
    digit? c = some d ↔ c.isDigit = true ∧ d = c.toNat - '0'.toNat := by
  have hrange : c.isDigit = true ↔ 48 ≤ c.toNat ∧ c.toNat ≤ 57 := by
    simp only [Char.isDigit, Bool.and_eq_true, decide_eq_true_eq, ge_iff_le, UInt32.le_iff_toNat_le]
    rfl
  rw [hrange]
  unfold digit?
  split
  · rename_i hdigit
    simp only [Option.some.injEq, hdigit, and_self, true_and]
    exact eq_comm
  · rename_i hdigit
    simp [hdigit]

/-- Behind more digits, a number does not become smaller. -/
theorem le_ofDigitChars (digits : List Char) (value : Nat) :
    value ≤ Nat.ofDigitChars 10 digits value := by
  induction digits generalizing value with
  | nil => exact Nat.le_refl _
  | cons c digits ih =>
    rw [Nat.ofDigitChars_cons]
    have hrest := ih (10 * value + (c.toNat - '0'.toNat))
    omega

/-- The digits read so far pass the bound only if the whole number does. -/
theorem readDigits_eq_ok {bound value n : Nat} {digits : List Char} (hvalue : value ≤ bound) :
    readDigits bound value digits = .ok n ↔
      (∀ c ∈ digits, c.isDigit = true) ∧ n = Nat.ofDigitChars 10 digits value ∧ n ≤ bound := by
  induction digits generalizing value with
  | nil =>
    simp only [readDigits, Nat.ofDigitChars_nil, Except.ok.injEq, List.not_mem_nil, false_implies,
      implies_true, true_and]
    constructor
    · rintro rfl
      exact ⟨rfl, hvalue⟩
    · rintro ⟨rfl, -⟩
      rfl
  | cons c digits ih =>
    rw [readDigits, Nat.ofDigitChars_cons, List.forall_mem_cons]
    cases hdigit : digit? c with
    | none =>
      have hno : ¬ c.isDigit = true := by
        intro hc
        have hsome := digit?_eq_some.mpr ⟨hc, rfl⟩
        rw [hdigit] at hsome
        cases hsome
      simp [hno]
    | some d =>
      obtain ⟨hc, rfl⟩ := digit?_eq_some.mp hdigit
      simp only [hc, true_and]
      by_cases hbound : 10 * value + (c.toNat - '0'.toNat) ≤ bound
      · rw [if_pos hbound]
        exact ih hbound
      · rw [if_neg hbound]
        simp only [reduceCtorEq, false_iff]
        rintro ⟨-, rfl, hle⟩
        have hrest := le_ofDigitChars digits (10 * value + (c.toNat - '0'.toNat))
        omega

theorem readUnsigned_eq_ok {bound n : Nat} {digits : List Char} :
    readUnsigned bound digits = .ok n ↔
      AllDigits digits ∧ n = Nat.ofDigitChars 10 digits 0 ∧ n ≤ bound := by
  cases digits with
  | nil => simp [readUnsigned, AllDigits]
  | cons c digits => simp [readUnsigned, AllDigits, readDigits_eq_ok (Nat.zero_le bound)]

/-! ## Signed numerals -/

theorem spells_plus {digits : List Char} {n : Int} :
    Spells ('+' :: digits) n ↔ AllDigits digits ∧ n = Nat.ofDigitChars 10 digits 0 := by
  constructor
  · intro h
    cases h with
    | unsigned hdigits => exact absurd (hdigits.2 '+' List.mem_cons_self) (by decide)
    | plus hdigits => exact ⟨hdigits, rfl⟩
  · rintro ⟨hdigits, rfl⟩
    exact .plus hdigits

theorem spells_minus {digits : List Char} {n : Int} :
    Spells ('-' :: digits) n ↔ AllDigits digits ∧ n = -(Nat.ofDigitChars 10 digits 0) := by
  constructor
  · intro h
    cases h with
    | unsigned hdigits => exact absurd (hdigits.2 '-' List.mem_cons_self) (by decide)
    | minus hdigits => exact ⟨hdigits, rfl⟩
  · rintro ⟨hdigits, rfl⟩
    exact .minus hdigits

theorem spells_unsigned {digits : List Char} {n : Int} (hplus : ∀ rest, digits ≠ '+' :: rest)
    (hminus : ∀ rest, digits ≠ '-' :: rest) :
    Spells digits n ↔ AllDigits digits ∧ n = Nat.ofDigitChars 10 digits 0 := by
  constructor
  · intro h
    cases h with
    | unsigned hdigits => exact ⟨hdigits, rfl⟩
    | plus _ => exact absurd rfl (hplus _)
    | minus _ => exact absurd rfl (hminus _)
  · rintro ⟨hdigits, rfl⟩
    exact .unsigned hdigits

/-- A text spells at most one integer. -/
theorem Spells.unique {text : List Char} {n m : Int} (h : Spells text n) (h' : Spells text m) :
    n = m := by
  cases h with
  | unsigned hdigits =>
    have hsign : ∀ c rest, c.isDigit = false → text ≠ c :: rest := by
      rintro c rest hc rfl
      have hdigit := hdigits.2 c List.mem_cons_self
      rw [hc] at hdigit
      cases hdigit
    have hplus : ∀ rest, text ≠ '+' :: rest := fun rest => hsign '+' rest (by decide)
    have hminus : ∀ rest, text ≠ '-' :: rest := fun rest => hsign '-' rest (by decide)
    exact ((spells_unsigned hplus hminus).mp h').2.symm
  | plus hdigits => exact (spells_plus.mp h').2.symm
  | minus hdigits => exact (spells_minus.mp h').2.symm

/-- The part behind a plus sign, or without a sign. -/
theorem map_readUnsigned_ofNat {digits : List Char} {n : Int32} :
    (readUnsigned maxInt32 digits).map Int32.ofNat = .ok n ↔
      AllDigits digits ∧ n.toInt = Nat.ofDigitChars 10 digits 0 := by
  have hmax := n.toInt_lt
  constructor
  · intro h
    cases hread : readUnsigned maxInt32 digits with
    | error fault =>
      rw [hread] at h
      cases h
    | ok m =>
      rw [hread] at h
      cases h
      obtain ⟨hdigits, rfl, hle⟩ := readUnsigned_eq_ok.mp hread
      refine ⟨hdigits, Int32.toInt_ofNat_of_lt ?_⟩
      unfold maxInt32 at hle
      omega
  · rintro ⟨hdigits, hn⟩
    have hread : readUnsigned maxInt32 digits = .ok (Nat.ofDigitChars 10 digits 0) := by
      refine readUnsigned_eq_ok.mpr ⟨hdigits, rfl, ?_⟩
      unfold maxInt32
      omega
    rw [hread]
    refine congrArg Except.ok (Int32.toInt_inj.mp ?_)
    rw [hn, Int32.toInt_ofNat_of_lt]
    omega

/-- The part behind a minus sign, where one integer more has 32 bits. -/
theorem map_readUnsigned_neg {digits : List Char} {n : Int32} :
    (readUnsigned (maxInt32 + 1) digits).map (fun m => Int32.ofInt (-(m : Int))) = .ok n ↔
      AllDigits digits ∧ n.toInt = -(Nat.ofDigitChars 10 digits 0) := by
  have hmin := n.le_toInt
  constructor
  · intro h
    cases hread : readUnsigned (maxInt32 + 1) digits with
    | error fault =>
      rw [hread] at h
      cases h
    | ok m =>
      rw [hread] at h
      cases h
      obtain ⟨hdigits, rfl, hle⟩ := readUnsigned_eq_ok.mp hread
      unfold maxInt32 at hle
      refine ⟨hdigits, Int32.toInt_ofInt_of_le ?_ ?_⟩
      · omega
      · omega
  · rintro ⟨hdigits, hn⟩
    have hread : readUnsigned (maxInt32 + 1) digits = .ok (Nat.ofDigitChars 10 digits 0) := by
      refine readUnsigned_eq_ok.mpr ⟨hdigits, rfl, ?_⟩
      unfold maxInt32
      omega
    rw [hread]
    have hneg : Int32.ofInt (-(Nat.ofDigitChars 10 digits 0 : Int)) = n := by
      rw [← hn, Int32.ofInt_toInt]
    exact congrArg Except.ok hneg

/-- Reading succeeds exactly on the texts that spell an integer of 32 bits, with this integer. -/
theorem readInt32_eq_ok {text : String} {n : Int32} :
    readInt32 text = .ok n ↔ Spells text.toList n.toInt := by
  unfold readInt32
  split
  · rename_i hempty
    rw [hempty, spells_unsigned (by simp) (by simp)]
    simp [AllDigits]
  · rename_i digits hplus
    rw [hplus, spells_plus]
    exact map_readUnsigned_ofNat
  · rename_i digits hminus
    rw [hminus, spells_minus]
    exact map_readUnsigned_neg
  · rename_i hplus hminus
    rw [spells_unsigned hplus hminus]
    exact map_readUnsigned_ofNat

end TreeLang.Numeral
