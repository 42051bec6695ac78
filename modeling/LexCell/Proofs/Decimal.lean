import LexCell.Decimal.Digits

/-!
# Integers in decimal

A text that is read as a 64-bit word writes an integer that the word is equal to, and every such
text is read (`ofDecimal?_eq_some_iff`), among them what is written of a word
(`ofDecimal?_decimal`).
-/

namespace LexCell

/-- The characters write the integer in decimal, after a sign or without one. -/
inductive Writes : List Char → Int → Prop where
  | plain {digits : List Char} : digits ≠ [] → (∀ c ∈ digits, c.isDigit) →
      Writes digits (digitsValue digits)
  | plus {digits : List Char} : digits ≠ [] → (∀ c ∈ digits, c.isDigit) →
      Writes ('+' :: digits) (digitsValue digits)
  | minus {digits : List Char} : digits ≠ [] → (∀ c ∈ digits, c.isDigit) →
      Writes ('-' :: digits) (-(digitsValue digits : Int))

/-! ### Reading

The three steps of reading are inverted one at a time: the range of the words, the digits, and the
sign in front of them. -/

/-- A word is found exactly for the integers in range, and it is the one that stands for them. -/
theorem wordOf?_eq_some_iff {n : Int} {w : Int64} : wordOf? n = some w ↔ w.toInt = n := by
  unfold wordOf?
  constructor
  · intro h
    split at h
    · next bounds =>
      cases h
      have lower : -2 ^ 63 ≤ n := bounds.1
      have upper : n ≤ 2 ^ 63 - 1 := bounds.2
      exact Int64.toInt_ofInt_of_le lower (by omega)
    · cases h
  · rintro rfl
    rw [if_pos ⟨w.minValue_le_toInt, w.toInt_le⟩, Int64.ofInt_toInt]

theorem unsigned?_eq_some_iff {digits : List Char} {n : Nat} :
    unsigned? digits = some n ↔
      digits ≠ [] ∧ (∀ c ∈ digits, c.isDigit) ∧ n = digitsValue digits := by
  unfold unsigned?
  rw [Option.ite_none_right_eq_some, List.all_eq_true, and_assoc, Option.some.injEq]
  exact and_congr_right fun _ => and_congr_right fun _ => eq_comm

private theorem magnitude_eq_some_iff {digits : List Char} {n : Int} :
    (do return (← unsigned? digits : Int)) = some n ↔
      digits ≠ [] ∧ (∀ c ∈ digits, c.isDigit) ∧ n = digitsValue digits := by
  rw [Option.bind_eq_bind, Option.bind_eq_some_iff]
  constructor
  · rintro ⟨m, hm, ⟨⟩⟩
    obtain ⟨nonempty, digits, rfl⟩ := unsigned?_eq_some_iff.mp hm
    exact ⟨nonempty, digits, rfl⟩
  · rintro ⟨nonempty, digits, rfl⟩
    exact ⟨_, unsigned?_eq_some_iff.mpr ⟨nonempty, digits, rfl⟩, rfl⟩

/-- Reading a sign and digits is sound and complete for `Writes`. -/
theorem signed?_eq_some_iff {text : List Char} {n : Int} :
    signed? text = some n ↔ Writes text n := by
  constructor
  · intro h
    -- One case for each way to start: a minus, a plus, no sign.
    unfold signed? at h
    split at h
    · obtain ⟨m, hm, rfl⟩ := Option.map_eq_some_iff.mp h
      obtain ⟨nonempty, digits, rfl⟩ := magnitude_eq_some_iff.mp hm
      exact .minus nonempty digits
    · obtain ⟨m, hm, rfl⟩ := Option.map_eq_some_iff.mp h
      obtain ⟨nonempty, digits, rfl⟩ := magnitude_eq_some_iff.mp hm
      exact .plus nonempty digits
    · obtain ⟨m, hm, rfl⟩ := Option.map_eq_some_iff.mp h
      obtain ⟨nonempty, digits, rfl⟩ := magnitude_eq_some_iff.mp hm
      exact .plain nonempty digits
  · intro h
    cases h with
    | minus nonempty digits | plus nonempty digits =>
        have value := magnitude_eq_some_iff.mpr ⟨nonempty, digits, rfl⟩
        exact Option.map_eq_some_iff.mpr ⟨_, value, rfl⟩
    | plain nonempty digits =>
        have value := magnitude_eq_some_iff.mpr ⟨nonempty, digits, rfl⟩
        unfold signed?
        -- A sign is no digit, so the first two rules do not apply.
        split
        · exact absurd (digits '-' List.mem_cons_self) (by decide)
        · exact absurd (digits '+' List.mem_cons_self) (by decide)
        · exact Option.map_eq_some_iff.mpr ⟨_, value, rfl⟩

/-- A text writes one integer at most. -/
theorem Writes.unique {text : List Char} {n n' : Int} (h : Writes text n) (h' : Writes text n') :
    n = n' :=
  Option.some.inj ((signed?_eq_some_iff.mpr h).symm.trans (signed?_eq_some_iff.mpr h'))

/-- **What is read is what was written.** -/
theorem ofDecimal?_eq_some_iff {text : String} {w : Int64} :
    ofDecimal? text = some w ↔ Writes text.toList w.toInt := by
  unfold ofDecimal?
  rw [Option.bind_eq_some_iff]
  constructor
  · rintro ⟨n, hn, hw⟩
    -- The integer that was read is the one that the word stands for.
    rw [wordOf?_eq_some_iff.mp hw]
    exact signed?_eq_some_iff.mp hn
  · intro h
    exact ⟨_, signed?_eq_some_iff.mpr h, wordOf?_eq_some_iff.mpr rfl⟩

/-! ### Writing

A word is written as a sign, if it is negative, and the digits of its absolute value. -/

theorem digitsValue_toDigits (n : Nat) : digitsValue (Nat.toDigits 10 n) = n :=
  Nat.ofDigitChars_ten_toDigits

/-- A word is written as an integer that is equal to it. -/
theorem decimal_writes (n : Int64) : Writes (decimal n).toList n.toInt := by
  have nonempty : Nat.toDigits 10 n.toInt.natAbs ≠ [] := Nat.toDigits_ne_nil
  have digits : ∀ c ∈ Nat.toDigits 10 n.toInt.natAbs, c.isDigit := fun _ =>
    Nat.isDigit_of_mem_toDigits (b := 10) (by decide) (by decide)
  rw [decimal, String.toList_ofList]
  -- Only negative words are written with a sign, and what follows it is the same in both cases.
  split
  · next negative =>
    have sign : n.toInt < 0 := Int64.lt_iff_toInt_lt.mp negative
    have value : n.toInt = -(digitsValue (Nat.toDigits 10 n.toInt.natAbs) : Int) := by
      rw [digitsValue_toDigits]
      omega
    have written := Writes.minus nonempty digits
    rwa [← value] at written
  · next nonnegative =>
    have sign : 0 ≤ n.toInt := Int64.le_iff_toInt_le.mp (Int64.not_lt.mp nonnegative)
    have value : n.toInt = (digitsValue (Nat.toDigits 10 n.toInt.natAbs) : Int) := by
      rw [digitsValue_toDigits]
      omega
    have written := Writes.plain nonempty digits
    rwa [← value] at written

/-- What is written is read back. -/
theorem ofDecimal?_decimal (n : Int64) : ofDecimal? (decimal n) = some n :=
  ofDecimal?_eq_some_iff.mpr (decimal_writes n)

end LexCell
