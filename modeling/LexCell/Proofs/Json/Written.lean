import LexCell.Proofs.Decimal
import LexCell.Proofs.Json.Takes
import Mathlib.Algebra.Ring.Int.Defs

/-!
# Texts that read as what they say

A string without escapes is read as its characters, and an object as its fields. An integer
(`IsInteger`) is read as itself where a word holds it, with or without a sign, and otherwise as a
double, or not at all: the reader has no number for what is too large for a double. A negative zero
is no integer to the reader (`IsInteger.takes_value`).
-/

namespace LexCell.Json

/-! ### Strings without escapes

A plain character is taken as it stands, so a plain string is the characters up to the quote. -/

/-- The character stands for itself in a string. -/
def IsPlain (c : Char) : Prop := ¬ (c = '\\' ∨ c = '"' ∨ c < ' ')

instance (c : Char) : Decidable (IsPlain c) := inferInstanceAs (Decidable (¬ _))

def IsPlainText (text : List Char) : Prop := ∀ c ∈ text, IsPlain c

instance (text : List Char) : Decidable (IsPlainText text) :=
  List.decidableBAll (fun c => IsPlain c) text

/-- Digits are plain. -/
theorem isPlain_of_isDigit {c : Char} (h : c.isDigit) : IsPlain c := by
  rintro (rfl | rfl | control)
  · cases h
  · cases h
  · -- control characters come before the blank, digits after it
    have low : c.toNat < ' '.toNat := control
    have high : '0'.toNat ≤ c.toNat := (Char.isDigit_iff_toNat.mp h).1
    exact absurd (Nat.lt_of_le_of_lt high low) (by decide)

theorem takes_character {c : Char} (h : IsPlain c) (s : List Char) :
    takes character (c :: s) = some (c, s) := by
  have escape : c ≠ '\\' := fun same => h (.inl same)
  unfold takes
  rw [character]
  · rw [if_neg h]
    rfl
  · rintro r rfl
    exact absurd rfl escape
  · rintro e r rfl
    exact absurd rfl escape

/-- Plain characters are taken up to the quote. -/
theorem takes_characters (text : List Char) (h : IsPlainText text) (read s : List Char) :
    takes (characters read) (text ++ '"' :: s) =
      some (String.ofList (read.reverse ++ text), s) := by
  induction text generalizing read with
  | nil =>
      unfold takes
      rw [List.nil_append, characters]
      simp
  | cons c text ih =>
      obtain ⟨hc, htext⟩ := List.forall_mem_cons.mp h
      obtain ⟨_, first⟩ := takes_eq_some_iff.mp (takes_character hc (text ++ '"' :: s))
      obtain ⟨_, rest⟩ := takes_eq_some_iff.mp (ih htext (c :: read))
      unfold takes
      rw [List.cons_append, characters]
      · simp [first, rest, Rest.mono]
      · rintro r same
        exact hc (.inr (.inl (List.cons.inj same).1))

/-- A plain string in quotes is taken as it stands. -/
theorem takes_quoted {text : List Char} (h : IsPlainText text) (s : List Char) :
    takes quoted ('"' :: (text ++ '"' :: s)) = some (String.ofList text, s) := by
  obtain ⟨_, found⟩ := takes_eq_some_iff.mp (takes_characters text h [] s)
  unfold takes
  rw [quoted, found]
  rfl

/-! ### Integers

A number without fraction and exponent ends with its digits. So each part of the reader of numbers
has one equation, given that what follows does not go on with the number. -/

/-- Digits without a needless zero before them. -/
def IsWhole (ds : List Char) : Prop :=
  ds ≠ [] ∧ (∀ c ∈ ds, c.isDigit) ∧ (ds.head? = some '0' → ds.length = 1)

/-- No digit, point or exponent comes next. -/
def Ends (s : List Char) : Prop :=
  ∀ c t, s = c :: t → ¬ c.isDigit ∧ c ≠ '.' ∧ c ≠ 'e' ∧ c ≠ 'E'

instance (ds : List Char) : Decidable (IsWhole ds) :=
  have : Decidable (∀ c ∈ ds, c.isDigit) := List.decidableBAll (fun c => c.isDigit) ds
  inferInstanceAs (Decidable (_ ∧ _ ∧ _))

/-- Digits are taken up to the first character that is none. -/
theorem takes_someDigits {c : Char} {ds s : List Char} (hc : c.isDigit)
    (hds : ∀ c ∈ ds, c.isDigit) (hs : Ends s) :
    takes someDigits (c :: (ds ++ s)) = some (c :: ds, s) := by
  have stop : s.takeWhile Char.isDigit = [] ∧ s.dropWhile Char.isDigit = s := by
    cases s with
    | nil => exact ⟨rfl, rfl⟩
    | cons d t =>
        have hd : ¬ d.isDigit := (hs d t rfl).1
        exact ⟨List.takeWhile_cons_of_neg hd, List.dropWhile_cons_of_neg hd⟩
  unfold takes someDigits digits
  simp only [hc, if_true, Option.map_some, List.takeWhile_append_of_pos hds,
    List.dropWhile_append_of_pos hds, stop, List.append_nil]

/-- The whole part of a number. -/
theorem takes_wholePart {ds s : List Char} (h : IsWhole ds) (hs : Ends s) :
    takes wholePart (ds ++ s) = some (ds, s) := by
  obtain ⟨nonempty, digit, zero⟩ := h
  obtain ⟨c, ds, rfl⟩ := List.exists_cons_of_ne_nil nonempty
  obtain ⟨hc, hds⟩ := List.forall_mem_cons.mp digit
  obtain ⟨_, read⟩ := takes_eq_some_iff.mp (takes_someDigits hc hds hs)
  unfold takes wholePart
  rw [List.cons_append, read]
  simp only [Option.bind_eq_bind, Option.bind_some]
  rw [if_neg fun ⟨first, more⟩ => more (zero first)]
  rfl

/-- Without a point there is no fraction. -/
theorem fractionPart_of_ends {s : List Char} (hs : Ends s) :
    fractionPart s = some (none, ⟨s, Nat.le_refl _⟩) := by
  unfold fractionPart
  split
  · next t => exact absurd rfl (hs '.' t rfl).2.1
  · rfl

/-- Without its letter there is no exponent. -/
theorem exponentPart_of_ends {s : List Char} (hs : Ends s) :
    exponentPart s = some (none, ⟨s, Nat.le_refl _⟩) := by
  unfold exponentPart
  split
  · next c t =>
    obtain ⟨-, -, lower, upper⟩ := hs c t rfl
    rw [if_neg (not_or.mpr ⟨lower, upper⟩)]
  · rfl

/-- A number that is an integer is taken with its sign and its digits. -/
theorem takes_numeral {s ds rest : List Char} {negative : Bool}
    {h : (ds ++ rest).length ≤ s.length} (sign_eq : minusSign s = (negative, ⟨ds ++ rest, h⟩))
    (whole : IsWhole ds) (hrest : Ends rest) :
    takes numeral s = some (⟨negative, ds, none, none⟩, rest) := by
  obtain ⟨_, read⟩ := takes_eq_some_iff.mp (takes_wholePart whole hrest)
  unfold takes numeral
  generalize minusSign s = sign at sign_eq
  subst sign_eq
  simp only [read, fractionPart_of_ends hrest, exponentPart_of_ends hrest]
  rfl

/-- A number is read as the value of its numeral, if that has one. -/
theorem takes_value_number {c : Char} (hc : c = '-' ∨ c.isDigit) {s rest : List Char}
    {num : Numeral} (h : takes numeral (c :: s) = some (num, rest)) (depth : Nat) :
    takes (value depth) (c :: s) = num.value?.map fun m => (.number m, rest) := by
  obtain ⟨_, read⟩ := takes_eq_some_iff.mp h
  -- A number does not begin with a blank,
  have blank : skipBlanks (c :: s) = c :: s := by
    have : isBlank c = false := by
      rcases hc with rfl | hc
      · rfl
      · unfold isBlank
        simp only [Bool.or_eq_false_iff, beq_eq_false_iff_ne]
        refine ⟨⟨⟨?_, ?_⟩, ?_⟩, ?_⟩ <;> rintro rfl <;> cases hc
    rw [skipBlanks, List.dropWhile_cons_of_neg (by simp [this])]
  have number (nested : Option (Reader Json)) :
      takes (valueWith nested) (c :: s) = num.value?.map fun m => (.number m, rest) := by
    -- nor with a character that begins another kind of value.
    have other (d : Char) (hd : ¬ (d = '-' ∨ d.isDigit)) : c ≠ d := by
      rintro rfl
      exact hd hc
    unfold takes
    rw [valueWith]
    · rw [read]
      simp only [Option.bind_eq_bind, Option.bind_some]
      cases num.value? <;> rfl
    all_goals exact other _ (by decide)
  cases depth with
  | zero | succ => rw [value, takes_afterBlanks, blank, number]

/-- The characters are an integer as JSON writes it, without fraction and exponent. -/
inductive IsInteger : List Char → Int → Prop where
  | plain {ds : List Char} : IsWhole ds → IsInteger ds (digitsValue ds)
  | minus {ds : List Char} : IsWhole ds → IsInteger ('-' :: ds) (-(digitsValue ds : Int))

/-- An integer may stand in a string as it is. -/
theorem IsInteger.isPlainText {token : List Char} {n : Int} (h : IsInteger token n) :
    IsPlainText token := by
  cases h with
  | plain whole => exact fun c hc => isPlain_of_isDigit (whole.2.1 c hc)
  | minus whole =>
      refine List.forall_mem_cons.mpr ⟨by decide, ?_⟩
      exact fun c hc => isPlain_of_isDigit (whole.2.1 c hc)

/-- More digits make no smaller number. -/
theorem le_foldl_digitValue (ds : List Char) (n : Nat) :
    n ≤ ds.foldl (fun n c => 10 * n + digitValue c) n := by
  induction ds generalizing n with
  | nil => exact Nat.le_refl n
  | cons c ds ih =>
      have := ih (10 * n + digitValue c)
      rw [List.foldl_cons]
      omega

/-- Without a needless zero there is one way to write zero. -/
theorem IsWhole.eq_zero {ds : List Char} (h : IsWhole ds) (zero : digitsValue ds = 0) :
    ds = ['0'] := by
  obtain ⟨nonempty, digit, short⟩ := h
  cases ds with
  | nil => exact absurd rfl nonempty
  | cons c ds => -- a first digit other than zero would make the value positive
      have first : c = '0' := by
        have low := le_foldl_digitValue ds (digitValue c)
        have value : digitValue c = 0 := by
          unfold digitsValue at zero
          rw [List.foldl_cons, Nat.mul_zero, Nat.zero_add] at zero
          omega
        have above := (Char.isDigit_iff_toNat.mp (digit c List.mem_cons_self)).1
        unfold digitValue at value
        exact Char.toNat_inj.mp (by omega)
      subst first
      rw [List.eq_nil_of_length_eq_zero (Nat.succ.inj (short rfl))]

/-- It is an integer also for the reader of source texts. -/
theorem IsInteger.writes {token : List Char} {n : Int} (h : IsInteger token n) :
    Writes token n := by
  cases h with
  | plain whole => exact .plain whole.1 whole.2.1
  | minus whole => exact .minus whole.1 whole.2.1

/-- Without fraction and exponent the value of a numeral is its integer, or a double. -/
theorem Numeral.value?_eq (negative : Bool) (ds : List Char) (m : Number)
    (h : Numeral.value? ⟨negative, ds, none, none⟩ = some m) :
    (∃ k, Numeral.integer? ⟨negative, ds, none, none⟩ = some k ∧ m = .integer k) ∨
      Numeral.integer? ⟨negative, ds, none, none⟩ = none ∧ ∃ x, m = .double x := by
  unfold Numeral.value? at h
  simp only at h
  split at h
  · next k found =>
    cases h
    exact .inl ⟨k, found, rfl⟩
  · next none =>
    obtain ⟨x, -, same⟩ := Option.map_eq_some_iff.mp h
    exact .inr ⟨none, _, same.symm⟩

/-- **The number that the reader has for an integer**, if it has one: the integer itself, or a
double. It is the integer if that fits a word with or without a sign, but for a negative zero. -/
theorem IsInteger.takes_value {token : List Char} {n : Int} (h : IsInteger token n) :
    ∃ m? : Option Number,
      (∀ depth rest, Ends rest →
        takes (value depth) (token ++ rest) = m?.map fun m => (.number m, rest)) ∧
      (∀ m, m? = some m → m = .integer n ∧ token ≠ ['-', '0'] ∨ ∃ x, m = .double x) ∧
      (token ≠ ['-', '0'] → -2 ^ 63 ≤ n → n < 2 ^ 64 → m? = some (.integer n)) := by
  cases h with
  | plain whole =>
      obtain ⟨c, ds, rfl⟩ := List.exists_cons_of_ne_nil whole.1
      have hc : c.isDigit := whole.2.1 c List.mem_cons_self
      -- A digit is no sign.
      have unsigned : c ≠ '-' := by
        rintro rfl
        cases hc
      refine ⟨Numeral.value? ⟨false, c :: ds, none, none⟩, fun depth rest hrest => ?_,
        fun m hm => ?_, fun _ _ high => ?_⟩
      · have sign : minusSign (c :: ds ++ rest) = (false, ⟨c :: ds ++ rest, Nat.le_refl _⟩) := by
          rw [minusSign]
          rintro r same
          exact unsigned (List.cons.inj same).1
        exact takes_value_number (.inr hc) (takes_numeral sign whole hrest) depth
      · rcases Numeral.value?_eq _ _ m hm with ⟨k, found, rfl⟩ | ⟨-, double⟩
        · obtain ⟨-, same⟩ := Option.ite_none_right_eq_some.mp found
          cases same
          exact .inl ⟨rfl, fun same => unsigned (List.cons.inj same).1⟩
        · exact .inr double
      · -- without a sign all words of 64 bits fit
        have small : digitsValue (c :: ds) < wordLimit := by
          unfold wordLimit UInt64.size
          omega
        unfold Numeral.value? Numeral.integer?
        simp [small]
  | @minus ds whole =>
      refine ⟨Numeral.value? ⟨true, ds, none, none⟩, fun depth rest hrest => ?_,
        fun m hm => ?_, fun notZero low _ => ?_⟩
      · exact takes_value_number (.inl rfl) (takes_numeral rfl whole hrest) depth
      · rcases Numeral.value?_eq _ _ m hm with ⟨k, found, rfl⟩ | ⟨-, double⟩
        · obtain ⟨⟨positive, -⟩, same⟩ := Option.ite_none_right_eq_some.mp found
          cases same
          refine .inl ⟨rfl, ?_⟩
          rintro same
          cases (List.cons.inj same).2
          exact absurd positive (by decide)
        · exact .inr double
      · -- only zero would be written with the one digit zero
        have positive : 0 < digitsValue ds := by
          refine Nat.pos_of_ne_zero fun zero => notZero ?_
          rw [whole.eq_zero zero]
        -- With a sign, those up to the absolute value of the least word.
        have small : digitsValue ds ≤ Nat.pow 2 63 := by
          have : (Nat.pow 2 63 : Nat) = 2 ^ 63 := rfl
          omega
        unfold Numeral.value? Numeral.integer?
        simp [small, positive]

/-! ### Strings and fields

Fields that hold plain strings are finished once a comma follows. With them and a last value an
object is read. -/

/-- A plain string is read as a value. -/
theorem takes_value_string {text : List Char} (h : IsPlainText text) (depth : Nat)
    (s : List Char) :
    takes (value depth) ('"' :: (text ++ '"' :: s)) = some (.string (String.ofList text), s) := by
  obtain ⟨_, read⟩ := takes_eq_some_iff.mp (takes_quoted h s)
  have string (nested : Option (Reader Json)) :
      takes (valueWith nested) ('"' :: (text ++ '"' :: s)) =
        some (.string (String.ofList text), s) := by
    unfold takes
    rw [valueWith, read]
    rfl
  cases depth with
  | zero | succ =>
      rw [value, takes_afterBlanks]
      exact string _

/-- A key without escapes and its value. -/
theorem takes_field {key : List Char} (h : IsPlainText key) (reader : Reader Json)
    (s : List Char) :
    takes (member reader) ('"' :: (key ++ '"' :: ':' :: s)) =
      (takes reader s).map fun p => ((String.ofList key, p.1), p.2) :=
  takes_member reader (takes_quoted h (':' :: s)) rfl

/-- A finished field. -/
theorem Finished.field {depth : Nat} {key text done : List Char} {j : Json}
    {ms : List (String × Json)} (hkey : IsPlainText key)
    (read : ∀ s, takes (value depth) (text ++ ',' :: s) = some (j, ',' :: s))
    (h : Finished (member (value depth)) done ms) :
    Finished (member (value depth)) ('"' :: (key ++ '"' :: ':' :: text) ++ ',' :: done)
      ((String.ofList key, j) :: ms) := by
  refine .cons (fun s => ⟨',' :: s, ?_, rfl⟩) h
  rw [List.cons_append, List.append_assoc, List.cons_append, List.cons_append, takes_field hkey,
    read]
  rfl

/-- A finished field that holds a string. -/
theorem Finished.stringField {depth : Nat} (key text : List Char) (hkey : IsPlainText key)
    (htext : IsPlainText text) {done : List Char} {ms : List (String × Json)}
    (h : Finished (member (value depth)) done ms) :
    Finished (member (value depth))
      ('"' :: (key ++ '"' :: ':' :: '"' :: (text ++ ['"'])) ++ ',' :: done)
      ((String.ofList key, .string (String.ofList text)) :: ms) := by
  refine .field hkey (fun s => ?_) h
  rw [List.cons_append, List.append_assoc]
  exact takes_value_string htext depth (',' :: s)

/-- An object, if its last value can be read. -/
theorem takes_value_fields {depth : Nat} {done key text rest : List Char}
    {ms : List (String × Json)} {j : Option Json}
    (finished : Finished (member (value depth)) done ms) (hkey : IsPlainText key)
    (last : takes (value depth) (text ++ '\x7d' :: rest) = j.map fun j => (j, '\x7d' :: rest)) :
    takes (value (depth + 1))
        ('\x7b' :: (done ++ '"' :: (key ++ '"' :: ':' :: (text ++ '\x7d' :: rest)))) =
      j.map fun j => (.object (fieldsOf (ms ++ [(String.ofList key, j)])), rest) := by
  -- A field begins with a quote, so the object does not end at once.
  have begins : Begins (· ≠ '\x7d')
      (done ++ '"' :: (key ++ '"' :: ':' :: (text ++ '\x7d' :: rest))) := by
    refine (finished.begins (fun _ _ => begins_of_member) ⟨'"', _, rfl, rfl⟩).mono ?_
    rintro c rfl
    decide
  -- After the last value comes the closing brace.
  have stop (s : List Char) : takesMore (member (value depth)) '\x7d' [] ('\x7d' :: s) =
      some ([], s) := rfl
  rw [takes_value_object, finished.takes_bracketed (by decide) begins, takes_field hkey, last]
  cases j with
  | none => rfl
  | some j =>
      simp only [Option.map_some, Option.bind_some, closes, stop]

end LexCell.Json
