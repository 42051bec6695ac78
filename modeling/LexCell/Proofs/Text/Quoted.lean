import LexCell.Text.Quoted
import Mathlib.Data.List.Nodup

/-!
# Quoted text stays on its line and can be read back

A quoted text consists of visible characters only (`isVisible_of_mem_quote`), and none of these ends
a line. No text has the quoted form of another (`quote_injective`): what a character is written as
is neither a beginning of what another one is written as nor equal to it (`Escaped.append_inj`), so
a quoted text falls into the forms of its characters in one way only.
-/

namespace LexCell.Text

/-! ### Visible characters -/

/-- The characters at which readers of text end a line: line feed, vertical tab, form feed, carriage
return, next line, and the separators of lines and of paragraphs. -/
def lineEnds : List Char := ['\n', '\x0b', '\x0c', '\r', '\x85', '\u2028', '\u2029']

theorem not_mem_lineEnds {c : Char} (h : isVisible c = true) : c ∉ lineEnds := by
  -- There are seven of them, and none is visible.
  have hidden : lineEnds.all fun e => !isVisible e := by decide +kernel
  intro mem
  have := List.all_eq_true.mp hidden c mem
  rw [h] at this
  cases this

/-- A table whose ranges lie below and above some codes covers none of them. -/
theorem covers_eq_false {table : List (Nat × Nat)} {lo hi code : Nat}
    (apart : table.all fun range => decide (range.2 < lo) || decide (hi < range.1))
    (hlo : lo ≤ code) (hhi : code ≤ hi) : covers table code = false := by
  rw [covers, List.any_eq_false]
  intro range mem
  have := List.all_eq_true.mp apart range mem
  simp only [Bool.or_eq_true, decide_eq_true_eq] at this
  simp only [Bool.and_eq_true, decide_eq_true_eq]
  omega

/-- The blank and the characters of a typewriter are visible. -/
theorem isVisible_of_le {c : Char} (hlo : 32 ≤ c.toNat) (hhi : c.toNat ≤ 126) :
    isVisible c = true := by
  have visible : covers invisibleRanges c.toNat = false :=
    covers_eq_false (by decide +kernel) hlo hhi
  have noFiller : covers fillerRanges c.toNat = false :=
    covers_eq_false (by decide +kernel) hlo hhi
  simp only [isVisible, visible, noFiller, Bool.not_false, Bool.and_self]

/-- A text of typewriter characters. -/
def Plain (text : List Char) : Prop := ∀ c ∈ text, 32 ≤ c.toNat ∧ c.toNat ≤ 126

-- By way of the list: there are too many characters to go through them all.
instance (text : List Char) : Decidable (Plain text) :=
  List.decidableBAll _ text

theorem Plain.append {xs ys : List Char} (hx : Plain xs) (hy : Plain ys) : Plain (xs ++ ys) :=
  List.forall_mem_append.mpr ⟨hx, hy⟩

theorem Plain.isVisible {text : List Char} (h : Plain text) {c : Char} (hc : c ∈ text) :
    isVisible c = true :=
  isVisible_of_le (h c hc).1 (h c hc).2

/-! ### Digits -/

section Digits

variable {b : Nat}

/-- A digit of a number is one of the digits there are. -/
theorem exists_digitChar_of_mem_toDigits (hb : 1 < b) {n : Nat} {c : Char}
    (h : c ∈ Nat.toDigits b n) : ∃ d < b, c = Nat.digitChar d := by
  induction n using Nat.strongRecOn with
  | _ n ih =>
    rw [Nat.toDigits_eq_if hb] at h
    split at h
    · next hlt => exact ⟨n, hlt, List.mem_singleton.mp h⟩
    · -- a digit is the last one, or one of the number without its last digit
      next hge =>
      rcases List.mem_append.mp h with h | h
      · exact ih (n / b) (Nat.div_lt_self (by omega) hb) h
      · exact ⟨n % b, Nat.mod_lt n (by omega), List.mem_singleton.mp h⟩

theorem digitChar_inj : ∀ d < 16, ∀ e < 16, Nat.digitChar d = Nat.digitChar e → d = e := by
  decide

/-- Numbers with the same digits are the same. -/
theorem toDigits_inj (hb : 1 < b) (hb' : b ≤ 16) {n m : Nat}
    (h : Nat.toDigits b n = Nat.toDigits b m) : n = m := by
  have digit {d e : Nat} (hd : d < b) (he : e < b) (same : [Nat.digitChar d] = [Nat.digitChar e]) :
      d = e :=
    digitChar_inj d (Nat.lt_of_lt_of_le hd hb') e (Nat.lt_of_lt_of_le he hb')
      (List.singleton_inj.mp same)
  have notLonger {k : Nat} {c c' : Char} (same : [c] = Nat.toDigits b k ++ [c']) : False := by
    have length := congrArg List.length same
    have := Nat.length_toDigits_pos (b := b) (n := k)
    simp only [List.length_append, List.length_singleton] at length
    omega
  induction n using Nat.strongRecOn generalizing m with
  | _ n ih =>
    rw [Nat.toDigits_eq_if hb, Nat.toDigits_eq_if hb (n := m)] at h
    -- Numbers below the base have one digit, others have more.
    split at h <;> split at h
    · next hn hm => exact digit hn hm h
    · exact (notLonger h).elim
    · exact (notLonger h.symm).elim
    · next hn hm =>
      -- The last digits are equal, and so are the numbers that the digits before them write.
      obtain ⟨front, last⟩ := List.append_inj' h rfl
      have quotient := ih (n / b) (Nat.div_lt_self (by omega) hb) front
      have remainder := digit (Nat.mod_lt n (by omega)) (Nat.mod_lt m (by omega)) last
      rw [← Nat.div_add_mod n b, ← Nat.div_add_mod m b, quotient, remainder]

end Digits

theorem digitChar_plain : ∀ d < 16, 32 ≤ (Nat.digitChar d).toNat ∧ (Nat.digitChar d).toNat ≤ 126 ∧
    Nat.digitChar d ≠ '\x7d' := by
  decide

theorem toDigits_plain {b : Nat} (hb : 1 < b) (hb' : b ≤ 16) (n : Nat) :
    Plain (Nat.toDigits b n) := by
  intro c hc
  obtain ⟨d, hd, rfl⟩ := exists_digitChar_of_mem_toDigits hb hc
  obtain ⟨hlo, hhi, -⟩ := digitChar_plain d (Nat.lt_of_lt_of_le hd hb')
  exact ⟨hlo, hhi⟩

/-! ### How characters are written -/

/-- The characters that are written by a letter after a backslash. -/
def shorthands : List (Char × Char) :=
  [('\x00', '0'), ('\t', 't'), ('\n', 'n'), ('\r', 'r'), ('"', '"'), ('\\', '\\')]

/-- The forms in which a character stands between quotes. -/
inductive Escaped (c : Char) : List Char → Prop where
  | itself : isVisible c = true → c ≠ '\\' → Escaped c [c]
  | shorthand {letter : Char} : (c, letter) ∈ shorthands → Escaped c ['\\', letter]
  | code : Escaped c (codePoint c)

theorem escaped_escape (c : Char) : Escaped c (escape c) := by
  unfold escape
  split
  -- The six characters with a letter of their own.
  iterate 6 exact .shorthand (by decide)
  next _ _ _ _ _ backslash =>
    split
    · next h => exact .itself (Bool.and_eq_true_iff.mp h).1 backslash
    · exact .code

namespace Escaped

variable {c d : Char} {form form' : List Char}

theorem ne_nil (h : Escaped c form) : form ≠ [] := by
  cases h <;> exact List.cons_ne_nil _ _

theorem isVisible (h : Escaped c form) {x : Char} (hx : x ∈ form) : isVisible x = true := by
  cases h with
  | itself visible => exact List.mem_singleton.mp hx ▸ visible
  | @shorthand letter mem =>
      have plain : Plain ('\\' :: shorthands.map Prod.snd) := by decide
      refine plain.isVisible (List.mem_cons.mpr ?_)
      rcases List.mem_cons.mp hx with rfl | hx
      · exact .inl rfl
      · exact .inr (List.mem_map.mpr ⟨_, mem, (List.mem_singleton.mp hx).symm⟩)
  | code =>
      have plain : Plain (codePoint c) := by
        intro x hx
        simp only [codePoint, List.append_assoc, List.mem_append] at hx
        rcases hx with hx | hx | hx
        · exact (by decide : Plain ['\\', 'u', '\x7b']) x hx
        · exact toDigits_plain (by decide) (by decide) c.toNat x hx
        · exact (by decide : Plain ['\x7d']) x hx
      exact plain.isVisible hx

end Escaped

/-- A mark that stands in neither of two texts tells where they end. -/
theorem append_cons_inj {α : Type} {mark : α} {xs ys xs' ys' : List α} (hx : mark ∉ xs)
    (hx' : mark ∉ xs') (h : xs ++ mark :: ys = xs' ++ mark :: ys') : xs = xs' ∧ ys = ys' := by
  induction xs generalizing xs' with
  | nil =>
      cases xs' with
      | nil => exact ⟨rfl, (List.cons.inj h).2⟩
      | cons x xs' =>
          obtain ⟨rfl, -⟩ := List.cons.inj h
          exact absurd List.mem_cons_self hx'
  | cons x xs ih =>
      cases xs' with
      | nil =>
          obtain ⟨rfl, -⟩ := List.cons.inj h
          exact absurd List.mem_cons_self hx
      | cons x' xs' =>
          obtain ⟨rfl, rest⟩ := List.cons.inj h
          obtain ⟨rfl, rfl⟩ :=
            ih (List.not_mem_of_not_mem_cons hx) (List.not_mem_of_not_mem_cons hx') rest
          exact ⟨rfl, rfl⟩

/-- The same from the right. -/
theorem append_cons_inj_right {α : Type} {mark : α} {xs ys xs' ys' : List α} (hy : mark ∉ ys)
    (hy' : mark ∉ ys') (h : xs ++ mark :: ys = xs' ++ mark :: ys') : xs = xs' ∧ ys = ys' := by
  have reversed : ys.reverse ++ mark :: xs.reverse = ys'.reverse ++ mark :: xs'.reverse := by
    simpa using congrArg List.reverse h
  obtain ⟨back, front⟩ :=
    append_cons_inj (List.mem_reverse.not.mpr hy) (List.mem_reverse.not.mpr hy') reversed
  exact ⟨List.reverse_injective front, List.reverse_injective back⟩

theorem codePoint_append_inj {c d : Char} {xs ys : List Char}
    (h : codePoint c ++ xs = codePoint d ++ ys) : c = d ∧ xs = ys := by
  -- Digits contain no closing brace, so the first one ends the code.
  have noBrace (n : Nat) : '\x7d' ∉ Nat.toDigits 16 n := by
    intro mem
    obtain ⟨e, he, same⟩ := exists_digitChar_of_mem_toDigits (by decide) mem
    exact (digitChar_plain e he).2.2 same.symm
  simp only [codePoint, List.append_assoc, List.append_cancel_left_eq] at h
  obtain ⟨digits, rest⟩ := append_cons_inj (noBrace _) (noBrace _) h
  exact ⟨Char.toNat_inj.mp (toDigits_inj (by decide) (by decide) digits), rest⟩

/-- **Where the form of a character ends can be told from the form**, and which character it is. -/
theorem Escaped.append_inj {c d : Char} {form form' xs ys : List Char} (hc : Escaped c form)
    (hd : Escaped d form') (h : form ++ xs = form' ++ ys) : c = d ∧ xs = ys := by
  -- No letter is used twice, and none is the `u` of a code.
  have letters : (shorthands.map Prod.snd).Nodup := by decide
  have noCode {d letter : Char} (h : (d, letter) ∈ shorthands) : letter ≠ 'u' := by
    rintro rfl
    exact absurd (List.mem_map.mpr ⟨_, h, rfl⟩) (by decide : 'u' ∉ shorthands.map Prod.snd)
  cases hc with
  | itself _ hc =>
      cases hd with
      | itself => exact List.cons.inj h
      | _ => exact absurd (List.cons.inj h).1 hc
  | shorthand hc =>
      cases hd with
      | itself _ hd => exact absurd (List.cons.inj h).1.symm hd
      | shorthand hd =>
          obtain ⟨-, h⟩ := List.cons.inj h
          obtain ⟨letter, rest⟩ := List.cons.inj h
          exact ⟨congrArg Prod.fst (List.inj_on_of_nodup_map letters hc hd letter), rest⟩
      | code =>
          obtain ⟨-, h⟩ := List.cons.inj h
          exact absurd (List.cons.inj h).1 (noCode hc)
  | code =>
      cases hd with
      | itself _ hd => exact absurd (List.cons.inj h).1.symm hd
      | shorthand hd =>
          obtain ⟨-, h⟩ := List.cons.inj h
          exact absurd (List.cons.inj h).1.symm (noCode hd)
      | code => exact codePoint_append_inj h

/-! ### How texts are written -/

theorem flatMap_escape_inj {s t : List Char} (h : s.flatMap escape = t.flatMap escape) :
    s = t := by
  induction s generalizing t with
  | nil =>
      cases t with
      | nil => rfl
      | cons d t =>
          have empty := (List.append_eq_nil_iff.mp h.symm).1
          exact absurd empty (escaped_escape d).ne_nil
  | cons c s ih =>
      cases t with
      | nil =>
          have empty := (List.append_eq_nil_iff.mp h).1
          exact absurd empty (escaped_escape c).ne_nil
      | cons d t => -- the forms of the first characters are cut off together
          obtain ⟨rfl, rest⟩ := (escaped_escape c).append_inj (escaped_escape d) h
          rw [ih rest]

/-- **No two texts have the same quoted form.** -/
theorem quote_injective : Function.Injective quote := by
  intro s t h
  have chars := String.ofList_injective h
  exact String.toList_injective (flatMap_escape_inj (List.append_cancel_right (List.cons.inj chars).2))

/-- **A quoted text is visible.** -/
theorem isVisible_of_mem_quote {s : String} {c : Char} (h : c ∈ (quote s).toList) :
    isVisible c = true := by
  have quotes : Plain ['"'] := by decide
  rw [quote, String.toList_ofList, List.cons_append, List.mem_cons, List.mem_append,
    List.mem_flatMap] at h
  rcases h with rfl | ⟨x, -, hx⟩ | h
  · exact quotes.isVisible List.mem_cons_self
  · exact (escaped_escape x).isVisible hx
  · exact quotes.isVisible h

end LexCell.Text
