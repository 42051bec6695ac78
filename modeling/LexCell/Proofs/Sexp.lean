import Mathlib.Data.List.Basic

/-!
# Words in brackets

A form is a head word and parts between brackets, with a blank before each part; what stands by
itself is a word. Where a form or a word ends can be told from its characters, and which one it is
(`Sexp.chars_append_inj`): a word goes up to the next delimiter, and a form up to its closing
bracket, since each part before it starts with a blank.
-/

namespace LexCell

/-! ### Words -/

def delimiters : List Char := [' ', '\n', '(', ')', '[', ']']

/-- One character or more, and no delimiter among them. -/
def IsWord (text : String) : Prop := text ≠ "" ∧ ∀ c ∈ text.toList, c ∉ delimiters

-- By way of the list: there are too many characters to go through them all.
instance (text : String) : Decidable (∀ c ∈ text.toList, c ∉ delimiters) :=
  List.decidableBAll _ text.toList

instance (text : String) : Decidable (IsWord text) := inferInstanceAs (Decidable (_ ∧ _))

def WordEnds (rest : List Char) : Prop := ∀ c ∈ rest.head?, c ∈ delimiters

theorem WordEnds.nil : WordEnds [] := nofun

theorem WordEnds.cons {c : Char} (h : c ∈ delimiters) (rest : List Char) : WordEnds (c :: rest) := by
  rintro _ ⟨⟩
  exact h

/-- A word ends at the first delimiter. -/
theorem word_append_inj {w w' r r' : List Char} (hw : ∀ c ∈ w, c ∉ delimiters)
    (hw' : ∀ c ∈ w', c ∉ delimiters) (hr : WordEnds r) (hr' : WordEnds r')
    (h : w ++ r = w' ++ r') : w = w' ∧ r = r' := by
  induction w generalizing w' with
  | nil =>
      cases w' with
      | nil => exact ⟨rfl, h⟩
      | cons c w' =>
          obtain rfl : r = c :: (w' ++ r') := h
          -- The first word is over where the second goes on: a delimiter would be part of a word.
          exact absurd (hr c rfl) (hw' c List.mem_cons_self)
  | cons c w ih =>
      cases w' with
      | nil =>
          obtain rfl : c :: (w ++ r) = r' := h
          exact absurd (hr' c rfl) (hw c List.mem_cons_self)
      | cons c' w' =>
          obtain ⟨rfl, h'⟩ := List.cons.inj h
          obtain ⟨rfl, rest⟩ :=
            ih (List.forall_mem_cons.mp hw).2 (List.forall_mem_cons.mp hw').2 h'
          exact ⟨rfl, rest⟩

/-! ### Forms -/

inductive Bracket where
  | round
  | square

@[simp] def Bracket.opening : Bracket → Char
  | round => '('
  | square => '['

@[simp] def Bracket.closing : Bracket → Char
  | round => ')'
  | square => ']'

theorem Bracket.opening_injective : Function.Injective opening := by
  intro b b' h
  cases b <;> cases b' <;> first | rfl | exact absurd h (by decide)

theorem Bracket.opening_mem (b : Bracket) : b.opening ∈ delimiters := by
  cases b <;> decide

theorem Bracket.closing_mem (b : Bracket) : b.closing ∈ delimiters := by
  cases b <;> decide

theorem Bracket.closing_ne_blank (b : Bracket) : b.closing ≠ ' ' := by
  cases b <;> decide

/-- A word, or a head word with parts in brackets. -/
inductive Sexp where
  | word (text : String)
  | form (b : Bracket) (head : String) (parts : List Sexp)

namespace Sexp

mutual

@[simp] def chars : Sexp → List Char
  | word text => text.toList
  | form b head parts => b.opening :: (head.toList ++ (charsAll parts ++ [b.closing]))

/-- Parts with a blank before each. -/
@[simp] def charsAll : List Sexp → List Char
  | [] => []
  | p :: ps => ' ' :: (chars p ++ charsAll ps)

end

mutual

def Proper : Sexp → Prop
  | word text => IsWord text
  | form _ head parts => IsWord head ∧ ProperAll parts

def ProperAll : List Sexp → Prop
  | [] => True
  | p :: ps => Proper p ∧ ProperAll ps

end

/-! ### Unique reading -/

theorem chars_form_append (b : Bracket) (head : String) (ps : List Sexp) (r : List Char) :
    (form b head ps).chars ++ r =
      b.opening :: (head.toList ++ (charsAll ps ++ b.closing :: r)) := by
  simp [chars]

theorem charsAll_cons_append (p : Sexp) (ps : List Sexp) (r : List Char) :
    charsAll (p :: ps) ++ r = ' ' :: (p.chars ++ (charsAll ps ++ r)) := by
  simp [charsAll]

/-- A word goes no further than to the next part or to the closing bracket. -/
theorem wordEnds_charsAll (ps : List Sexp) (b : Bracket) (r : List Char) :
    WordEnds (charsAll ps ++ b.closing :: r) := by
  cases ps with
  | nil => exact .cons b.closing_mem r
  | cons p ps => exact .cons (by decide) _

/-- What is written of a word starts with no bracket. -/
theorem word_chars_ne_form {text : String} (h : IsWord text) (b : Bracket) (cs r r' : List Char) :
    text.toList ++ r ≠ b.opening :: cs ++ r' := by
  intro same
  -- A word has a first character, and it is no bracket.
  obtain ⟨c, w, hw⟩ := List.exists_cons_of_ne_nil (mt String.toList_eq_nil_iff.mp h.1)
  rw [hw] at same
  obtain ⟨rfl, -⟩ := List.cons.inj same
  exact h.2 b.opening (hw ▸ List.mem_cons_self) b.opening_mem

mutual

/-- **Where a form ends can be told from what is written**, and which form it is. -/
theorem chars_append_inj (x : Sexp) {y : Sexp} (hx : x.Proper) (hy : y.Proper) {r r' : List Char}
    (hr : WordEnds r) (hr' : WordEnds r') (h : x.chars ++ r = y.chars ++ r') : x = y ∧ r = r' := by
  match x with
  | .word text =>
      cases y with
      | word text' =>
          obtain ⟨same, rest⟩ := word_append_inj hx.2 hy.2 hr hr' h
          exact ⟨congrArg word (String.toList_injective same), rest⟩
      | form b head ps => exact absurd h (word_chars_ne_form hx b _ r r')
  | .form b head ps =>
      cases y with
      | word text' => exact absurd h.symm (word_chars_ne_form hy b _ r' r)
      | form b' head' ps' =>
          -- Two forms: first the brackets are the same, then the heads up to a delimiter, then the
          -- parts.
          rw [chars_form_append, chars_form_append] at h
          obtain ⟨bracket, h⟩ := List.cons.inj h
          obtain rfl := Bracket.opening_injective bracket
          obtain ⟨same, parts⟩ := word_append_inj hx.1.2 hy.1.2 (wordEnds_charsAll ps b r)
            (wordEnds_charsAll ps' b r') h
          obtain rfl := String.toList_injective same
          obtain ⟨rfl, rest⟩ := charsAll_append_inj ps hx.2 hy.2 parts
          exact ⟨rfl, rest⟩

theorem charsAll_append_inj (ps : List Sexp) {qs : List Sexp} (hps : ProperAll ps)
    (hqs : ProperAll qs) {b : Bracket} {r r' : List Char}
    (h : charsAll ps ++ b.closing :: r = charsAll qs ++ b.closing :: r') : ps = qs ∧ r = r' := by
  match ps with
  | [] =>
      cases qs with
      | nil => exact ⟨rfl, (List.cons.inj h).2⟩
      | cons q qs =>
          rw [charsAll_cons_append] at h
          -- One list is at its end, the other goes on: a bracket is no blank.
          exact absurd (List.cons.inj h).1 b.closing_ne_blank
  | p :: ps =>
      cases qs with
      | nil =>
          rw [charsAll_cons_append] at h
          exact absurd (List.cons.inj h).1.symm b.closing_ne_blank
      | cons q qs =>
          rw [charsAll_cons_append, charsAll_cons_append] at h
          obtain ⟨-, h⟩ := List.cons.inj h
          obtain ⟨rfl, parts⟩ := chars_append_inj p hps.1 hqs.1 (wordEnds_charsAll ps b r)
            (wordEnds_charsAll qs b r') h
          obtain ⟨rfl, rest⟩ := charsAll_append_inj ps hps.2 hqs.2 parts
          exact ⟨rfl, rest⟩

end

/-- What is written is never empty. -/
theorem chars_ne_nil {x : Sexp} (h : x.Proper) : x.chars ≠ [] := by
  cases x with
  | word text => exact mt String.toList_eq_nil_iff.mp h.1
  | form => exact List.cons_ne_nil _ _

end Sexp

end LexCell
