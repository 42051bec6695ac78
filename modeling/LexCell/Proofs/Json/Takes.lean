import LexCell.Json.Parser
import Mathlib.Data.List.Basic
import Mathlib.Data.Nat.Init

/-!
# What the readers take

Each reader of JSON text takes a piece off the front and hands back the rest with a proof. `takes`
forgets the proof, so that what is taken can be said by equations, and here are the equations of the
loops: items after items, a member, an array, an object. Items that are complete up to a comma
(`Finished`) are taken before whatever comes after it.
-/

namespace LexCell.Json

variable {α : Type}

/-! ### What readers take

A reader comes with a proof that the rest is shorter, on which its recursion goes. In equations the
proof would be in the way, so these are about `takes`. -/

/-- What a reader takes off a text, and what it leaves. -/
def takes (reader : Reader α) (s : List Char) : Option (α × List Char) :=
  (reader s).map fun p => (p.1, p.2.val)

/-- What a reader takes is what it hands back, with some proof. -/
theorem takes_eq_some_iff {reader : Reader α} {s r : List Char} {x : α} :
    takes reader s = some (x, r) ↔ ∃ h, reader s = some (x, ⟨r, h⟩) := by
  unfold takes
  rw [Option.map_eq_some_iff]
  constructor
  · rintro ⟨⟨y, t, h⟩, found, same⟩
    cases same
    exact ⟨h, found⟩
  · rintro ⟨h, found⟩
    exact ⟨_, found, rfl⟩

/-- Blanks are skipped first. -/
theorem takes_afterBlanks (reader : Reader α) (s : List Char) :
    takes (afterBlanks reader) s = takes reader (skipBlanks s) := by
  unfold takes afterBlanks
  cases reader (skipBlanks s) <;> rfl

theorem skipBlanks_append {blanks : List Char} (h : ∀ c ∈ blanks, isBlank c) (s : List Char) :
    skipBlanks (blanks ++ s) = skipBlanks s := by
  unfold skipBlanks
  exact List.dropWhile_append_of_pos h

theorem takes_value_append {blanks : List Char} (h : ∀ c ∈ blanks, isBlank c) (depth : Nat)
    (s : List Char) : takes (value depth) (blanks ++ s) = takes (value depth) s := by
  cases depth <;> rw [value, takes_afterBlanks, takes_afterBlanks, skipBlanks_append h]

/-- What is read after an item: nothing more before the closing character, or further items. -/
def takesMore (item : Reader α) (close : Char) (read : List α) (s : List Char) :
    Option (List α × List Char) :=
  match skipBlanks s with
  | [] => none
  | c :: t =>
      if c = close then some (read.reverse, t)
      else if c = ',' then takes (items item close read) t
      else none

/-- One item, and then what comes after it. -/
theorem takes_items (item : Reader α) (close : Char) (read : List α) (s : List Char) :
    takes (items item close read) s =
      (takes item s).bind fun p => takesMore item close (p.1 :: read) p.2 := by
  unfold takes
  rw [items]
  cases item s with
  | none => rfl
  | some p =>
      obtain ⟨x, r, _⟩ := p
      simp only [Option.map_some, Option.bind_some, takesMore]
      -- Nothing is left, or a character tells what comes.
      split
      · next none _ => rw [none]; rfl
      · next c t _ some _ =>
        simp only [some]
        split
        · rfl
        · split
          · unfold takes
            cases items item close (x :: read) t <;> rfl
          · rfl

theorem length_le_of_skipBlanks {s t : List Char} {c : Char} (h : skipBlanks s = c :: t) :
    t.length < s.length := by
  have := length_skipBlanks_le s
  rw [h] at this
  exact this

/-- Whatever is taken, the rest is shorter. -/
theorem length_lt_of_takes {reader : Reader α} {s r : List Char} {x : α}
    (h : takes reader s = some (x, r)) : r.length < s.length := by
  obtain ⟨shorter, -⟩ := takes_eq_some_iff.mp h
  exact shorter

/-- What was read before only stands before what is read. -/
theorem takesMore_reverse (item : Reader α) (close : Char) (read : List α) (s : List Char) :
    takesMore item close read s =
      (takesMore item close [] s).map fun q => (read.reverse ++ q.1, q.2) := by
  -- The rest after an item is shorter, and it is read with one more item before it.
  induction hn : s.length using Nat.strongRecOn generalizing s read with
  | _ n ih =>
    subst hn
    unfold takesMore
    split
    · rfl
    · next c t h =>
      split
      · simp
      · split
        · rw [takes_items, takes_items]
          cases hx : takes item t with
          | none => rfl
          | some p =>
              obtain ⟨x, r⟩ := p
              have shorter := Nat.lt_trans (length_lt_of_takes hx) (length_le_of_skipBlanks h)
              simp only [Option.bind_some]
              rw [ih r.length shorter (x :: read) r rfl, ih r.length shorter [x] r rfl]
              simp [Function.comp_def]
        · rfl

/-- Items, the first of them before the others. -/
theorem takes_items_nil (item : Reader α) (close : Char) (s : List Char) :
    takes (items item close []) s = (takes item s).bind fun p =>
      (takesMore item close [] p.2).map fun q => (p.1 :: q.1, q.2) := by
  rw [takes_items]
  congr 1
  funext p
  rw [takesMore_reverse]
  rfl

def Begins (P : Char → Prop) (s : List Char) : Prop := ∃ c t, skipBlanks s = c :: t ∧ P c

theorem Begins.mono {P Q : Char → Prop} {s : List Char} (h : Begins P s) (hPQ : ∀ c, P c → Q c) :
    Begins Q s := by
  obtain ⟨c, t, first, hc⟩ := h
  exact ⟨c, t, first, hPQ c hc⟩

theorem Begins.append {P : Char → Prop} {blanks s : List Char} (hb : ∀ c ∈ blanks, isBlank c)
    (h : Begins P s) : Begins P (blanks ++ s) := by
  unfold Begins
  rw [skipBlanks_append hb]
  exact h

/-- Where it does not end at once, there are items. -/
theorem takes_bracketed (item : Reader α) (close : Char) {s : List Char}
    (h : Begins (· ≠ close) s) :
    takes (bracketed item close) s = takes (items item close []) s := by
  obtain ⟨c, t, hs, hc⟩ := h
  unfold takes bracketed
  split
  · next none _ =>
    rw [none] at hs
    cases hs
  · next some _ =>
    rw [some] at hs
    cases hs
    rw [if_neg hc]

/-- A key, a colon, and the value after it. -/
theorem takes_member (reader : Reader Json) {s t u : List Char} {key : String}
    (hkey : takes quoted (skipBlanks s) = some (key, t)) (colon : skipBlanks t = ':' :: u) :
    takes (member reader) s = (takes reader u).map fun p => ((key, p.1), p.2) := by
  rw [← takes_afterBlanks] at hkey
  obtain ⟨shorter, found⟩ := takes_eq_some_iff.mp hkey
  unfold takes member
  rw [found]
  dsimp only
  split
  · next v _ some _ =>
    rw [colon] at some
    cases some
    cases reader u <;> rfl
  · next other =>
    exact (other u (colon ▸ length_skipBlanks_le t) colon (proof_irrel_heq _ _)).elim

/-- A bracket and items. -/
theorem takes_value_array (depth : Nat) (s : List Char) :
    takes (value (depth + 1)) ('[' :: s) =
      (takes (bracketed (value depth) ']') s).map fun p => (.array p.1, p.2) := by
  rw [value, takes_afterBlanks]
  show takes (valueWith _) ('[' :: s) = _
  unfold takes valueWith
  simp only [Option.bind_eq_bind, Option.bind_some]
  cases bracketed (value depth) ']' s <;> rfl

/-- A brace and members, which become fields. -/
theorem takes_value_object (depth : Nat) (s : List Char) :
    takes (value (depth + 1)) ('\x7b' :: s) =
      (takes (bracketed (member (value depth)) '\x7d') s).map fun p =>
        (.object (fieldsOf p.1), p.2) := by
  rw [value, takes_afterBlanks]
  show takes (valueWith _) ('\x7b' :: s) = _
  unfold takes valueWith
  simp only [Option.bind_eq_bind, Option.bind_some]
  cases bracketed (member (value depth)) '\x7d' s <;> rfl

/-- At depth zero no object is read. -/
theorem takes_value_zero (s : List Char) : takes (value 0) ('\x7b' :: s) = none := by
  rw [value, takes_afterBlanks]
  rfl

/-! ### Finished items

Whatever comes after the comma, a finished item is taken up to it. So of a list that is only begun,
what is finished is known already. -/

/-- Finished items, with a comma after each; whatever comes after the comma does not matter. -/
inductive Finished (item : Reader α) : List Char → List α → Prop where
  | nil : Finished item [] []
  | cons {w done : List Char} {x : α} {xs : List α} :
      (∀ s, ∃ r, takes item (w ++ ',' :: s) = some (x, r) ∧ skipBlanks r = ',' :: s) →
      Finished item done xs → Finished item (w ++ ',' :: done) (x :: xs)

/-- Finished items are taken one after the other. -/
theorem Finished.takes_append {item : Reader α} {done : List Char} {xs : List α}
    (h : Finished item done xs) {close : Char} (hc : close ≠ ',') (s : List Char) :
    takes (items item close []) (done ++ s) =
      (takes (items item close []) s).map fun q => (xs ++ q.1, q.2) := by
  induction h with
  | nil => simp
  | @cons w done x xs whole _ ih => -- the first item ends at its comma, whatever stands behind
      obtain ⟨r, taken, comma⟩ := whole (done ++ s)
      rw [List.append_assoc, List.cons_append, takes_items_nil, taken, Option.bind_some, takesMore,
        comma]
      simp only [if_neg hc.symm, if_true]
      rw [ih]
      simp [Function.comp_def]

/-- What is read before the closing character, with one more item in the middle. -/
def closes (item : Reader α) (close : Char) (xs : List α) (p : α × List Char) :
    Option (List α × List Char) :=
  (takesMore item close [] p.2).map fun q => (xs ++ p.1 :: q.1, q.2)

/-- Finished items and one more, in brackets. -/
theorem Finished.takes_bracketed {item : Reader α} {done : List Char} {xs : List α}
    (h : Finished item done xs) {close : Char} {s : List Char} (hclose : close ≠ ',')
    (hs : Begins (· ≠ close) (done ++ s)) :
    takes (bracketed item close) (done ++ s) = (takes item s).bind (closes item close xs) := by
  rw [Json.takes_bracketed item close hs, h.takes_append hclose, takes_items_nil, Option.map_bind]
  congr 1
  funext p
  simp [closes, Function.comp_def]

/-- If items begin with a character of a kind and the rest does, so do both together. -/
theorem Finished.begins {item : Reader α} {done : List Char} {xs : List α}
    (h : Finished item done xs) {P : Char → Prop} {s : List Char}
    (hitem : ∀ s p, takes item s = some p → Begins P s) (hs : Begins P s) :
    Begins P (done ++ s) := by
  cases h with
  | nil => exact hs
  | cons whole rest =>
      obtain ⟨r, taken, -⟩ := whole _
      rw [List.append_assoc]
      exact hitem _ _ taken

/-! ### What values and members begin with

A list ends at its closing character unless another item comes first. To tell these apart it is
enough to know that no item begins like the end. -/

/-- What can be read as a value does not begin with a closing bracket. -/
theorem begins_of_value {depth : Nat} {s : List Char} {p : Json × List Char}
    (h : takes (value depth) s = some p) : Begins (· ≠ ']') s := by
  -- Blanks aside, the first character decides what kind of value comes, and a closing bracket is
  -- none.
  have first (nested : Option (Reader Json))
      (hv : takes (valueWith nested) (skipBlanks s) = some p) : Begins (· ≠ ']') s := by
    unfold Begins
    cases hs : skipBlanks s with
    | nil =>
        rw [hs] at hv
        cases hv
    | cons c t =>
        refine ⟨c, t, rfl, ?_⟩
        rintro rfl
        rw [hs] at hv
        cases hv
  cases depth with
  | zero | succ =>
      rw [value, takes_afterBlanks] at h
      exact first _ h

/-- A string begins with a quote. -/
theorem exists_cons_of_quoted {s : List Char} {p : String × List Char}
    (h : takes quoted s = some p) : ∃ t, s = '"' :: t := by
  unfold takes quoted at h
  split at h
  · next t => exact ⟨t, rfl⟩
  · cases h

/-- A key begins with a quote. -/
theorem begins_of_quoted {s : List Char} {p : String × List Char}
    (h : takes quoted (skipBlanks s) = some p) : Begins (· = '"') s := by
  obtain ⟨t, first⟩ := exists_cons_of_quoted h
  exact ⟨'"', t, first, rfl⟩

/-- A member begins with its key. -/
theorem begins_of_member {reader : Reader Json} {s : List Char}
    {p : (String × Json) × List Char} (h : takes (member reader) s = some p) :
    Begins (· = '"') s := by
  unfold takes member at h
  split at h
  · cases h
  · next key r found =>
    refine begins_of_quoted (p := (key, r.val)) ?_
    rw [← takes_afterBlanks, takes, found]
    rfl

/-! ### Whole texts -/

/-- A text is a value after which nothing but blanks follows. -/
theorem parse?_eq (text : String) :
    parse? text = (takes (value maxDepth) text.toList).bind fun p =>
      if skipBlanks p.2 = [] then some p.1 else none := by
  unfold parse? takes
  cases value maxDepth text.toList <;> rfl

end LexCell.Json
