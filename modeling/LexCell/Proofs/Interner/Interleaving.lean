import LexCell.Proofs.Interner

/-!
# Interleaved calls

Users that share a table may intern at the same time. A call looks for its string first; if it finds
none it comes back, looks once more and appends what is still absent. Each of the two steps is taken
with nobody else at the table, but between them others may take theirs, in any order, and new calls
may be made.

A history lists the steps of all calls, the latest first. What is there after a history is what
calls without interruption leave, one for each call that is finished, in the order of their last
steps (`Shared.atomically`). So interleaved calls cannot be told from calls one after the other
(`Shared.interleaved_calls_are_atomic`).

A call for which no name is left takes no second step, so its history is one of those looked at
here.
-/

namespace LexCell.Interner

/-! ### Steps

A call is made of one step or two, so what others do in between is seen by the second one. The state
keeps how far every call has come. -/

/-- How far a call has come. -/
inductive Call where
  | made (s : String)
  /-- It has looked, and did not find the string. -/
  | missed (s : String)
  | finished (s : String) (n : Name)
  deriving DecidableEq

/-- A table, and the calls that were made of it. -/
structure Shared where
  table : Interner
  calls : Array Call

namespace Shared

def initial : Shared := ⟨Interner.initial, #[]⟩

inductive Event where
  | made (i : Nat) (s : String)
  | missed (i : Nat)
  | finished (i : Nat) (s : String) (n : Name)
  deriving DecidableEq

def Event.call : Event → Nat
  | made i _ | missed i | finished i _ _ => i

inductive Step (st : Shared) : Event → Shared → Prop where
  | make (s : String) :
      Step st (.made st.calls.size s) ⟨st.table, st.calls.push (.made s)⟩
  | find {i : Nat} {s : String} {n : Name} : st.calls[i]? = some (.made s) →
      st.table.find? s = some n →
      Step st (.finished i s n) ⟨st.table, st.calls.setIfInBounds i (.finished s n)⟩
  -- From here on others may take their steps.
  | miss {i : Nat} {s : String} : st.calls[i]? = some (.made s) →
      st.table.find? s = none →
      Step st (.missed i) ⟨st.table, st.calls.setIfInBounds i (.missed s)⟩
  /-- Others may have appended the string since. -/
  | write {i : Nat} {s : String} {n : Name} {t : Interner} : st.calls[i]? = some (.missed s) →
      st.table.insertIfAbsent s = (n, t) →
      Step st (.finished i s n) ⟨t, st.calls.setIfInBounds i (.finished s n)⟩

/-- The steps of a history lead from the initial table to the state. -/
inductive After : List Event → Shared → Prop where
  | nil : After [] initial
  | cons {es : List Event} {ev : Event} {st st' : Shared} :
      After es st → Step st ev st' → After (ev :: es) st'

/-! ### Calls without interruption

The history alone determines what calls without interruption would have answered and left. It is
computed from the last steps, with no regard to when a call was made. -/

/-- The table that is left if each finished call was made without interruption at its last step. -/
def atomically : List Event → Interner
  | [] => Interner.initial
  | .finished _ s _ :: es => ((atomically es).intern s).2
  | _ :: es => atomically es

/-- So are the names that were answered. -/
def AnsweredAtomically (es : List Event) : Prop :=
  ∀ later i s n earlier, es = later ++ .finished i s n :: earlier →
    ((atomically earlier).intern s).1 = n

/-- The steps of a single call that has come so far, the latest first. -/
inductive Took (i : Nat) : Call → List Event → Prop where
  | made (s : String) : Took i (.made s) [.made i s]
  | missed (s : String) : Took i (.missed s) [.missed i, .made i s]
  | found (s : String) (n : Name) : Took i (.finished s n) [.finished i s n, .made i s]
  | written (s : String) (n : Name) :
      Took i (.finished s n) [.finished i s n, .missed i, .made i s]

variable {st st' : Shared} {ev : Event} {es : List Event} {i j : Nat} {s : String} {n m : Name}
  {c c' : Call}

/-- What calls without interruption leave is proper. -/
theorem proper_atomically (es : List Event) : (atomically es).Proper := by
  induction es with
  | nil => exact proper_initial
  | cons ev es ih =>
      cases ev with
      | finished i s n => exact ih.intern s
      | made | missed => exact ih

/-- The tables of a history grow with it. -/
theorem extends_atomically (later earlier : List Event) :
    (atomically earlier).Extends (atomically (later ++ earlier)) := by
  induction later with
  | nil => exact fun _ _ => id
  | cons ev later ih =>
      cases ev with
      | finished i s n =>
          intro m text held
          apply extends_intern
          exact ih m text held
      | made | missed => exact ih

/-- A name that was answered is that of the string, from then on. -/
theorem AnsweredAtomically.text? (h : AnsweredAtomically es) (finished : .finished i s n ∈ es) :
    (atomically es).text? n = some s := by
  -- At its last step the call had its name; what came later kept it.
  obtain ⟨later, earlier, rfl⟩ := List.append_of_mem finished
  have name := h later i s n earlier rfl
  apply extends_atomically later
  show ((atomically earlier).intern s).2.text? n = some s
  rw [← name]
  exact text?_intern _ s

/-- A call that is finished took a last step. -/
theorem Took.finished_mem {steps : List Event} (h : Took i (.finished s n) steps) :
    .finished i s n ∈ steps := by
  cases h <;> exact List.mem_cons_self

/-! ### Single steps

A step is at one call and, if it is the last one, at the table. These lemmas say both, and that is
all that histories need. -/

/-- **The step with which a call finishes does what the whole call would do.** -/
theorem Step.intern_eq (h : Step st (.finished i s n) st') :
    st.table.intern s = (n, st'.table) := by
  cases h with
  | find _ found =>
      rw [intern, found]
  -- Looking once more and appending is what interning does.
  | write _ written => exact (Interner.intern_eq _ _).trans written

/-- All other steps leave the table alone. -/
theorem Step.table_eq (h : Step st ev st') (unfinished : ∀ i s n, ev ≠ .finished i s n) :
    st'.table = st.table := by
  cases h with
  | make | miss => rfl
  | find | write => exact absurd rfl (unfinished _ _ _)

/-- Moving one call leaves the others where they are. -/
theorem getElem?_setIfInBounds_of_some {calls : Array Call} (here : calls[i]? = some c) (c' : Call)
    (j : Nat) : (calls.setIfInBounds i c')[j]? = if i = j then some c' else calls[j]? := by
  have inside := (Array.getElem?_eq_some_iff.mp here).1
  rw [Array.getElem?_setIfInBounds, if_pos inside]

/-- A step moves one call only. -/
theorem Step.calls_eq (h : Step st ev st') (other : j ≠ ev.call) :
    st'.calls[j]? = st.calls[j]? := by
  cases h with
  | make s =>
      rw [Array.getElem?_push]
      exact if_neg other
  | find here | miss here | write here =>
      rw [getElem?_setIfInBounds_of_some here]
      exact if_neg other.symm

/-- The call that moves takes one step more. -/
theorem Step.took (h : Step st ev st') {steps : List Event}
    (before : ∀ c, st.calls[ev.call]? = some c → Took ev.call c steps)
    (unborn : st.calls.size ≤ ev.call → steps = []) (after : st'.calls[ev.call]? = some c) :
    Took ev.call c (ev :: steps) := by
  cases h with
  | make s =>
      rw [Event.call, Array.getElem?_push_size] at after
      cases after
      rw [unborn (Nat.le_refl _)]
      exact .made s
  | find here | miss here | write here =>
      rw [Event.call, getElem?_setIfInBounds_of_some here, if_pos rfl] at after
      cases after
      -- How far the call had come tells which steps it has taken.
      cases before _ here
      constructor

/-- Calls are not forgotten, and the one that moves is among them. -/
theorem Step.size_le (h : Step st ev st') :
    st.calls.size ≤ st'.calls.size ∧ ev.call < st'.calls.size := by
  cases h with
  | make s =>
      rw [Array.size_push]
      exact ⟨Nat.le_succ _, Nat.lt_succ_self _⟩
  | find here | miss here | write here =>
      rw [Array.size_setIfInBounds]
      exact ⟨Nat.le_refl _, (Array.getElem?_eq_some_iff.mp here).1⟩

/-- A call that is not finished waits for nobody. -/
theorem exists_step (here : st.calls[i]? = some c) (unfinished : ∀ s n, c ≠ .finished s n) :
    ∃ ev st', Step st ev st' ∧ ev.call = i := by
  cases c with
  | made s =>
      cases found : st.table.find? s with
      | some n => exact ⟨_, _, .find here found, rfl⟩
      | none => exact ⟨_, _, .miss here found, rfl⟩
  | missed s => exact ⟨_, _, .write here rfl, rfl⟩
  | finished s n => exact absurd rfl (unfinished s n)

/-! ### Histories

The history accounts for the state: the table is what calls without interruption leave, and each
call has taken the steps that its progress says. A step keeps this. -/

/-- The history accounts for the table and for the calls. -/
structure Accounts (es : List Event) (st : Shared) : Prop where
  table : st.table = atomically es
  answers : AnsweredAtomically es
  took : ∀ i c, st.calls[i]? = some c → Took i c (es.filter fun ev => ev.call = i)
  unborn : ∀ i, st.calls.size ≤ i → es.filter (fun ev => ev.call = i) = []

/-- At the start there is nothing to account for. -/
theorem accounts_initial : Accounts [] initial := by
  constructor
  · rfl
  · intro later i s n earlier split
    simp at split
  · intro i c here
    simp [initial] at here
  · exact fun _ _ => rfl

namespace Accounts

variable (accounts : Accounts es st)

include accounts

/-- The table after a step. -/
theorem table_step (h : Step st ev st') : st'.table = atomically (ev :: es) := by
  -- Only the last step of a call changes the table.
  cases ev with
  | finished i s n => rw [atomically, ← accounts.table, h.intern_eq]
  | made | missed =>
      rw [h.table_eq nofun]
      exact accounts.table

/-- The answers after a step. -/
theorem answers_step (h : Step st ev st') : AnsweredAtomically (ev :: es) := by
  intro later i s n earlier split
  -- The call that finishes now was answered from the table of before; for the others nothing is
  -- new.
  cases later with
  | nil =>
      cases split
      rw [← accounts.table, h.intern_eq]
  | cons _ later =>
      cases split
      exact accounts.answers later i s n earlier rfl

/-- The steps of each call after a step. -/
theorem took_step (h : Step st ev st') (i : Nat) (c : Call) (here : st'.calls[i]? = some c) :
    Took i c ((ev :: es).filter fun ev => ev.call = i) := by
  by_cases moves : i = ev.call
  · subst moves
    rw [List.filter_cons_of_pos (by simp)]
    exact h.took (accounts.took _) (accounts.unborn _) here
  · rw [List.filter_cons_of_neg (by simpa using Ne.symm moves)]
    rw [h.calls_eq moves] at here
    exact accounts.took i c here

/-- After a step the history, with the step in front, accounts for what is there then. -/
theorem step (h : Step st ev st') : Accounts (ev :: es) st' := by
  refine ⟨accounts.table_step h, accounts.answers_step h, accounts.took_step h, ?_⟩
  intro i unborn
  -- A call that is not made yet did not take this step.
  obtain ⟨grown, inside⟩ := h.size_le
  have other : ev.call ≠ i := by omega
  rw [List.filter_cons_of_neg (by simpa using other)]
  exact accounts.unborn i (by omega)

/-- A call that is finished was answered the name of its string. -/
theorem text? (here : st.calls[i]? = some (.finished s n)) : st.table.text? n = some s := by
  rw [accounts.table]
  apply accounts.answers.text? (i := i)
  exact List.mem_of_mem_filter (accounts.took i _ here).finished_mem

end Accounts

/-- Every history accounts for its state. -/
theorem After.accounts (h : After es st) : Accounts es st := by
  induction h with
  | nil => exact accounts_initial
  | cons _ step ih => exact ih.step step

/-- What users of a shared table rely on. -/
structure Linearized (es : List Event) (st : Shared) : Prop where
  /-- No string stands twice. -/
  distinct : st.table.strings.toList.Nodup
  texts : ∀ (i : Nat) (s : String) (n : Name), st.calls[i]? = some (.finished s n) →
    st.table.text? n = some s
  agree : ∀ (i j : Nat) (s : String) (n m : Name), st.calls[i]? = some (.finished s n) →
    st.calls[j]? = some (.finished s m) → n = m
  /-- A call has taken its own steps, and when it has finished it takes no more. -/
  took : ∀ i c, st.calls[i]? = some c → Took i c (es.filter fun ev => ev.call = i)
  /-- What it answered is what it would have been answered alone at its last step. -/
  answers : AnsweredAtomically es
  table : st.table = atomically es
  /-- Until it has finished it may go on at any time. -/
  goesOn : ∀ i c, st.calls[i]? = some c → (∀ s n, c ≠ .finished s n) →
    ∃ ev st', Step st ev st' ∧ ev.call = i

/-- **Interleaved calls are atomic.** Whatever steps calls have taken, and in whatever order, the
table holds no string twice, and every call that is finished was answered the one name that has its
string for its text. Each was answered, and left in the table, what it would have been answered and
left if it had been made without interruption at its last step. -/
theorem interleaved_calls_are_atomic (h : After es st) : Linearized es st where
  distinct := by
    rw [h.accounts.table]
    exact (proper_atomically es).nodup
  texts i s n here := h.accounts.text? here
  agree i j s n m here there := by
    have proper : st.table.Proper := h.accounts.table ▸ proper_atomically es
    exact proper.once (h.accounts.text? here) (h.accounts.text? there)
  took := h.accounts.took
  answers := h.accounts.answers
  table := h.accounts.table
  goesOn i c here unfinished := exists_step here unfinished

/-- Two calls for one string that both look before either of them appends. -/
def racing : List Event :=
  [.finished 0 "x" ⟨1⟩, .finished 1 "x" ⟨1⟩, .missed 1, .missed 0, .made 1 "x", .made 0 "x"]

/-- The one that comes late is answered the name that the other one made. -/
theorem racing_is_atomic :
    ∃ st, After racing st ∧ Linearized racing st ∧ st.table.strings = #["", "x"] ∧
      st.calls = #[.finished "x" ⟨1⟩, .finished "x" ⟨1⟩] := by
  have absent : Interner.initial.find? "x" = none :=
    find?_eq_none_iff_notMem.mpr (by simp [Interner.initial])
  have present : Interner.find? ⟨#["", "x"]⟩ "x" = some ⟨1⟩ := by simp [find?, List.findIdx?_cons]
  have made : After [.made 1 "x", .made 0 "x"]
      ⟨Interner.initial, #[.made "x", .made "x"]⟩ :=
    (After.nil.cons (.make "x")).cons (.make "x")
  have first : After [.missed 0, .made 1 "x", .made 0 "x"]
      ⟨Interner.initial, #[.missed "x", .made "x"]⟩ := made.cons (.miss rfl absent)
  have missed : After [.missed 1, .missed 0, .made 1 "x", .made 0 "x"]
      ⟨Interner.initial, #[.missed "x", .missed "x"]⟩ := first.cons (.miss rfl absent)
  have appended : After (racing.drop 1) ⟨⟨#["", "x"]⟩, #[.missed "x", .finished "x" ⟨1⟩]⟩ := by
    apply missed.cons
    apply Step.write rfl
    rw [insertIfAbsent, absent]
    rfl
  have after : After racing ⟨⟨#["", "x"]⟩, #[.finished "x" ⟨1⟩, .finished "x" ⟨1⟩]⟩ := by
    apply appended.cons
    apply Step.write rfl
    rw [insertIfAbsent, present]
  exact ⟨_, after, interleaved_calls_are_atomic after, rfl, rfl⟩

end Shared

end LexCell.Interner
