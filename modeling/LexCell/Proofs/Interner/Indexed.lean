import LexCell.Proofs.Interner

/-!
# A table with an index

Searching a table for a string reads all of it. An `Interner.Indexed` keeps a map from the strings
to their names beside the table, so a string is found by one look into the map; each string that is
appended is entered into both. Names are numbers of 32 bits, so a table with as many strings as
there are names takes no new string.

The map finds what a search would find; this is part of the type. So as long as there are names
left, interning with an index is interning (`Indexed.table_of_internAll?`), and it stops exactly
when the names are used up (`Indexed.internAll?_eq_none_iff`).
-/

namespace LexCell.Interner

/-! ### Tables with an index

The map must find what a search would find after every insertion, which is what the field `finds` of
the type asks for. It is shown where the map is changed. -/

/-- A search in a longer table finds what it found, or else the new string. -/
theorem find?_insert (t : Interner) (s s' : String) :
    (t.insert s).2.find? s' = (t.find? s').or (if s = s' then some ⟨t.size⟩ else none) := by
  simp only [find?, insert, Array.findIdx?_push, beq_iff_eq]
  -- The first occurrence counts, so the new string is found only if there is no other.
  cases t.strings.findIdx? (· == s') with
  | some i => rfl
  | none =>
      by_cases h : s = s'
      · rw [if_pos h, if_pos h]
        rfl
      · rw [if_neg h, if_neg h]
        rfl

/-- How many names there are. -/
def nameLimit : Nat := UInt32.size

/-- A table, and a map that finds in it what a search would find. -/
structure Indexed where
  table : Interner
  index : Std.HashMap String Name
  finds : ∀ s, index[s]? = table.find? s

namespace Indexed

def initial : Indexed where
  table := Interner.initial
  index := (∅ : Std.HashMap String Name).insert "" .empty
  finds s := by
    rw [Std.HashMap.getElem?_insert, Std.HashMap.getElem?_empty]
    by_cases h : "" = s
    · subst h
      rw [if_pos (beq_self_eq_true "")]
      exact (proper_initial.find?_eq_some_iff.mpr rfl).symm
    · rw [if_neg (by simpa using h)]
      exact (find?_eq_none_iff_notMem.mpr (by simpa [Interner.initial] using Ne.symm h)).symm

def insert (x : Indexed) (s : String) (absent : x.index[s]? = none) : Indexed where
  table := (x.table.insert s).2
  index := x.index.insert s (x.table.insert s).1
  finds s' := by
    rw [Std.HashMap.getElem?_insert, find?_insert, x.finds s']
    by_cases h : s = s'
    · subst h
      rw [← x.finds s, absent, if_pos (beq_self_eq_true s), if_pos rfl]
      rfl
    · rw [if_neg (by simpa using h), if_neg h, Option.or_none]

/-- The name of a string, entered first if it is absent; `none` if there is no name left. -/
def intern? (x : Indexed) (s : String) : Option (Name × Indexed) :=
  match found : x.index[s]? with
  | some n => some (n, x)
  | none => if x.table.size < nameLimit then some ((x.table.insert s).1, x.insert s found) else none

def internAll? (x : Indexed) : List String → Option Indexed
  | [] => some x
  | s :: names => (x.intern? s).bind fun next => next.2.internAll? names

variable {x x' : Indexed} {s : String} {n : Name} {names : List String}

/-! ### Agreement

As long as there are names the index changes nothing but the time that a search takes. -/

/-- **With an index a string gets the name that it gets without.** -/
theorem table_of_intern? (h : x.intern? s = some (n, x')) : x.table.intern s = (n, x'.table) := by
  unfold intern? at h
  split at h
  · next m found =>
    rw [x.finds] at found
    cases h
    rw [intern, found]
  · next absent =>
    split at h
    · cases h
      rw [x.finds] at absent
      exact intern_of_notMem (find?_eq_none_iff_notMem.mp absent)
    · cases h

/-- A string gets no name exactly if it is new and all names are used up. -/
theorem intern?_eq_none_iff :
    x.intern? s = none ↔ s ∉ x.table.strings ∧ nameLimit ≤ x.table.size := by
  unfold intern?
  -- The string is found in the map, or it is not and the limit decides.
  split
  · next m found =>
    rw [x.finds] at found
    have present : s ∈ x.table.strings := mem_strings_iff.mpr ⟨m, text?_of_find? found⟩
    exact iff_of_false nofun fun h => h.1 present
  · next absent =>
    rw [x.finds] at absent
    have new := find?_eq_none_iff_notMem.mp absent
    split
    · next left => exact iff_of_false nofun fun h => absurd left (Nat.not_lt.mpr h.2)
    · next full => exact iff_of_true rfl ⟨new, Nat.not_lt.mp full⟩

/-- The same for many strings. -/
theorem table_of_internAll? (h : x.internAll? names = some x') :
    x'.table = x.table.internAll names := by
  induction names generalizing x with
  | nil =>
      cases h
      rfl
  | cons s names ih =>
      obtain ⟨⟨n, next⟩, first, rest⟩ := Option.bind_eq_some_iff.mp h
      rw [ih rest, internAll_cons, table_of_intern? first]

/-- Where there was a name for the new string there are not more strings than names. -/
theorem size_le_of_intern? (room : x.table.size ≤ nameLimit) (h : x.intern? s = some (n, x')) :
    x'.table.size ≤ nameLimit := by
  have size : x'.table.size = _ := table_of_intern? h ▸ size_intern x.table s
  by_cases present : s ∈ x.table.strings
  · rw [if_pos present] at size
    omega
  · have left : ¬nameLimit ≤ x.table.size := fun full =>
      absurd (intern?_eq_none_iff.mpr ⟨present, full⟩) (h ▸ nofun)
    rw [if_neg present] at size
    omega

/-- **Interning with an index stops when there are more strings than names**, and only then. -/
theorem internAll?_eq_none_iff (room : x.table.size ≤ nameLimit) :
    x.internAll? names = none ↔ nameLimit < (x.table.internAll names).size := by
  induction names generalizing x with
  | nil => exact iff_of_false nofun (Nat.not_lt.mpr room)
  | cons s names ih =>
      rw [internAll?, internAll_cons]
      -- The first string either stops at the limit or leaves room for the others to be asked for.
      cases first : x.intern? s with
      | none =>
          obtain ⟨absent, full⟩ := intern?_eq_none_iff.mp first
          have grown := size_le_internAll (x.table.intern s).2 names
          rw [size_intern, if_neg absent] at grown
          exact iff_of_true rfl (by omega)
      | some next =>
          rw [table_of_intern? first]
          exact ih (size_le_of_intern? room first)

/-- From the start, as long as there are names for all strings, the map finds exactly the texts. -/
theorem exists_internAll? (names : List String)
    (room : (Interner.initial.internAll names).size ≤ nameLimit) :
    ∃ x, initial.internAll? names = some x ∧ x.table = Interner.initial.internAll names ∧
      ∀ s n, x.index[s]? = some n ↔ x.table.text? n = some s := by
  cases interned : initial.internAll? names with
  | none =>
      have full := (internAll?_eq_none_iff (by decide)).mp interned
      exact absurd room (Nat.not_le.mpr full)
  | some x =>
      have table := table_of_internAll? interned
      have proper : x.table.Proper := table ▸ proper_initial.internAll names
      exact ⟨x, rfl, table, fun s n => by rw [x.finds, proper.find?_eq_some_iff]⟩

end Indexed

end LexCell.Interner
