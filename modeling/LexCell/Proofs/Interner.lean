import LexCell.Proofs.Arena.Layout

/-!
# What a table of strings holds

Interning appends what the table does not hold yet, each string once and in the order in which they
come (`Interner.toList_internAll`). So nothing that was there is removed or moves.

A table that started from the initial one and was only interned into is proper: every string stands
once and the empty one stands first. There `find?` and `text?` are inverse to each other
(`Interner.Proper.find?_eq_some_iff`), so a name of such a table is as good as its text.
-/

namespace LexCell

namespace Interner

/-! ### What is appended

A table is looked at as the list of its strings. A string that is there is found and nothing
changes; one that is not goes to the end. -/

/-- A string is in the table exactly if it is the text of a name. -/
theorem mem_strings_iff {t : Interner} {s : String} :
    s ∈ t.strings ↔ ∃ n, t.text? n = some s := by
  constructor
  · intro h
    obtain ⟨i, hi⟩ := Array.getElem?_of_mem h
    exact ⟨⟨i⟩, hi⟩
  · rintro ⟨n, hn⟩
    exact Array.mem_of_getElem? hn

/-- The names of a table are the indices below its size. -/
theorem knows_iff_lt {t : Interner} {n : Name} : t.Knows n ↔ n.index < t.size := by
  constructor
  · rintro ⟨s, text⟩
    exact (Array.getElem?_eq_some_iff.mp text).1
  · exact fun inside => ⟨_, Array.getElem?_eq_getElem inside⟩

/-- A search finds nothing exactly if the string is not there. -/
theorem find?_eq_none_iff_notMem {t : Interner} {s : String} :
    t.find? s = none ↔ s ∉ t.strings := by
  rw [find?_eq_none_iff, mem_strings_iff]
  exact not_exists.symm

/-- A string that is there leaves the table as it is. -/
theorem intern_of_mem {t : Interner} {s : String} (h : s ∈ t.strings) : (t.intern s).2 = t := by
  rw [intern_eq, insertIfAbsent]
  cases found : t.find? s with
  | some n => rfl
  | none => exact absurd h (find?_eq_none_iff_notMem.mp found)

/-- A string that is new is appended. -/
theorem intern_of_notMem {t : Interner} {s : String} (h : s ∉ t.strings) :
    t.intern s = t.insert s := by
  rw [intern_eq, insertIfAbsent, find?_eq_none_iff_notMem.mpr h]

/-- **Interning many strings appends the new ones**, in the order of their first occurrences. -/
theorem toList_internAll (t : Interner) (names : List String) :
    (t.internAll names).strings.toList =
      t.strings.toList ++ (names.filter (· ∉ t.strings)).eraseDups := by
  induction names generalizing t with
  | nil => exact (List.append_nil _).symm
  | cons s names ih =>
      rw [internAll_cons, ih]
      -- The first string is there already or is the first of the new ones.
      by_cases h : s ∈ t.strings
      · rw [intern_of_mem h, List.filter_cons_of_neg (by simpa using h)]
      · -- What is new after `s` is what was new before and is not `s`.
        have new : names.filter (· ∉ (t.strings.push s)) =
            (names.filter (· ∉ t.strings)).filter fun x => !x == s := by
          rw [List.filter_filter]
          congr 1
          funext x
          by_cases hx : x = s <;> simp [hx]
        rw [intern_of_notMem h, List.filter_cons_of_pos (by simpa using h), List.eraseDups_cons,
          ← new]
        simp [insert]

/-- What was there stays in front. -/
theorem prefix_internAll (t : Interner) (names : List String) :
    t.strings.toList <+: (t.internAll names).strings.toList :=
  ⟨_, (toList_internAll t names).symm⟩

/-- Interning appends one string if it is absent, and else none. -/
theorem size_intern (t : Interner) (s : String) :
    (t.intern s).2.size = t.size + if s ∈ t.strings then 0 else 1 := by
  split
  · next h => rw [intern_of_mem h, Nat.add_zero]
  · next h => rw [intern_of_notMem h, size_insert]

theorem size_le_internAll (t : Interner) (names : List String) :
    t.size ≤ (t.internAll names).size := by
  have grown := (prefix_internAll t names).length_le
  rwa [Array.length_toList, Array.length_toList] at grown

/-- Names keep their texts. -/
theorem extends_internAll (t : Interner) (names : List String) :
    t.Extends (t.internAll names) := by
  induction names generalizing t with
  | nil => exact fun _ _ h => h
  | cons s names ih => exact fun n text h => ih (t.intern s).2 n text (extends_intern t s n text h)

/-! ### Proper tables

The initial table is proper and interning keeps it so, hence all tables of a run are. -/

/-- Every string stands once, and the empty one first. -/
structure Proper (t : Interner) : Prop where
  once : ∀ {n m s}, t.text? n = some s → t.text? m = some s → n = m
  empty : t.text? .empty = some ""

theorem proper_initial : Interner.initial.Proper := by
  -- The initial table has one name.
  have only {n : Name} {s : String} (h : Interner.initial.text? n = some s) : n = .empty := by
    obtain ⟨i⟩ := n
    obtain ⟨hlt, -⟩ := Array.getElem?_eq_some_iff.mp h
    exact congrArg Name.mk (Nat.lt_one_iff.mp hlt)
  exact ⟨fun hn hm => (only hn).trans (only hm).symm, rfl⟩

namespace Proper

variable {t : Interner}

/-- Interning one string leaves a proper table proper. -/
theorem intern (h : t.Proper) (s : String) : (t.intern s).2.Proper := by
  by_cases hs : s ∈ t.strings
  · rw [intern_of_mem hs]
    exact h
  · have absent (n : Name) : t.text? n ≠ some s := fun hn => hs (mem_strings_iff.mpr ⟨n, hn⟩)
    refine ⟨?_, extends_intern t s _ _ h.empty⟩
    rw [intern_of_notMem hs]
    rintro ⟨i⟩ ⟨j⟩ text hn hm
    rw [text?_insert] at hn hm
    -- Of two names with one text either both are new or neither is.
    split at hn <;> split at hm
    · next hi hj => exact congrArg Name.mk (hi.trans hj.symm)
    · cases hn
      exact absurd hm (absent _)
    · cases hm
      exact absurd hn (absent _)
    · exact h.once hn hm

/-- What is interned into a proper table leaves it proper. -/
theorem internAll (h : t.Proper) (names : List String) : (t.internAll names).Proper := by
  induction names generalizing t with
  | nil => exact h
  | cons s names ih => exact ih (h.intern s)

/-- A proper table lists no string twice. -/
theorem nodup (h : t.Proper) : t.strings.toList.Nodup := by
  refine List.nodup_iff_getElem?_ne_getElem?.mpr fun i j hij hj same => ?_
  obtain ⟨s, text⟩ : ∃ s, t.text? ⟨j⟩ = some s := knows_iff_lt.mpr hj
  have text' : t.text? ⟨i⟩ = some s := by
    rw [text?, ← Array.getElem?_toList, same, Array.getElem?_toList]
    exact text
  -- Two indices with one string would be one name.
  exact absurd (congrArg Name.index (h.once text' text)) (Nat.ne_of_lt hij)

/-- **Names and strings stand for each other.** -/
theorem find?_eq_some_iff (h : t.Proper) {n : Name} {s : String} :
    t.find? s = some n ↔ t.text? n = some s := by
  refine ⟨text?_of_find?, fun hn => ?_⟩
  cases found : t.find? s with
  | none => exact absurd hn (find?_eq_none_iff.mp found n)
  | some m => rw [h.once hn (text?_of_find? found)]

/-- Only the empty name has the empty text. -/
theorem text?_eq_empty_iff (h : t.Proper) {n : Name} : t.text? n = some "" ↔ n = .empty :=
  ⟨fun text => h.once text h.empty, fun same => same ▸ h.empty⟩

end Proper

end Interner

end LexCell
