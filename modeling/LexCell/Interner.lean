import LexCell.Name

/-!
# The table of strings

An `Interner` is a growing list of strings in which every string stands once and the empty string
stands first. Looking a string up goes one way (`find?`), reading the text of a name the other
(`text?`); `intern` is the only operation that grows the table, and only by appending.

`intern` is `find?` followed by `insert`. The two steps are definitions of their own because a
table may be shared: another user may insert between them, so `insertIfAbsent` looks again.
-/

namespace LexCell

/-- The strings of a table, each at the index of its name. -/
structure Interner where
  strings : Array String
  deriving DecidableEq

namespace Interner

/-- The table before anything is interned: it holds the empty string. -/
def initial : Interner := ⟨#[""]⟩

def size (t : Interner) : Nat := t.strings.size

/-- No table that started from `initial` is empty. -/
def isEmpty (t : Interner) : Bool := t.size == 0

def find? (t : Interner) (s : String) : Option Name :=
  (t.strings.findIdx? (· == s)).map Name.mk

def text? (t : Interner) (n : Name) : Option String := t.strings[n.index]?

/-- Appends a string; its name is the next free index. -/
def insert (t : Interner) (s : String) : Name × Interner :=
  (⟨t.strings.size⟩, ⟨t.strings.push s⟩)

/-- Looks once more, and appends only what is still absent. -/
def insertIfAbsent (t : Interner) (s : String) : Name × Interner :=
  match t.find? s with
  -- Another user may have inserted it since the first look.
  | some n => (n, t)
  | none => t.insert s

/-- The name of a string, appended first if the table does not hold it yet. -/
def intern (t : Interner) (s : String) : Name × Interner :=
  match t.find? s with
  | some n => (n, t)
  | none => t.insertIfAbsent s

def internAll (t : Interner) (names : List String) : Interner :=
  names.foldl (fun t s => (t.intern s).2) t

/-- The text under which errors speak of a name: its own, or its number if the table lacks it. -/
def textOrNumber (t : Interner) (n : Name) : String :=
  (t.text? n).getD ("#" ++ toString n.index)

/-- The table as a programmer inspecting it sees it. -/
def inspect (t : Interner) : String :=
  "StringInterner \x7b len: " ++ toString t.size ++ " \x7d"

/-! ### What one step does to the view

The view is `text?` and `find?`. An insertion changes both at one place, and looking twice is as
good as looking once for a table that nobody shares. -/

@[simp] theorem text?_insert (t : Interner) (s : String) (n : Name) :
    (t.insert s).2.text? n = if n.index = t.size then some s else t.text? n :=
  Array.getElem?_push

@[simp] theorem size_insert (t : Interner) (s : String) :
    (t.insert s).2.size = t.size + 1 := by
  simp [insert, size]

/-- What is found is what was looked for. -/
theorem text?_of_find? {t : Interner} {s : String} {n : Name} (h : t.find? s = some n) :
    t.text? n = some s := by
  unfold find? at h
  obtain ⟨i, hi, rfl⟩ := Option.map_eq_some_iff.mp h
  obtain ⟨hlt, heq, -⟩ := Array.findIdx?_eq_some_iff_getElem.mp hi
  -- The index that is found is the first with this string.
  have heq := eq_of_beq heq
  subst heq
  exact Array.getElem?_eq_getElem hlt

/-- A string is not found exactly when no name has it for its text. -/
theorem find?_eq_none_iff {t : Interner} {s : String} :
    t.find? s = none ↔ ∀ n, t.text? n ≠ some s := by
  unfold find? text?
  rw [Option.map_eq_none_iff, Array.findIdx?_eq_none_iff]
  constructor
  · intro h n hn
    have := h s (Array.mem_of_getElem? hn)
    simp at this
  · intro h x hx
    obtain ⟨i, hi⟩ := Array.getElem?_of_mem hx
    have := h ⟨i⟩
    grind

/-- The second look of `intern` finds nothing new when nobody else writes in between. -/
theorem intern_eq (t : Interner) (s : String) : t.intern s = t.insertIfAbsent s := by
  unfold intern insertIfAbsent
  split <;> simp_all

theorem internAll_cons (t : Interner) (s : String) (names : List String) :
    t.internAll (s :: names) = (t.intern s).2.internAll names := rfl

/-- Strings can be interned in two batches. -/
theorem internAll_append (t : Interner) (names more : List String) :
    t.internAll (names ++ more) = (t.internAll names).internAll more := by
  simp [internAll]

end Interner

end LexCell
