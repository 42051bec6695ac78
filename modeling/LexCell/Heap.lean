import LexCell.Value

/-!
# The heap of cells

Every variable owns one cell. Cells are only ever added, so a slot once given out stays good; a
slot that was never given out is answered with `none`.
-/

namespace LexCell

/-- The values of all cells, each at the index of its slot. -/
structure Heap where
  cells : Array Value
  deriving DecidableEq

namespace Heap

def empty : Heap := ⟨#[]⟩

def size (h : Heap) : Nat := h.cells.size

def isEmpty (h : Heap) : Bool := h.cells.isEmpty

def alloc (h : Heap) (v : Value) : Slot × Heap := (⟨h.cells.size⟩, ⟨h.cells.push v⟩)

def get? (h : Heap) (s : Slot) : Option Value := h.cells[s.index]?

def set? (h : Heap) (s : Slot) (v : Value) : Option Heap :=
  if s.index < h.cells.size then some ⟨h.cells.setIfInBounds s.index v⟩ else none

/-! ### Which cells there are

A slot is good if it is below the size. Good slots can be read and overwritten, and overwriting
succeeds for no others. -/

theorem exists_get? {h : Heap} {s : Slot} (hs : s.index < h.size) :
    ∃ v, h.get? s = some v := ⟨_, Array.getElem?_eq_getElem hs⟩

theorem exists_set? {h : Heap} {s : Slot} (hs : s.index < h.size) (v : Value) :
    ∃ h', h.set? s v = some h' := ⟨_, if_pos hs⟩

/-- Only a cell that is there can be overwritten. -/
theorem lt_of_set? {h h' : Heap} {s : Slot} {v : Value} (e : h.set? s v = some h') :
    s.index < h.size := by
  unfold set? at e
  split at e
  · assumption
  · cases e

/-! ### The view

What `get?` answers after a change, and how many cells there are then. Nothing about the array below
is used outside of this file. -/

/-- The new cell comes after all others, which stay. -/
@[simp] theorem get?_alloc (h : Heap) (v : Value) (s : Slot) :
    (h.alloc v).2.get? s = if s.index = h.size then some v else h.get? s :=
  Array.getElem?_push

@[simp] theorem size_alloc (h : Heap) (v : Value) : (h.alloc v).2.size = h.size + 1 :=
  Array.size_push v

theorem get?_of_set? {h h' : Heap} {s : Slot} {v : Value} (e : h.set? s v = some h') (s' : Slot) :
    h'.get? s' = if s' = s then some v else h.get? s' := by
  unfold set? at e
  split at e
  · next hlt =>
    cases e
    obtain ⟨i⟩ := s
    obtain ⟨j⟩ := s'
    simp only [get?, Slot.mk.injEq]
    -- Slots are the same if their indices are.
    grind
  · cases e

theorem size_of_set? {h h' : Heap} {s : Slot} {v : Value} (e : h.set? s v = some h') :
    h'.size = h.size := by
  unfold set? at e
  split at e
  · cases e
    exact Array.size_setIfInBounds
  · cases e

end Heap

/-- What the variable of that name holds: `none` if the name is not visible. -/
def Environment.lookup (env : Environment) (n : Name) (h : Heap) : Option (Option Value) :=
  (env.resolve n).map h.get?

/-- A new variable: a new cell, and an environment in which the name stands for it. -/
def Environment.extend (env : Environment) (n : Name) (v : Value) (h : Heap) :
    Environment × Heap :=
  let (s, h) := h.alloc v
  (env.bind n s, h)

/-- The slot of a new variable is the size of the heap before. -/
@[simp] theorem Environment.extend_fst (env : Environment) (n : Name) (v : Value) (h : Heap) :
    (env.extend n v h).1 = env.bind n ⟨h.size⟩ := rfl

@[simp] theorem Environment.extend_snd (env : Environment) (n : Name) (v : Value) (h : Heap) :
    (env.extend n v h).2 = (h.alloc v).2 := rfl

end LexCell
