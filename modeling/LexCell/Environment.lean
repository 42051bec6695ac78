import LexCell.Assoc
import LexCell.Interner

/-!
# Environments

What is visible at a point of a run: a finite map from names to the slots of cells. The values
themselves live in the heap, so two environments that share a slot share the variable. Entries are
kept sorted by name, which makes equal maps equal environments. The view is `resolve`.
-/

namespace LexCell

/-- The index of a cell in a heap. -/
structure Slot where
  index : Nat
  deriving DecidableEq

/-- The slot as a programmer inspecting it sees it. -/
def Slot.inspect (s : Slot) : String := "Slot(" ++ toString s.index ++ ")"

/-! ### The order of names

Names are ordered by their numbers, not by their texts: an environment does not know the table that
the names belong to. -/

instance : LT Name := ⟨fun a b => a.index < b.index⟩

instance : DecidableLT Name := fun a b => inferInstanceAs (Decidable (a.index < b.index))

instance : Trans (α := Name) (· < ·) (· < ·) (· < ·) := ⟨fun h k => Nat.lt_trans h k⟩

instance : Std.Trichotomous (α := Name) (· < ·) where
  trichotomous a b h k := by
    obtain ⟨i⟩ := a
    obtain ⟨j⟩ := b
    exact congrArg Name.mk (Nat.le_antisymm (Nat.not_lt.mp k) (Nat.not_lt.mp h))

/-! ### Environments -/

structure Environment where
  entries : List (Name × Slot)
  sorted : Assoc.Sorted entries
  deriving DecidableEq

namespace Environment

def empty : Environment := ⟨[], .nil⟩

def resolve (env : Environment) (n : Name) : Option Slot := env.entries.lookup n

/-- Lets a name stand for a slot, whatever it stood for before. -/
def bind (env : Environment) (n : Name) (s : Slot) : Environment :=
  ⟨Assoc.insert n s env.entries, Assoc.sorted_insert n s env.sorted⟩

def contains (env : Environment) (n : Name) : Bool := (env.resolve n).isSome

def size (env : Environment) : Nat := env.entries.length

def isEmpty (env : Environment) : Bool := env.entries.isEmpty

/-- The visible names by their texts, in the order of code points, each with its slot. -/
def listing (env : Environment) (t : Interner) : List (String × Slot) :=
  -- Sorting again is needed: entries stand in the order of their numbers.
  env.entries.foldl (fun listed e => Assoc.insert (t.textOrNumber e.1) e.2 listed) []

/-! ### The view

Nothing else is known of an environment but what `resolve` answers. -/

@[simp] theorem resolve_empty (n : Name) : empty.resolve n = none := rfl

/-- A binding hides an older one of the same name and no other. -/
@[simp] theorem resolve_bind (env : Environment) (n m : Name) (s : Slot) :
    (env.bind n s).resolve m = if m = n then some s else env.resolve m :=
  Assoc.lookup_insert n m s env.entries

end Environment

end LexCell
