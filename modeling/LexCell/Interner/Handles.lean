import LexCell.Interner

/-!
# Shared tables

Several users may hold handles to one table, and several tables may exist side by side. A handle
is an index into `Handles.owners`, which says which table it reads and writes; what one handle
interns, every handle to the same table sees, and no other.
-/

namespace LexCell

/-- Tables, and for each handle the index of the table it belongs to. -/
structure Handles where
  tables : Array Interner
  owners : Array Nat

namespace Handles

def initial : Handles := ⟨#[Interner.initial], #[0]⟩

def table? (hs : Handles) (h : Nat) : Option Interner := do
  hs.tables[(← hs.owners[h]?)]?

def intern? (hs : Handles) (h : Nat) (s : String) : Option (Name × Handles) := do
  let owner ← hs.owners[h]?
  let table ← hs.tables[owner]?
  let (n, table) := table.intern s
  some (n, { hs with tables := hs.tables.setIfInBounds owner table })

/-- A further handle to the table of `h`. -/
def share? (hs : Handles) (h : Nat) : Option (Nat × Handles) := do
  let owner ← hs.owners[h]?
  some (hs.owners.size, { hs with owners := hs.owners.push owner })

/-- A handle to a table of its own. -/
def fresh (hs : Handles) : Nat × Handles :=
  (hs.owners.size, ⟨hs.tables.push Interner.initial, hs.owners.push hs.tables.size⟩)

end Handles

end LexCell
