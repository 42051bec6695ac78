/-!
# Names

Identifiers, declared names, parameters and operator tokens are handled as names: small indices
into a table of strings (`LexCell.Interner`). Comparing two names compares two numbers.
-/

namespace LexCell

/-- The index of a string in the table that handed the name out. -/
structure Name where
  index : Nat
  deriving DecidableEq

namespace Name

/-- The name of the empty string: the parameter of a function that declares none. -/
def empty : Name := ⟨0⟩

/-- The name as a programmer inspecting it sees it. -/
def inspect (n : Name) : String := "Name(" ++ toString n.index ++ ")"

end Name

end LexCell
