import LexCell.Arena
import LexCell.Interner
import LexCell.Tree

/-!
# Printing from an arena

The written form of a node, put together while the references below it are followed. No tree is
built on the way: each node writes what stands before, between and after its parts. That the result
is the written form of the tree that hangs there is `Arena.print?_eq_render?`.
-/

namespace LexCell

/-- A name as it is written. The table is not asked for the empty one. -/
def Interner.label? (t : Interner) (n : Name) : Option String :=
  if n = Name.empty then some "_" else t.text? n

namespace Arena

/-- Two nodes, and the bracket that closes the form which ends with them. -/
def printPair? (print? : NodeId → Option String) (l r : NodeId) : Option String := do
  some ((← print? l) ++ " " ++ (← print? r) ++ ")")

/-- The written form of a node that is at most `depth` nodes deep. -/
def printWithin? (a : Arena) (t : Interner) : Nat → NodeId → Option String
  | 0, _ => none
  | depth + 1, id => do
      let print? := printWithin? a t depth
      match ← a.node? id with
      | .number n => some ("(number " ++ decimal n ++ ")")
      | .boolean b => some ("(boolean " ++ truth b ++ ")")
      | .unary op x => some ("(unary " ++ op.symbol ++ " " ++ (← print? x) ++ ")")
      -- The second half writes the bracket that closes the form.
      | .binary op l r =>
          some ("(" ++ op.family.label ++ " " ++ op.symbol ++ " " ++ (← printPair? print? l r))
      | .logical op l r => some ("(logical " ++ op.symbol ++ " " ++ (← printPair? print? l r))
      | .conditional x y z =>
          some ("(conditional " ++ (← print? x) ++ " " ++ (← printPair? print? y z))
      | .ident n => t.label? n
      -- Each part brings the blank before it.
      | .bind span =>
          let ds ← a.declarations? span
          let parts ← ds.mapM fun d => do
            some (" [" ++ (← t.label? d.name) ++ " " ++ (← print? d.init) ++ "]")
          some ("(let" ++ String.join parts ++ ")")
      | .function p b => some ("(function " ++ (← t.label? p) ++ " " ++ (← print? b) ++ ")")
      | .call c x => some ("(call " ++ (← printPair? print? c x))
      | .assign n v => some ("(assign " ++ (← t.label? n) ++ " " ++ (← print? v) ++ ")")
      | .block span =>
          let ids ← a.statements? span
          let parts ← ids.mapM fun id => do some (" " ++ (← print? id))
          some ("(block" ++ String.join parts ++ ")")
      | .malformed n => some ("(malformed " ++ (← t.label? n) ++ ")")

def print? (a : Arena) (t : Interner) (id : NodeId) : Option String := a.printWithin? t a.size id

end Arena

def Program.print? (p : Program) (t : Interner) : Option String := do
  let lines ← (← p.statements?).mapM (p.arena.print? t)
  some ("\n".intercalate lines)

end LexCell
