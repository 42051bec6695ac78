import LexCell.Arena
import LexCell.Interner
import LexCell.Tree

/-!
# Reading trees back from an arena

`tree?` follows the references from a node and builds the tree that hangs there; it fails where a
reference dangles. In an arena whose references run in a circle a node hangs below itself, and no
tree is deep enough: the depth that is followed is bounded, by default by the number of nodes, which
no path without a circle exceeds.

The written form of a node is that of its tree, with the names' texts put in.
-/

namespace LexCell

namespace Arena

/-- The tree below a node, if it is at most `depth` nodes deep and nothing dangles. -/
def treeWithin? (a : Arena) : Nat → NodeId → Option (Tree Name)
  | 0, _ => none
  | depth + 1, id => do
      let tree := treeWithin? a depth
      match ← a.node? id with
      | .number n => some (.number n)
      | .boolean b => some (.boolean b)
      | .unary op t => some (.unary op (← tree t))
      | .binary op l r => some (.binary op (← tree l) (← tree r))
      | .logical op l r => some (.logical op (← tree l) (← tree r))
      | .conditional t c b => some (.conditional (← tree t) (← tree c) (← tree b))
      | .ident n => some (.ident n)
      | .bind span =>
          let ds ← a.declarations? span
          some (.bind (← ds.mapM fun d => do some (d.name, ← tree d.init)))
      | .function p b => some (.function p (← tree b))
      | .call c b => some (.call (← tree c) (← tree b))
      | .assign n v => some (.assign n (← tree v))
      | .block span =>
          let ids ← a.statements? span
          some (.block (← ids.mapM tree))
      | .malformed n => some (.malformed n)

def tree? (a : Arena) (id : NodeId) : Option (Tree Name) := a.treeWithin? a.size id

/-- The written form of a node; `none` also if the interner lacks one of its names. -/
def render? (a : Arena) (t : Interner) (id : NodeId) : Option String := do
  let tree ← a.tree? id
  let tree ← tree.traverse t.text?
  some tree.render

end Arena

def Program.trees? (p : Program) : Option (List (Tree Name)) := do
  (← p.statements?).mapM p.arena.tree?

/-- The written form of a program, a statement a line. -/
def Program.render? (p : Program) (t : Interner) : Option String := do
  let lines ← (← p.statements?).mapM (p.arena.render? t)
  some ("\n".intercalate lines)

end LexCell
