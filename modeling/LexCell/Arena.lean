import LexCell.Name
import LexCell.Operator

/-!
# Programs laid out in tables

An `Arena` holds a program in three tables: the nodes, the statement lists of all blocks and of
the program itself, and the declarations of all `let` nodes. Nodes refer to their children by
index, blocks and `let` nodes to their parts by a range of the table in question, so a handle that
was once given out stays good while the tables grow.

Nothing in these types keeps a reference inside its table: reading goes through `node?`,
`statements?` and `declarations?`, which answer `none` for a reference that dangles.
-/

namespace LexCell

/-- The index of a node in the arena that holds it. -/
structure NodeId where
  index : Nat
  deriving DecidableEq

/-- A run of entries in a table: where it starts and how many they are. -/
structure Span where
  start : Nat
  length : Nat
  deriving DecidableEq

structure Declaration where
  name : Name
  init : NodeId
  deriving DecidableEq

/-- An expression or statement whose parts are references into the arena. -/
inductive Node where
  | number (n : Int64)
  | boolean (b : Bool)
  | unary (op : UnaryOp) (operand : NodeId)
  | binary (op : BinaryOp) (left right : NodeId)
  | logical (op : LogicalOp) (left right : NodeId)
  | conditional (test consequent alternate : NodeId)
  | ident (name : Name)
  | bind (declarations : Span)
  | function (param : Name) (body : NodeId)
  | call (callee argument : NodeId)
  | assign (target : Name) (value : NodeId)
  | block (statements : Span)
  | malformed (token : Name)
  deriving DecidableEq

structure Arena where
  nodes : Array Node := #[]
  statementLists : Array NodeId := #[]
  declarations : Array Declaration := #[]
  deriving DecidableEq

structure Program where
  arena : Arena
  body : Span
  deriving DecidableEq

namespace Span

variable {α : Type}

/-- The entries of a table that a span covers, if the table reaches that far. -/
def of? (span : Span) (table : Array α) : Option (List α) :=
  if span.start + span.length ≤ table.size then
    some (table.extract span.start (span.start + span.length)).toList
  else none

/-- A span keeps its entries while the table grows. -/
theorem of?_append {span : Span} {table : Array α} {xs ys : List α}
    (h : span.of? table = some xs) : span.of? (table ++ ys.toArray) = some xs := by
  unfold of? at *
  split at h
  · next hle =>
    cases h
    rw [if_pos (by simp; omega)]
    -- Both runs have the same entries, for the new ones stand after them.
    congr 1
    apply List.ext_getElem?
    intro i
    simp
    grind
  · cases h

/-- What was just appended is what its span covers, so a span that `addStatements` gives out is good
at once. -/
theorem of?_added (table : Array α) (xs : List α) :
    Span.of? ⟨table.size, xs.length⟩ (table ++ xs.toArray) = some xs := by
  unfold of?
  rw [if_pos (by simp)]
  simp

end Span

namespace Arena

def empty : Arena := {}

def size (a : Arena) : Nat := a.nodes.size

/-! ### Reading -/

def node? (a : Arena) (id : NodeId) : Option Node := a.nodes[id.index]?

def statements? (a : Arena) (span : Span) : Option (List NodeId) := span.of? a.statementLists

def declarations? (a : Arena) (span : Span) : Option (List Declaration) :=
  span.of? a.declarations

/-! ### Growing

Entries are only ever added, at the end. A handle is the index that the entry has from then on. -/

def addNode (a : Arena) (node : Node) : NodeId × Arena :=
  (⟨a.nodes.size⟩, { a with nodes := a.nodes.push node })

def addStatements (a : Arena) (ids : List NodeId) : Span × Arena :=
  (⟨a.statementLists.size, ids.length⟩, { a with statementLists := a.statementLists ++ ids.toArray })

def addDeclarations (a : Arena) (declarations : List Declaration) : Span × Arena :=
  (⟨a.declarations.size, declarations.length⟩,
    { a with declarations := a.declarations ++ declarations.toArray })

/-! ### What growing does to reading

The three tables are apart: adding to one does not change what is read from another. -/

@[simp] theorem node?_addNode (a : Arena) (node : Node) (id : NodeId) :
    (a.addNode node).2.node? id = if id.index = a.size then some node else a.node? id :=
  Array.getElem?_push

@[simp] theorem node?_addStatements (a : Arena) (ids : List NodeId) (id : NodeId) :
    (a.addStatements ids).2.node? id = a.node? id := rfl

@[simp] theorem node?_addDeclarations (a : Arena) (ds : List Declaration) (id : NodeId) :
    (a.addDeclarations ds).2.node? id = a.node? id := rfl

theorem statements?_addStatements (a : Arena) (ids : List NodeId) :
    (a.addStatements ids).2.statements? (a.addStatements ids).1 = some ids :=
  Span.of?_added a.statementLists ids

theorem declarations?_addDeclarations (a : Arena) (ds : List Declaration) :
    (a.addDeclarations ds).2.declarations? (a.addDeclarations ds).1 = some ds :=
  Span.of?_added a.declarations ds

end Arena

def Program.statements? (p : Program) : Option (List NodeId) := p.arena.statements? p.body

end LexCell
