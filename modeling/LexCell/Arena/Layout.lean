import LexCell.Arena
import LexCell.Interner
import LexCell.Tree

/-!
# Laying trees out in an arena

Every tree goes into the tables after its parts, so a node's children always stand before it, and
the parts of a block or of a `let` stand together in their table. Names are interned on the way, a
name before the trees to its right: the strings enter the interner in the order in which `render`
would write them.
-/

namespace LexCell

/-- The tables under construction. -/
structure Layout where
  arena : Arena
  interner : Interner

namespace Layout

def node (n : Node) (s : Layout) : NodeId × Layout :=
  let (id, arena) := s.arena.addNode n
  (id, { s with arena })

def name (text : String) (s : Layout) : Name × Layout :=
  let (n, interner) := s.interner.intern text
  (n, { s with interner })

mutual

/-- Adds a tree and answers where its root went. -/
def place : Tree String → Layout → NodeId × Layout
  | .number n, s => s.node (.number n)
  | .boolean b, s => s.node (.boolean b)
  | .unary op t, s =>
      let (t, s) := place t s
      s.node (.unary op t)
  | .binary op l r, s =>
      let (l, s) := place l s
      let (r, s) := place r s
      s.node (.binary op l r)
  | .logical op l r, s =>
      let (l, s) := place l s
      let (r, s) := place r s
      s.node (.logical op l r)
  | .conditional t c a, s =>
      let (t, s) := place t s
      let (c, s) := place c s
      let (a, s) := place a s
      s.node (.conditional t c a)
  | .ident n, s =>
      let (n, s) := s.name n
      s.node (.ident n)
  | .bind ds, s =>
      let (ds, s) := placeDeclarations ds s
      let (span, arena) := s.arena.addDeclarations ds
      node (.bind span) { s with arena }
  -- The parameter is a name to the left of the body.
  | .function p b, s =>
      let (p, s) := s.name p
      let (b, s) := place b s
      s.node (.function p b)
  | .call c a, s =>
      let (c, s) := place c s
      let (a, s) := place a s
      s.node (.call c a)
  | .assign n v, s =>
      let (n, s) := s.name n
      let (v, s) := place v s
      s.node (.assign n v)
  -- The parts are placed first, so that they stand together in the table of lists.
  | .block ss, s =>
      let (ids, s) := placeAll ss s
      let (span, arena) := s.arena.addStatements ids
      node (.block span) { s with arena }
  | .malformed n, s =>
      let (n, s) := s.name n
      s.node (.malformed n)

def placeAll : List (Tree String) → Layout → List NodeId × Layout
  | [], s => ([], s)
  | t :: ts, s =>
      let (id, s) := place t s
      let (ids, s) := placeAll ts s
      (id :: ids, s)

def placeDeclarations : List (String × Tree String) → Layout → List Declaration × Layout
  | [], s => ([], s)
  -- The name is interned before those in its first value.
  | (n, t) :: ds, s =>
      let (n, s) := s.name n
      let (t, s) := place t s
      let (ds, s) := placeDeclarations ds s
      (⟨n, t⟩ :: ds, s)

end

end Layout

def Program.ofTrees (statements : List (Tree String)) (t : Interner) : Program × Interner :=
  let (ids, s) := Layout.placeAll statements ⟨Arena.empty, t⟩
  let (body, arena) := s.arena.addStatements ids
  (⟨arena, body⟩, s.interner)

end LexCell
