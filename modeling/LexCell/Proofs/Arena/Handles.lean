import LexCell.Proofs.Arena.Postorder

/-!
# What handles stand for

A call adds a node, a list of statements or a list of declarations to an arena and is answered a
handle, the index or the span under which what was added is read. Calls may come in any order. In
each of the three tables the handles lie side by side (`Arena.tiles_answers`): the first starts
where the table ended before the calls, and each further one where the one before it ended. So no
two handles share an entry, nodes are numbered without gaps, and what a handle stands for can be
read at any later time (`Arena.handles_are_stable`).

Where entries are counted with 32 bits, a length is the difference of two counts. The handles are
the same ones, and no difference is ever negative: a call goes wrong only if its table gets more
entries than can be counted (`Arena.counted_eq`).
-/

namespace LexCell

namespace Span

/-- The span has the entry at an index. -/
def Covers (span : Span) (i : Nat) : Prop := span.start ≤ i ∧ i < span.start + span.length

/-- The spans lie side by side from `lo` up to `hi`. -/
inductive Tiles : Nat → List Span → Nat → Prop where
  | nil (lo : Nat) : Tiles lo [] lo
  | cons {lo n hi : Nat} {spans : List Span} :
      Tiles (lo + n) spans hi → Tiles lo (⟨lo, n⟩ :: spans) hi

namespace Tiles

variable {lo hi : Nat} {spans : List Span}

/-- No span starts before the place where the first one does. -/
theorem le_start (h : Tiles lo spans hi) {span : Span} (member : span ∈ spans) :
    lo ≤ span.start := by
  induction h with
  | nil => cases member
  | cons _ ih =>
      rcases List.mem_cons.mp member with rfl | later
      · exact Nat.le_refl _
      · have := ih later
        omega

/-- No entry is in two of the spans. -/
theorem pairwise (h : Tiles lo spans hi) :
    spans.Pairwise fun span span' => ∀ i, ¬(span.Covers i ∧ span'.Covers i) := by
  induction h with
  | nil => exact .nil
  | cons rest ih =>
      refine .cons ?_ ih
      -- What comes later starts where the first span has ended.
      intro span' later i ⟨⟨_, before⟩, ⟨after, _⟩⟩
      have := rest.le_start later
      simp only at before
      omega

/-- Spans of one entry each are numbered in their order. -/
theorem start_eq (h : Tiles lo spans hi) (single : ∀ span ∈ spans, span.length = 1) :
    spans.map Span.start = List.range' lo spans.length := by
  induction h with
  | nil => rfl
  | @cons lo n _ _ _ ih =>
      have one : n = 1 := single ⟨lo, n⟩ List.mem_cons_self
      subst one
      rw [List.map_cons, ih fun span later => single span (List.mem_cons_of_mem _ later)]
      rfl

end Tiles

end Span

namespace Arena

/-! ### Calls

The three ways to add something are taken together as calls, and what they answer as handles. A
handle belongs to one table, and covers in it what was added. -/

inductive Table where
  | nodes
  | statements
  | declarations
  deriving DecidableEq

inductive Call where
  | node (n : Node)
  | statements (ids : List NodeId)
  | declarations (ds : List Declaration)

inductive Handle where
  | node (id : NodeId)
  | statements (span : Span)
  | declarations (span : Span)
  deriving DecidableEq

def Call.table : Call → Table
  | .node _ => .nodes
  | .statements _ => .statements
  | .declarations _ => .declarations

def Call.added : Call → Nat
  | .node _ => 1
  | .statements ids => ids.length
  | .declarations ds => ds.length

def Handle.node? : Handle → Option NodeId
  | .node id => some id
  | _ => none

/-- The entries of a table that the handle stands for. -/
def Handle.span? : Table → Handle → Option Span
  | .nodes, .node id => some ⟨id.index, 1⟩
  | .statements, .statements span => some span
  | .declarations, .declarations span => some span
  | _, _ => none

def entries (a : Arena) : Table → Nat
  | .nodes => a.nodes.size
  | .statements => a.statementLists.size
  | .declarations => a.declarations.size

def answer (a : Arena) : Call → Handle × Arena
  | .node n => (.node (a.addNode n).1, (a.addNode n).2)
  | .statements ids => (.statements (a.addStatements ids).1, (a.addStatements ids).2)
  | .declarations ds => (.declarations (a.addDeclarations ds).1, (a.addDeclarations ds).2)

def answers (a : Arena) : List Call → List Handle × Arena
  | [] => ([], a)
  | c :: cs =>
      let (h, a) := a.answer c
      let (hs, a) := a.answers cs
      (h :: hs, a)

/-- What the call added is what is read under the handle. -/
inductive Holds (a : Arena) : Call → Handle → Prop where
  | node {n : Node} {id : NodeId} : a.node? id = some n → Holds a (.node n) (.node id)
  | statements {ids : List NodeId} {span : Span} :
      a.statements? span = some ids → Holds a (.statements ids) (.statements span)
  | declarations {ds : List Declaration} {span : Span} :
      a.declarations? span = some ds → Holds a (.declarations ds) (.declarations span)

variable (a : Arena) (c : Call) (calls : List Call) (t : Table)

/-- A call only adds, so what could be read before it reads the same. -/
theorem extends_answer : a.Extends (a.answer c).2 := by
  cases c with
  | node n => exact .addNode a n
  | statements ids => exact .addStatements a ids
  | declarations ds => exact .addDeclarations a ds

theorem extends_answers : a.Extends (a.answers calls).2 := by
  induction calls generalizing a with
  | nil => exact .refl a
  | cons c calls ih => exact (extends_answer a c).trans (ih _)

/-- Calls may be answered in two batches. -/
theorem answers_append (later : List Call) :
    (a.answers (calls ++ later)).2 = ((a.answers calls).2.answers later).2 := by
  induction calls generalizing a with
  | nil => rfl
  | cons c calls ih => exact ih _

/-- The entry that a call adds is what is read under its handle at once. -/
theorem holds_answer : (a.answer c).2.Holds c (a.answer c).1 := by
  cases c with
  | node n =>
      apply Holds.node
      show (a.addNode n).2.node? ⟨a.nodes.size⟩ = some n
      rw [node?_addNode]
      exact if_pos rfl
  | statements ids => exact .statements (statements?_addStatements a ids)
  | declarations ds => exact .declarations (declarations?_addDeclarations a ds)

variable {a c} in
/-- It is read there for good. -/
theorem Holds.extend {a' : Arena} {h : Handle} (holds : a.Holds c h) (grown : a.Extends a') :
    a'.Holds c h := by
  cases holds with
  | node e => exact .node (grown.node e)
  | statements e => exact .statements (grown.statements e)
  | declarations e => exact .declarations (grown.declarations e)

/-- Under each handle stands what was added with it. -/
theorem holds_answers : List.Forall₂ (a.answers calls).2.Holds calls (a.answers calls).1 := by
  induction calls generalizing a with
  | nil => exact .nil
  | cons c calls ih =>
      apply List.Forall₂.cons
      · exact (holds_answer a c).extend (extends_answers _ calls)
      · exact ih _

/-! ### Handles side by side

In each table a handle covers what its call has appended, and nothing else is ever appended. So the
spans of a table follow one another. -/

theorem entries_answer : (a.answer c).2.entries c.table = a.entries c.table + c.added := by
  cases c <;>
    simp [answer, Call.table, Call.added, entries, addNode, addStatements, addDeclarations]

/-- A call appends what its handle covers to one table, and nothing to the others. -/
theorem answer_span? : ((a.answer c).1.span? t).elim ((a.answer c).2.entries t = a.entries t)
    fun span => span.start = a.entries t ∧
      (a.answer c).2.entries t = a.entries t + span.length := by
  cases c <;> cases t <;>
    simp [answer, Handle.span?, entries, addNode, addStatements, addDeclarations]

/-- **The handles of a table lie side by side** in what the calls have appended to it. -/
theorem tiles_answers : Span.Tiles (a.entries t) ((a.answers calls).1.filterMap (Handle.span? t))
    ((a.answers calls).2.entries t) := by
  -- By induction on the calls, from the first on: its handle is the first of its table, or is none
  -- of it.
  induction calls generalizing a with
  | nil => exact .nil _
  | cons c calls ih =>
      have rest := ih (a.answer c).2
      have grown := answer_span? a c t
      simp only [answers]
      cases covered : (a.answer c).1.span? t with
      | none =>
          rw [covered] at grown
          rw [List.filterMap_cons_none covered]
          -- The call was about another table, which stays as it was.
          rwa [grown] at rest
      | some span =>
          rw [covered] at grown
          obtain ⟨start, size⟩ := grown
          rw [List.filterMap_cons_some covered]
          rw [size] at rest
          rw [← start] at rest ⊢
          exact .cons rest

/-- The handles of nodes as handles of one entry each. -/
theorem filterMap_span?_nodes (hs : List Handle) :
    hs.filterMap (Handle.span? .nodes) =
      (hs.filterMap Handle.node?).map fun id => ⟨id.index, 1⟩ := by
  rw [List.map_filterMap]
  congr 1
  funext h
  cases h <;> rfl

/-- Nodes are numbered from the size that the arena had before, without gaps. -/
theorem node?_answers : (a.answers calls).1.filterMap Handle.node? =
    (List.range' a.size ((a.answers calls).1.filterMap Handle.node?).length).map NodeId.mk := by
  have tiles := tiles_answers a calls .nodes
  rw [filterMap_span?_nodes] at tiles
  have single : ∀ span ∈ ((a.answers calls).1.filterMap Handle.node?).map fun id =>
      (⟨id.index, 1⟩ : Span), span.length = 1 := by
    intro span member
    obtain ⟨id, -, rfl⟩ := List.mem_map.mp member
    rfl
  -- A node covers one entry, so its index is where its span starts.
  have starts := tiles.start_eq single
  rw [List.map_map, List.length_map] at starts
  show _ = List.map _ (List.range' (a.entries .nodes) _)
  rw [← starts, List.map_map]
  exact (List.map_id _).symm

/-! ### Counting with 32 bits

The counted arena finds out the length of a span from two counts. Counting fails only for a table
that is full, and then says so; a difference below zero would be a fault of its own, which does not
occur. -/

inductive Fault where
  | full (t : Table)
  /-- A difference is below zero. -/
  | negative
  deriving DecidableEq

def Table.name : Table → String
  | .nodes => "expression"
  | .statements => "statement list"
  | .declarations => "binding"

def Fault.message : Fault → String
  | .full t => "arena " ++ t.name ++ " table exceeded u32::MAX entries"
  | .negative => "attempt to subtract with overflow"

/-- A number of entries with 32 bits. -/
def count (t : Table) (n : Nat) : Except Fault UInt32 :=
  if n < UInt32.size then .ok (.ofNat n) else .error (.full t)

def difference (m n : UInt32) : Except Fault UInt32 :=
  if n ≤ m then .ok (m - n) else .error .negative

/-- The span from the count before a call to the count after it. -/
def between (t : Table) (before after : Nat) : Except Fault Span := do
  let start ← count t before
  let stop ← count t after
  let length ← difference stop start
  return ⟨start.toNat, length.toNat⟩

/-- Answers a call with what it has counted. A node is counted before it is added. -/
def counted (a : Arena) : Call → Except Fault (Handle × Arena)
  | .node n => do
      let index ← count .nodes a.nodes.size
      return (.node ⟨index.toNat⟩, (a.addNode n).2)
  | .statements ids => do
      let grown := (a.addStatements ids).2
      let span ← between .statements a.statementLists.size grown.statementLists.size
      return (.statements span, grown)
  | .declarations ds => do
      let grown := (a.addDeclarations ds).2
      let span ← between .declarations a.declarations.size grown.declarations.size
      return (.declarations span, grown)

def countedAll (a : Arena) : List Call → Except Fault (List Handle × Arena)
  | [] => .ok ([], a)
  | c :: cs => do
      let (h, a) ← a.counted c
      let (hs, a) ← a.countedAll cs
      return (h :: hs, a)

/-- How many entries a table may have. The index of a node is counted, not their number. -/
def Table.limit : Table → Nat
  | .nodes => UInt32.size
  | .statements | .declarations => UInt32.size - 1

/-- The table of a call may have the entries that the call adds to it. -/
def Fits : Prop := a.entries c.table + c.added ≤ c.table.limit

instance : Decidable (a.Fits c) := inferInstanceAs (Decidable (_ ≤ _))

/-- **Lengths are never negative**: a count after a call is at least the count before it. -/
theorem between_eq (before added : Nat) : between t before (before + added) =
    if before + added < UInt32.size then .ok ⟨before, added⟩ else .error (.full t) := by
  unfold between count
  by_cases fits : before + added < UInt32.size
  · have start : before < UInt32.size := by omega
    have stop : (UInt32.ofNat (before + added)).toNat = before + added :=
      UInt32.toNat_ofNat_of_lt' fits
    have start' : (UInt32.ofNat before).toNat = before := UInt32.toNat_ofNat_of_lt' start
    have ordered : UInt32.ofNat before ≤ UInt32.ofNat (before + added) := by
      -- The count after the call is not below the count before it.
      rw [UInt32.le_iff_toNat_le, start', stop]
      omega
    have length := UInt32.toNat_sub_of_le _ _ ordered
    rw [start', stop, Nat.add_sub_cancel_left] at length
    rw [if_pos fits, if_pos start, if_pos fits]
    simp only [difference, if_pos ordered, bind, Except.bind, pure, Except.pure, start', length]
  · -- where the count after the call does not fit, it does not matter whether the one before did
    rw [if_neg fits, if_neg fits]
    split <;> rfl

example : (between .statements 2 UInt32.size).mapError Fault.message =
    .error "arena statement list table exceeded u32::MAX entries" := by rfl

/-- A handle made of what is between two counts. -/
theorem bind_between (h : Span → Handle) (a : Arena) (before added : Nat) :
    (do return (h (← between t before (before + added)), a) : Except Fault (Handle × Arena)) =
      if before + added ≤ UInt32.size - 1 then .ok (h ⟨before, added⟩, a)
      else .error (.full t) := by
  rw [between_eq, if_congr (Nat.le_sub_one_iff_lt (by decide)) rfl rfl]
  split <;> rfl

/-- **A counted call answers the same**, if its table may have that many entries. -/
theorem counted_eq :
    a.counted c = if a.Fits c then .ok (a.answer c) else .error (.full c.table) := by
  have grown := entries_answer a c
  cases c with
  | node n =>
      have fits : a.Fits (.node n) ↔ a.nodes.size < UInt32.size := Nat.succ_le_iff
      rw [if_congr fits rfl rfl, counted, count]
      split
      · next room =>
        have index := UInt32.toNat_ofNat_of_lt' room
        simp only [bind, Except.bind, pure, Except.pure, index]
        rfl
      · rfl
  | statements ids =>
      change (a.addStatements ids).2.statementLists.size =
        a.statementLists.size + ids.length at grown
      simp only [counted, grown]
      exact bind_between .statements .statements _ _ _
  | declarations ds =>
      change (a.addDeclarations ds).2.declarations.size =
        a.declarations.size + ds.length at grown
      simp only [counted, grown]
      exact bind_between .declarations .declarations _ _ _

/-- The table of the first call that does not fit. -/
def full? (a : Arena) : List Call → Option Table
  | [] => none
  | c :: cs => if a.Fits c then (a.answer c).2.full? cs else some c.table

/-- **Counted calls answer the same until a table is full.** -/
theorem countedAll_eq : a.countedAll calls =
    (a.full? calls).elim (.ok (a.answers calls)) fun t => .error (.full t) := by
  induction calls generalizing a with
  | nil => rfl
  | cons c calls ih =>
      rw [countedAll, counted_eq, full?]
      split
      · simp only [bind, Except.bind, ih]
        -- The calls after the first are counted from where it has left the arena.
        cases (a.answer c).2.full? calls <;> rfl
      · rfl

/-! ### All together -/

/-- What holders of handles rely on. -/
structure Stable (a : Arena) (calls : List Call) : Prop where
  /-- Under each handle stands what was added with it, whatever is added later. -/
  reads : ∀ later, List.Forall₂ (a.answers (calls ++ later)).2.Holds calls (a.answers calls).1
  /-- Nodes are numbered without gaps. -/
  numbered : (a.answers calls).1.filterMap Handle.node? =
    (List.range' a.size ((a.answers calls).1.filterMap Handle.node?).length).map NodeId.mk
  distinct : ((a.answers calls).1.filterMap Handle.node?).Nodup
  /-- No two handles share an entry of a table. -/
  apart : ∀ t, ((a.answers calls).1.filterMap (Handle.span? t)).Pairwise fun span span' =>
    ∀ i, ¬(span.Covers i ∧ span'.Covers i)
  /-- With 32 bits the handles are the same, unless a table has more entries than can be counted. -/
  counted : a.countedAll calls =
    (a.full? calls).elim (.ok (a.answers calls)) fun t => .error (.full t)

/-- **Handles are stable.** Whatever is added to an arena, and in whatever order, each handle stands
for what was added with it, then and after all further calls. Nodes get the next indices in their
order, and no two handles share an entry of a table. Counted with 32 bits the handles are the same
until a table is full, and no length is below zero. -/
theorem handles_are_stable : Stable a calls where
  reads later := by
    rw [answers_append]
    have grown := extends_answers (a.answers calls).2 later
    exact (holds_answers a calls).imp fun _ _ holds => holds.extend grown
  numbered := node?_answers a calls
  distinct := by
    rw [node?_answers]
    apply List.Nodup.map _ (List.nodup_range' ..)
    exact fun _ _ => NodeId.mk.inj
  apart t := (tiles_answers a calls t).pairwise
  counted := countedAll_eq a calls

/-- Spans of one table, with a node added in between. -/
example :
    (empty.countedAll [.statements [⟨0⟩, ⟨1⟩], .node (.number 1), .statements [⟨2⟩]]).map Prod.fst =
      .ok [.statements ⟨0, 2⟩, .node ⟨0⟩, .statements ⟨2, 1⟩] := by rfl

end Arena

end LexCell
