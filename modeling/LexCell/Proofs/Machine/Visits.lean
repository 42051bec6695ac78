import LexCell.Proofs.Arena.Postorder
import LexCell.Proofs.Machine.Rules
import Mathlib.Data.Set.Basic

/-!
# The nodes that a run visits

A move looks at one node at most, the one at which the work stands (`Focus.At`). So the nodes that a
run never comes to might as well be others: the run would be the same, moment for moment
(`reaches_iff_of_not_visits`). And a run comes to a node for a reason (`Visits.cause`): it is one of
the statements, it is a part of a node that is visited, or it is the body of a function that is
called. That a function is there is no reason to visit its body.
-/

namespace LexCell

/-! ### Visits

Arenas that differ in some nodes only have the same spans, so the runs over them differ at most from
the moment on at which such a node is looked at. -/

/-- The work stands at the node, as an expression or as a statement. -/
def Focus.At (id : NodeId) : Focus → Prop
  | .expression id' _ | .statement id' _ => id' = id
  | _ => False

def Context.Visits (ctx : Context) (m : Moment) (id : NodeId) : Prop :=
  ∃ m', ctx.Reaches m m' ∧ m'.focus.At id

structure Arena.SameOutside (U : Set NodeId) (a b : Arena) : Prop where
  size : b.size = a.size
  node : ∀ id ∉ U, b.node? id = a.node? id
  statementLists : b.statementLists = a.statementLists
  declarations : b.declarations = a.declarations

namespace Arena.SameOutside

variable {U : Set NodeId} {a b : Arena}

theorem statements? (h : a.SameOutside U b) (span : Span) :
    b.statements? span = a.statements? span := by
  unfold Arena.statements?
  rw [h.statementLists]

theorem declarations? (h : a.SameOutside U b) (span : Span) :
    b.declarations? span = a.declarations? span := by
  unfold Arena.declarations?
  rw [h.declarations]

end Arena.SameOutside

namespace Context

variable {U : Set NodeId} {a b : Arena} {t : Interner}

/-- Where the work stands at no node of the set, the next move is the same. -/
theorem next_eq_of_sameOutside (same : a.SameOutside U b) {m : Moment}
    (h : ∀ id ∈ U, ¬ m.focus.At id) : next ⟨b, t⟩ m = next ⟨a, t⟩ m := by
  obtain ⟨focus, k, heap⟩ := m
  -- Where the work stands, both arenas have the same node.
  have node {id : NodeId} (at_id : focus.At id) : b.node? id = a.node? id :=
    same.node id fun hid => h id hid at_id
  cases focus with
  | expression id env =>
      simp only [next, enter, node rfl, same.statements?, same.declarations?]
      rfl
  | statement id env =>
      simp only [next, perform, node rfl, same.declarations?]
  | statements ids => cases ids <;> rfl
  | declarations _ _ ds => cases ds <;> rfl
  | _ => rfl

/-- **Nodes that are not visited may be any.** The moments of the run are the same. -/
theorem reaches_iff_of_not_visits (same : a.SameOutside U b) {m : Moment}
    (h : ∀ id ∈ U, ¬ Visits ⟨a, t⟩ m id) {m' : Moment} :
    Reaches ⟨b, t⟩ m m' ↔ Reaches ⟨a, t⟩ m m' := by
  have next_eq {m₁ : Moment} (hr : Reaches ⟨a, t⟩ m m₁) : next ⟨b, t⟩ m₁ = next ⟨a, t⟩ m₁ :=
    next_eq_of_sameOutside same fun id hid at_id => h id hid ⟨m₁, hr, at_id⟩
  -- In both directions the moments come from the run over the first arena, of which it is known
  -- what it visits.
  constructor
  · intro hr
    induction hr with
    | refl => exact .refl
    | tail _ hm ih => exact ih.tail ((next_eq ih).symm.trans hm)
  · intro hr
    induction hr with
    | refl => exact .refl
    | tail hr hm ih => exact ih.tail ((next_eq hr).trans hm)

end Context

/-! ### Reasons to visit a node

At any moment some nodes are in line to be visited. A move adds to the line only what the node of
the moment has as its parts, or the body of a function that it calls. -/

/-- The nodes that the work in progress will come to, if nothing stops it. -/
def Focus.line : Focus → List NodeId
  | .expression id _ | .statement id _ => [id]
  | .statements ids _ _ => ids
  | .declarations _ _ ds _ => ds.map Declaration.init
  | .outcome _ | .ended .. => []

/-- The nodes that may be evaluated once the value is there. -/
def Pending.line : Pending → List NodeId
  | .left _ _ r _ | .guard _ _ r _ => [r]
  | .test _ c a _ => [c, a]
  | .callee _ a _ => [a]
  | .declared _ _ _ rest _ => rest.map Declaration.init
  | .sequence rest => rest
  | _ => []

/-- All nodes that are in line at a moment. -/
def Moment.line (m : Moment) : List NodeId := m.focus.line ++ m.pending.flatMap Pending.line

/-- The node is a part of the other that is evaluated with it; the body of a function is not. -/
def Arena.PartOf (a : Arena) (x y : NodeId) : Prop :=
  ∃ n kids, a.node? y = some n ∧ (∀ p body, n ≠ .function p body) ∧ n.children? a = some kids ∧
    x ∈ kids

namespace Context

variable {ctx : Context}

/-- Where the work stands is in line. -/
theorem mem_line_of_at {m : Moment} {id : NodeId} (h : m.focus.At id) : id ∈ m.line := by
  obtain ⟨focus, k, heap⟩ := m
  cases focus with
  | expression | statement =>
      cases h
      exact List.mem_cons_self
  | _ => cases h

/-- A step puts a node in line only as a part of the node at which the work stands, or as the body
of the function that it calls. -/
theorem Step.line {m m' : Moment} {b : Option Birth} (hs : ctx.Step m b m') {x : NodeId}
    (hx : x ∈ m'.line) :
    x ∈ m.line ∨ (∃ y, m.focus.At y ∧ ctx.arena.PartOf x y) ∨
      ∃ c, b = some (.argument c) ∧ c.body = x := by
  have part {y : NodeId} {n : Node} {kids : List NodeId} (hn : ctx.arena.node? y = some n)
      (no_body : ∀ p body, n ≠ .function p body) (hk : n.children? ctx.arena = some kids)
      (hx : x ∈ kids) : ctx.arena.PartOf x y := ⟨n, kids, hn, no_body, hk, hx⟩
  -- In each case the new line is the old one with parts in front, or a piece of it.
  cases hs with
  -- These put parts of the node in front of what is in line.
  | unary hn | binary hn | logical hn | conditional hn | call hn | assign hn _ =>
      have part := part hn nofun rfl
      simp only [Moment.line, Focus.line, Pending.line, List.flatMap_cons, Focus.At] at hx ⊢
      grind
  | bind hn hd | statement_bind hn hd =>
      have part := part hn nofun (Option.map_eq_some_iff.mpr ⟨_, hd, rfl⟩)
      simp only [Moment.line, Focus.line, Pending.line, List.flatMap_cons, Focus.At] at hx ⊢
      grind
  | block hn hd =>
      have part := part hn nofun hd
      simp only [Moment.line, Focus.line, Pending.line, List.flatMap_cons, Focus.At] at hx ⊢
      grind
  | @argument _ _ c =>
      simp only [Moment.line, Focus.line, Pending.line, List.flatMap_cons] at hx ⊢
      rcases List.mem_append.mp hx with hx | hx
      · exact .inr (.inr ⟨c, rfl, (List.mem_singleton.mp hx).symm⟩)
      · exact .inl hx
  -- These only take from the front.
  | _ =>
      simp only [Moment.line, Focus.line, Pending.line, List.flatMap_cons] at hx ⊢
      grind

/-- **A node is visited for a reason**: it was in line from the start, it is a part of a node that
is visited, or it is the body of a function that is called. -/
theorem Visits.cause {m : Moment} {x : NodeId} (h : ctx.Visits m x) :
    x ∈ m.line ∨ (∃ y, ctx.Visits m y ∧ ctx.arena.PartOf x y) ∨
      ∃ m' c, ctx.Reaches m m' ∧ m'.birth? = some (.argument c) ∧ c.body = x := by
  obtain ⟨m', hr, at_x⟩ := h
  have hx := mem_line_of_at at_x
  clear at_x
  -- Backwards to the moment at which the node got in line.
  induction hr with
  | refl => exact .inl hx
  | @tail m₁ _ hr hm ih =>
      rcases (next_step hm).line hx with hx | ⟨y, at_y, part⟩ | ⟨c, born, body⟩
      · exact ih hx
      · exact .inr (.inl ⟨y, ⟨m₁, hr, at_y⟩, part⟩)
      · exact .inr (.inr ⟨m₁, c, hr, born, body⟩)

end Context

end LexCell
