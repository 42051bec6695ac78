import LexCell.Proofs.Machine.InRange
import Mathlib.Order.Basic

/-!
# Cells that nobody writes to

Where nothing is assigned to (`Arena.Constant`) a cell keeps its first value. That value was there
before the cell was, so a function in a cell sees older cells only (`Heap.Layered`), and going from
cell to cell through functions comes to an end.

Both are read off what one step does to the heap (`Context.Step.heap_cases`): it leaves it as it is,
adds a cell, or makes a write that was waiting; and here none ever waits (`Discipline.constant`).
-/

namespace LexCell

def Arena.Constant (a : Arena) : Prop := ∀ id x v, a.node? id ≠ some (.assign x v)

/-! ### Heaps that keep their cells

Heaps are ordered by what they keep: the later one has the cells of the earlier one, with the same
values. Without assignments, running only ever goes up in this order. -/

/-- The later heap has all the cells of the earlier one, and they hold what they held. -/
instance : Preorder Heap where
  le h h' := ∀ s v, h.get? s = some v → h'.get? s = some v
  le_refl _ _ _ hv := hv
  le_trans _ _ _ hle hle' s v hv := hle' s v (hle s v hv)

/-- Functions in cells see older cells only. -/
def Heap.Layered (h : Heap) : Prop := ∀ s c, h.get? s = some (.function c) → c.env.Below s.index

namespace Heap

/-- A new cell is added behind the others. -/
theorem le_alloc (h : Heap) (v : Value) : h ≤ (h.alloc v).2 := by
  intro s w hw
  have old : s.index < h.size := (Array.getElem?_eq_some_iff.mp hw).1
  rw [get?_alloc, if_neg (Nat.ne_of_lt old)]
  exact hw

/-- A new cell is younger than all that its value knows. -/
theorem Layered.alloc {h : Heap} (layered : h.Layered) {v : Value}
    (hv : ∀ c, v = .function c → c.env.Below h.size) : (h.alloc v).2.Layered := by
  intro s c hc
  rw [get?_alloc] at hc
  -- The new cell knows what was there before it; for the others nothing changes.
  split at hc
  · next new =>
    rw [new]
    exact hv c (Option.some.inj hc)
  · exact layered s c hc

end Heap

/-! ### What a step does to the heap

Of all moves three touch the heap. Two of them add a cell for a new variable, the third is an
assignment. -/

/-- A step leaves the heap as it is, adds a cell for the value that has come out, or makes the write
that waited for it. -/
theorem Context.Step.heap_cases {ctx : Context} {m m' : Moment} {b : Option Birth}
    (hs : ctx.Step m b m') :
    m'.heap = m.heap ∨
      (∃ v, m.focus = .outcome (.ok v) ∧ m'.heap = (m.heap.alloc v).2) ∨
      ∃ id x s v, .assigned id x s ∈ m.pending ∧ m.heap.set? s v = some m'.heap := by
  cases hs with
  | argument | declared => exact .inr (.inl ⟨_, rfl, rfl⟩)
  | assigned written => exact .inr (.inr ⟨_, _, _, _, List.mem_cons_self, written⟩)
  | _ => exact .inl rfl

/-- **No move takes a cell away.** -/
theorem Context.Reaches.size_le {ctx : Context} {m m' : Moment} (h : ctx.Reaches m m') :
    m.heap.size ≤ m'.heap.size := by
  induction h with
  | refl => exact Nat.le_refl _
  | tail _ hm ih => -- by cases on what the last move did to the heap
      rcases (next_step hm).heap_cases with same | ⟨v, -, grown⟩ | ⟨_, _, _, _, -, written⟩
      · rw [same]
        exact ih
      · rw [grown, Heap.size_alloc]
        exact Nat.le_succ_of_le ih
      · rw [Heap.size_of_set? written]
        exact ih

def Environment.Born (births : List Birth) (env : Environment) : Prop := env.Below births.length

namespace Environment.Born

variable {births : List Birth} {env : Environment}

/-- What was born before was also born by now. -/
theorem grow (h : env.Born births) (birth : Birth) : env.Born (births ++ [birth]) := by
  unfold Born
  rw [List.length_append]
  exact Below.succ h

/-- A new variable stands for the cell that was born last. -/
theorem bind (h : env.Born births) (birth : Birth) :
    (env.bind birth.name ⟨births.length⟩).Born (births ++ [birth]) := by
  unfold Born
  rw [List.length_append]
  exact Below.bind h birth.name

end Environment.Born

/-- Environments know cells that were born only, and no cell is assigned to. -/
def Discipline.constant (ctx : Context) (constant : ctx.arena.Constant) : Discipline ctx where
  admits births _ env := env.Born births
  environment births env := env.Born births
  closure births c := c.env.Born births
  -- Nothing may be assigned to, so no write waits, which is all that the discipline is for.
  target _ _ _ := False
  follows _ _ := True
  admits_grow h := h.grow _
  environment_grow h := h.grow _
  closure_grow h := h.grow _
  target_grow h := h
  environment_of_admits h := h
  environment_of_closure h := h
  operand h _ _ := h
  bind h _ _ := h
  block h _ _ := h
  function h _ := h
  -- The arena has no such node.
  assign _ hn _ := constant _ _ _ hn
  init h := h
  declared h := h.bind (.declaration _ _ _)
  statement h := h
  rest h _ _ := h
  rest_of_bind _ _ := trivial
  declared_all h _ := h
  call h := h.bind (.argument _)

namespace Moment.Obeys

variable {ctx : Context} {constant : ctx.arena.Constant} {births born : List Birth} {m m' : Moment}

/-- Without assignments a step can only add a cell, for a value that is there. -/
theorem heap_cases (h : m.Obeys (.constant ctx constant) births) (hm : ctx.next m = some m') :
    m'.heap = m.heap ∨ ∃ v ∈ m.values, m'.heap = (m.heap.alloc v).2 := by
  rcases (Context.next_step hm).heap_cases with same | ⟨v, hv, grown⟩ | ⟨id, x, s, v, waits, -⟩
  · exact .inl same
  · refine .inr ⟨v, ?_, grown⟩
    unfold Moment.values
    rw [hv]
    exact List.mem_cons_self
  · -- a write that waits has a target, and there are none
    exact absurd (h.target waits) not_false

/-- **Cells keep what they hold.** -/
theorem heap_le (h : m.Obeys (.constant ctx constant) births) (hr : ctx.Run m born m') :
    m.heap ≤ m'.heap := by
  -- On the moves, adding one at the end.
  induction hr with
  | refl => exact le_rfl
  | move hr hm ih =>
      rcases (h.run hr).heap_cases hm with same | ⟨v, -, grown⟩
      · rw [same]
        exact ih
      · rw [grown]
        exact ih.trans (Heap.le_alloc _ v)

/-- **Functions in cells see older cells only.** -/
theorem layered (h : m.Obeys (.constant ctx constant) births) (start : m.heap.Layered)
    (hr : ctx.Run m born m') : m'.heap.Layered := by
  induction hr with
  | refl => exact start
  | move hr hm ih =>
      have obeys := h.run hr
      rcases obeys.heap_cases hm with same | ⟨v, hv, grown⟩
      · rw [same]
        exact ih
      · rw [grown]
        refine ih.alloc ?_
        rintro c rfl
        -- The new cell is as old as the births are many, and what comes out knows born cells only.
        rw [obeys.size]
        exact obeys.value hv

end Moment.Obeys

/-- A list of statements begins well in a fresh frame. -/
theorem Frame.initial_obeys {ctx : Context} (constant : ctx.arena.Constant) (ids : List NodeId) :
    (Frame.initial.start ids).Obeys (.constant ctx constant) [] :=
  Frame.start_obeys Environment.Below.empty nofun rfl

end LexCell
