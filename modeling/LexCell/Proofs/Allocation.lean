import LexCell.Proofs.Machine.Adequacy

/-!
# What cells are made for

A cell is made when a declared name gets its first value, whether the name was visible before or
not, and when a function is applied to an argument. Both happen at a moment at which a value has
come out for something that waits (`Moment.declares`, `Moment.applies`), and at no other moment the
number of cells changes. So the cells of a run can be counted from the moments that it passes
(`Context.Passes`), without a look at the heap. Cells that were there keep their places; what they
hold is changed by assignments only (`Moment.written?`).

Each rule for a step is looked at once (`Context.Step.grows`), and the rest is putting one stretch
of moments after another (`Heap.Grows.trans`). It holds of every stretch, also of those that an
error ends, and of those that go on.
-/

namespace LexCell

/-! ### The moments that count -/

namespace Moment

def declares : Moment → Bool
  | ⟨.outcome (.ok _), .declared .. :: _, _⟩ => true
  | _ => false

def applies : Moment → Bool
  | ⟨.outcome (.ok _), .argument .. :: _, _⟩ => true
  | _ => false

/-- The value to be assigned to a cell has come out. -/
def written? (s : Slot) : Moment → Option Value
  | ⟨.outcome (.ok v), .assigned _ _ s' :: _, _⟩ => if s = s' then some v else none
  | _ => none

end Moment

/-- The moments account for what became of the heap: one more cell for each declaration and for each
application, and in a cell that was there the last value that was assigned to it, or else what it
held. -/
structure Heap.Grows (ms : List Moment) (h h' : Heap) : Prop where
  size : h'.size = h.size + ms.countP Moment.declares + ms.countP Moment.applies
  kept : ∀ s : Slot, s.index < h.size →
    h'.get? s = (ms.reverse.findSome? (Moment.written? s)).or (h.get? s)

namespace Heap.Grows

variable {m : Moment} {ms ms' : List Moment} {h h₁ h' : Heap}

theorem refl (h : Heap) : Grows [] h h := by
  constructor
  · rfl
  · intro s _
    rfl

/-- One stretch of moments after another. -/
theorem trans (first : Grows ms h h₁) (second : Grows ms' h₁ h') : Grows (ms ++ ms') h h' := by
  constructor
  · rw [second.size, first.size, List.countP_append, List.countP_append]
    omega
  · intro s hs
    have inside : s.index < h₁.size := by
      rw [first.size]
      omega
    rw [second.kept s inside, first.kept s hs, List.reverse_append, List.findSome?_append,
      Option.or_assoc]

/-- A moment that neither declares nor applies nor assigns leaves the heap as it is. -/
theorem quiet (declares : m.declares = false) (applies : m.applies = false)
    (written : ∀ s, m.written? s = none) : Grows [m] h h := by
  constructor
  · simp [declares, applies]
  · intro s _
    simp [written]

/-- A new cell changes no cell that is there. -/
theorem alloc {v : Value} (one : [m].countP Moment.declares + [m].countP Moment.applies = 1)
    (written : ∀ s, m.written? s = none) : Grows [m] h (h.alloc v).2 := by
  constructor
  · rw [size_alloc, Nat.add_assoc, one]
  · intro s hs
    rw [get?_alloc, if_neg (Nat.ne_of_lt hs)]
    simp [written]

end Heap.Grows

namespace Context

variable {ctx : Context}

/-- What one step does to the heap is told by the moment from which it starts. -/
theorem Step.grows {m m' : Moment} {b : Option Birth} (hs : ctx.Step m b m') :
    m.heap.Grows [m] m'.heap := by
  cases hs with
  -- The two rules that make a cell.
  | argument | declared =>
      apply Heap.Grows.alloc
      · rfl
      · intro _
        rfl
  -- The one rule that changes a cell.
  | @assigned v _ _ s _ _ _ set =>
      constructor
      · exact Heap.size_of_set? set
      · intro s' _
        rw [Heap.get?_of_set? set]
        simp only [List.reverse_singleton, List.findSome?_singleton, Moment.written?]
        split
        · rfl
        · rfl
  | @assigned_dangling v _ _ s _ h missing =>
      constructor
      · rfl
      · intro s' hs'
        -- The cell that is missing is none of those that are there.
        have other : s' ≠ s := by
          intro same
          obtain ⟨h', set⟩ := Heap.exists_set? (same ▸ hs') v
          rw [missing] at set
          cases set
        simp [Moment.written?, other]
  -- No other rule touches the heap.
  | _ => exact .quiet rfl rfl fun _ => rfl

/-! ### Stretches of a run

A stretch may start and stop anywhere. Where it ends at the end of the run it is the only one from
its start, and so its moments can be spoken of. -/

/-- The moments that are passed on the way from one moment to another, the first of them
included. -/
inductive Passes (ctx : Context) : Moment → List Moment → Moment → Prop where
  | refl (m : Moment) : Passes ctx m [] m
  | move {m m₁ m₂ : Moment} {ms : List Moment} :
      ctx.next m = some m₁ → Passes ctx m₁ ms m₂ → Passes ctx m (m :: ms) m₂

/-- **The moments of every stretch account for the heap.** -/
theorem Passes.grows {m m' : Moment} {ms : List Moment} (h : ctx.Passes m ms m') :
    m.heap.Grows ms m'.heap := by
  induction h with
  | refl m => exact .refl m.heap
  | move hm _ ih => exact (next_step hm).grows.trans ih

/-- The moments that so many moves pass. -/
def trail (ctx : Context) : Nat → Moment → List Moment
  | 0, _ => []
  | moves + 1, m =>
      match ctx.next m with
      | some m' => m :: trail ctx moves m'
      | none => []

/-- The trail of a number of moves is the way that they go. -/
theorem passes_of_after? {moves : Nat} {m m' : Moment} (h : ctx.after? moves m = some m') :
    ctx.Passes m (ctx.trail moves m) m' := by
  induction moves generalizing m with
  | zero =>
      cases h
      exact .refl m'
  | succ moves ih =>
      obtain ⟨m₁, hm, rest⟩ := Option.bind_eq_some_iff.mp h
      rw [trail, hm]
      exact .move hm (ih rest)

/-- Whatever is reached is reached through some moments. -/
theorem Reaches.passes {m m' : Moment} (h : ctx.Reaches m m') : ∃ ms, ctx.Passes m ms m' := by
  induction h using Relation.ReflTransGen.head_induction_on with
  | refl => exact ⟨[], .refl m'⟩
  | head hm _ ih =>
      obtain ⟨ms, passes⟩ := ih
      exact ⟨_, .move hm passes⟩

/-- There is one way to an end. -/
theorem Passes.unique {m m' : Moment} {ms ms' : List Moment} (last : ctx.next m' = none)
    (h : ctx.Passes m ms m') (h' : ctx.Passes m ms' m') : ms' = ms := by
  -- By induction on the first way; a move is the same on both, for next is a function.
  induction h generalizing ms' with
  | refl m =>
      cases h' with
      | refl => rfl
      | move hm _ =>
          rw [last] at hm
          cases hm
  | move hm _ ih =>
      cases h' with
      | refl =>
          rw [last] at hm
          cases hm
      | move hm' rest =>
          rw [hm] at hm'
          cases hm'
          exact congrArg _ (ih last rest)

/-- The moments from the one to the other are certain, and they account for what became of the
heap. -/
def Accounts (ctx : Context) (m m' : Moment) : Prop :=
  ∃ ms, (∀ ms', ctx.Passes m ms' m' ↔ ms' = ms) ∧ m.heap.Grows ms m'.heap

/-- A run that has ended accounts for its heap by the moments it has passed. -/
theorem Reaches.accounts {m m' : Moment} (h : ctx.Reaches m m') (last : ctx.next m' = none) :
    ctx.Accounts m m' := by
  obtain ⟨ms, passes⟩ := h.passes
  refine ⟨ms, ?_, passes.grows⟩
  intro ms'
  constructor
  · intro passes'
    exact passes.unique last passes'
  · intro same
    rw [same]
    exact passes

/-- A call runs the body after it has made a cell for the argument. -/
theorem reaches_of_call {n : Nat} {c : Closure} {v : Value} {h h' : Heap} {r : Except Stop Value}
    (e : c.call (ctx.eval n) v h = some (r, h')) (id : NodeId) (k : List Pending) :
    ctx.Reaches ⟨.outcome (.ok v), .argument id c :: k, h⟩ ⟨.outcome r, k, h'⟩ :=
  (reaches_of_eval (h := (h.alloc v).2) e k).head Step.argument.next_eq

/-- **Cells are made for declarations and for applications, one each.** Whatever stretch of a run is
looked at, there are as many more cells at its end as names got their first value and functions were
applied on the way; all that was there has kept its place, and holds the last value that was
assigned to it, or what it held. That is so for an expression, for a statement, for a list of
statements and for a call, whether they yield a value or stop. -/
theorem cells_are_counted (ctx : Context) :
    (∀ m ms m', ctx.Passes m ms m' → m.heap.Grows ms m'.heap) ∧
    (∀ fuel id env h r h', ctx.eval fuel id env h = some (r, h') →
      ctx.Accounts ⟨.expression id env, [], h⟩ ⟨.outcome r, [], h'⟩) ∧
    (∀ fuel id f r f', ctx.statement (ctx.eval fuel) id f = some (r, f') →
      ctx.Accounts ⟨.statement id f.env, [], f.heap⟩ (f'.finish r)) ∧
    (∀ fuel ids f r f', ctx.statements (ctx.eval fuel) .void ids f = some (r, f') →
      ctx.Accounts (f.start ids) (f'.finish r)) ∧
    ∀ fuel id c v h r h', c.call (ctx.eval fuel) v h = some (r, h') →
      ctx.Accounts ⟨.outcome (.ok v), [.argument id c], h⟩ ⟨.outcome r, [], h'⟩ := by
  refine ⟨?_, ?_, ?_, ?_, ?_⟩
  · intro m ms m' passes
    exact passes.grows
  · intro fuel id env h r h' answer
    exact (reaches_of_eval answer []).accounts rfl
  · intro fuel id f r f' answer
    exact (reaches_of_statement answer []).accounts rfl
  · intro fuel ids f r f' answer
    exact (reaches_finish_iff.mpr ⟨fuel, answer⟩).accounts rfl
  · intro fuel id c v h r h' answer
    exact (reaches_of_call answer id []).accounts rfl

end Context

/-- The statements `let f = x => x`, `let f = f(1)` and `f(1)` are the nodes `2`, `6` and `7`. -/
def Context.redeclaring : Context where
  arena := {
    nodes := #[.ident ⟨2⟩, .function ⟨2⟩ ⟨0⟩, .bind ⟨0, 1⟩, .ident ⟨1⟩, .number 1, .call ⟨3⟩ ⟨4⟩,
      .bind ⟨1, 1⟩, .call ⟨3⟩ ⟨4⟩]
    declarations := #[⟨⟨1⟩, ⟨1⟩⟩, ⟨⟨1⟩, ⟨5⟩⟩] }
  interner := ⟨#["", "f", "x"]⟩

def Frame.redeclared : Frame where
  env := .bind (.bind .empty ⟨1⟩ ⟨0⟩) ⟨1⟩ ⟨2⟩
  heap := ⟨#[.function ⟨.empty, ⟨2⟩, ⟨0⟩⟩, .number 1, .number 1]⟩

/-- What the second `let` declares is visible already, and has a cell of its own all the same. The
last call applies nothing, so it makes no cell: two of the three are for declarations, one is for
the argument of the first call. -/
theorem Context.redeclaring_is_counted :
    redeclaring.statements (redeclaring.eval 4) .void [⟨2⟩, ⟨6⟩, ⟨7⟩] Frame.initial =
        some (.error (.error ⟨.notCallable .number, some ⟨7⟩⟩), Frame.redeclared) ∧
      ∃ ms, ms.countP Moment.declares = 2 ∧ ms.countP Moment.applies = 1 ∧
        Heap.empty.Grows ms Frame.redeclared.heap ∧
        redeclaring.Passes (Frame.initial.start [⟨2⟩, ⟨6⟩, ⟨7⟩]) ms
          (Frame.redeclared.finish (.error (.error ⟨.notCallable .number, some ⟨7⟩⟩))) := by
  have answer : redeclaring.statements (redeclaring.eval 4) .void [⟨2⟩, ⟨6⟩, ⟨7⟩] Frame.initial =
      some (.error (.error ⟨.notCallable .number, some ⟨7⟩⟩), Frame.redeclared) := rfl
  obtain ⟨-, -, -, counted, -⟩ := cells_are_counted redeclaring
  obtain ⟨ms, way, grows⟩ := counted _ _ _ _ _ answer
  have passes : redeclaring.Passes (Frame.initial.start [⟨2⟩, ⟨6⟩, ⟨7⟩])
      (redeclaring.trail 26 (Frame.initial.start [⟨2⟩, ⟨6⟩, ⟨7⟩]))
      (Frame.redeclared.finish (.error (.error ⟨.notCallable .number, some ⟨7⟩⟩))) :=
    passes_of_after? rfl
  obtain rfl := (way _).mp passes
  exact ⟨answer, _, rfl, rfl, grows, passes⟩

end LexCell
