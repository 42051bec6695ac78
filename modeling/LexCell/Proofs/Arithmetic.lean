import LexCell.Proofs.Arena.ReadBack
import LexCell.Proofs.Unbounded
import Mathlib.Data.Int.ModEq

/-!
# Arithmetic

Evaluation wraps after every operation. It could as well have gone on with integers of any size and
wrapped once, at the end: `Int64.ofInt` takes sums, differences and products of integers to those of
words, so what is carried up the tree (`Tree.integer?`) is the exact value, and the word that
belongs to it. Which word that is, is said without wrapping (`Int64.Wraps`): the only one that is
congruent.

Comparisons do not commute with wrapping. They look at the wrapped operands.
-/

/-- The word is the only one that is congruent to the integer. -/
def Int64.Wraps (w : Int64) (x : Int) : Prop :=
  ∀ w' : Int64, w'.toInt ≡ x [ZMOD 2 ^ 64] ↔ w' = w

/-- Wrapping gives a congruent word, and there is only one. -/
theorem Int64.ofInt_wraps (x : Int) : (Int64.ofInt x).Wraps x := by
  intro w
  constructor
  · intro congruent
    rw [← Int64.ofInt_toInt w, ← Int64.toInt_inj, Int64.toInt_ofInt, Int64.toInt_ofInt]
    -- Congruent integers wrap to the same word.
    rw [← Int.emod_bmod, ← Int.emod_bmod x]
    exact congrArg (Int.bmod · Int64.size) congruent
  · intro same
    rw [same, Int64.toInt_ofInt]
    exact Int.bmod_emod

namespace LexCell

namespace BinaryOp

def onIntegers? : BinaryOp → Option (Int → Int → Int)
  | add => some (· + ·)
  | sub => some (· - ·)
  | mul => some (· * ·)
  | _ => none

/-- What the operator asks of two integers, if it is a comparison. -/
def compares? : BinaryOp → Option (Int → Int → Bool)
  | eq => some (· == ·)
  | ne => some (· != ·)
  | lt => some (· < ·)
  | le => some (· ≤ ·)
  | gt => some (· > ·)
  | ge => some (· ≥ ·)
  | _ => none

variable {op : BinaryOp}

/-- Wrapping goes over from the operands to the result. -/
theorem applyNumbers_ofInt {f : Int → Int → Int} (h : op.onIntegers? = some f) (x y : Int) :
    op.applyNumbers (.ofInt x) (.ofInt y) = .ok (.number (.ofInt (f x y))) := by
  cases op with
  | add =>
      cases h
      rw [Int64.ofInt_add]
      rfl
  | sub =>
      cases h
      rw [Int64.ofInt_sub]
      rfl
  | mul =>
      cases h
      rw [Int64.ofInt_mul]
      rfl
  | _ => cases h

/-- Words are compared as the integers that they stand for, signs included. -/
theorem applyNumbers_compares {rel : Int → Int → Bool} (h : op.compares? = some rel)
    (a b : Int64) : op.applyNumbers a b = .ok (.boolean (rel a.toInt b.toInt)) := by
  cases op with
  | eq =>
      cases h
      simp [applyNumbers, ← Int64.toInt_inj]
  | ne =>
      cases h
      simp [applyNumbers, bne, ← Int64.toInt_inj]
  | lt =>
      cases h
      simp [applyNumbers, Int64.lt_iff_toInt_lt]
  | le =>
      cases h
      simp [applyNumbers, Int64.le_iff_toInt_le]
  | gt =>
      cases h
      simp [applyNumbers, Int64.lt_iff_toInt_lt]
  | ge =>
      cases h
      simp [applyNumbers, Int64.le_iff_toInt_le]
  | _ => cases h

end BinaryOp

/-- The value of a tree of numbers, sums, differences and products, where nothing wraps. -/
def Tree.integer? {ν : Type} : Tree ν → Option Int
  | .number n => some n.toInt
  | .binary op l r => do some ((← op.onIntegers?) (← integer? l) (← integer? r))
  | _ => none

/-- A tree with an exact value is a number, or an operator and two trees with exact values. -/
theorem Tree.integer?_binary {ν : Type} {op : BinaryOp} {l r : Tree ν} {z : Int}
    (h : (Tree.binary op l r).integer? = some z) :
    ∃ f x y, op.onIntegers? = some f ∧ l.integer? = some x ∧ r.integer? = some y ∧ f x y = z := by
  rw [integer?] at h
  obtain ⟨f, hf, h⟩ := Option.bind_eq_some_iff.mp h
  obtain ⟨x, hx, h⟩ := Option.bind_eq_some_iff.mp h
  obtain ⟨y, hy, h⟩ := Option.bind_eq_some_iff.mp h
  exact ⟨f, x, y, hf, hx, hy, Option.some.inj h⟩

/-! ### Evaluating them

By induction on the height of the tree. A sum, a difference or a product has words for operands that
are the exact values, wrapped; so has what comes out. -/

namespace Context

variable {ctx : Context}

/-- With that much fuel the expression has the value everywhere, and as a statement too. Neither the
heap nor what is visible is changed. -/
def Gives (ctx : Context) (fuel : Nat) (id : NodeId) (v : Value) : Prop :=
  (∀ env h, ctx.eval fuel id env h = some (.ok v, h)) ∧
    ∀ f, ctx.statement (ctx.eval fuel) id f = some (.ok v, f)

/-- A statement that declares nothing gives what the expression gives. -/
theorem gives_of_eval {fuel : Nat} {id : NodeId} {node : Node} {v : Value}
    (hn : ctx.arena.node? id = some node) (expression : ∀ span, node ≠ .bind span)
    (h : ∀ env h, ctx.eval fuel id env h = some (.ok v, h)) : ctx.Gives fuel id v := by
  refine ⟨h, ?_⟩
  intro f
  unfold statement
  rw [hn, Action.deref_some, Action.pure_bind]
  cases node with
  | bind span => exact absurd rfl (expression span)
  | _ => simp only [Frame.within, h]

/-- A number gives itself. -/
theorem gives_number {fuel : Nat} {id : NodeId} {n : Int64}
    (hn : ctx.arena.node? id = some (.number n)) : ctx.Gives (fuel + 1) id (.number n) := by
  apply gives_of_eval hn nofun
  intro env h
  show ctx.step (ctx.eval fuel) id env h = _
  unfold step
  rw [hn]
  rfl

/-- Two operands that are numbers, and an operator that does not fail on them. -/
theorem gives_binary {fuel : Nat} {id l r : NodeId} {op : BinaryOp} {a b : Int64} {v : Value}
    (hn : ctx.arena.node? id = some (.binary op l r)) (hl : ctx.Gives fuel l (.number a))
    (hr : ctx.Gives fuel r (.number b)) (applied : op.applyNumbers a b = .ok v) :
    ctx.Gives (fuel + 1) id v := by
  apply gives_of_eval hn nofun
  intro env h
  show ctx.step (ctx.eval fuel) id env h = _
  unfold step
  rw [hn, Action.deref_some, Action.pure_bind]
  dsimp only
  rw [Action.bind_apply, hl.1 env h]
  dsimp only
  rw [Action.bind_apply, hr.1 env h]
  show Action.ofExcept id (op.applyNumbers a b) h = _
  rw [applied]
  rfl

/-- As much fuel as the tree is high is enough. -/
theorem gives_ofInt {depth fuel : Nat} {id : NodeId} {t : Tree Name} {x : Int}
    (ht : ctx.arena.treeWithin? depth id = some t) (hx : t.integer? = some x)
    (enough : depth ≤ fuel) : ctx.Gives fuel id (.number (.ofInt x)) := by
  induction depth generalizing fuel id t x with
  | zero => cases ht
  | succ depth ih =>
      obtain ⟨fuel, rfl⟩ := Nat.exists_eq_succ_of_ne_zero (Nat.ne_zero_of_lt enough)
      obtain ⟨node, hn, layer⟩ := Arena.treeWithin?_succ_iff.mp ht
      cases layer with
      | number n =>
          cases hx
          rw [Int64.ofInt_toInt]
          exact gives_number hn
      | binary hl hr =>
          obtain ⟨f, x, y, hf, hl', hr', rfl⟩ := Tree.integer?_binary hx
          have left := ih hl hl' (Nat.le_of_succ_le_succ enough)
          have right := ih hr hr' (Nat.le_of_succ_le_succ enough)
          exact gives_binary hn left right (BinaryOp.applyNumbers_ofInt hf x y)
      -- No other tree has an exact value.
      | _ => cases hx

/-- **Wrapping once and wrapping everywhere are the same.** Whatever is visible and whatever the
heap holds, a tree of numbers, sums, differences and products is evaluated, with no change to
either, to the one word that is congruent to its exact value. A comparison of two such trees is
evaluated to how their words compare as integers with signs. As much fuel as the tree is high is
enough. -/
theorem wrapping_once (ctx : Context) :
    (∀ depth id t x, ctx.arena.treeWithin? depth id = some t → t.integer? = some x →
      ∃ w : Int64, w.Wraps x ∧ ∀ fuel, depth ≤ fuel → ctx.Gives fuel id (.number w)) ∧
    ∀ depth id op l r rel x y, ctx.arena.treeWithin? depth id = some (.binary op l r) →
      op.compares? = some rel → l.integer? = some x → r.integer? = some y →
      ∃ v w : Int64, v.Wraps x ∧ w.Wraps y ∧
        ∀ fuel, depth ≤ fuel → ctx.Gives fuel id (.boolean (rel v.toInt w.toInt)) := by
  constructor
  · intro depth id t x ht hx
    refine ⟨.ofInt x, Int64.ofInt_wraps x, ?_⟩
    intro fuel enough
    exact gives_ofInt ht hx enough
  · intro depth id op l r rel x y ht hrel hx hy
    refine ⟨.ofInt x, .ofInt y, Int64.ofInt_wraps x, Int64.ofInt_wraps y, ?_⟩
    intro fuel enough
    cases depth with
    | zero => cases ht
    | succ depth => -- the comparison itself takes one level
        obtain ⟨fuel, rfl⟩ := Nat.exists_eq_succ_of_ne_zero (Nat.ne_zero_of_lt enough)
        obtain ⟨node, hn, layer⟩ := Arena.treeWithin?_succ_iff.mp ht
        cases layer with
        | binary hl hr =>
            have left := gives_ofInt hl hx (Nat.le_of_succ_le_succ enough)
            have right := gives_ofInt hr hy (Nat.le_of_succ_le_succ enough)
            exact gives_binary hn left right (BinaryOp.applyNumbers_compares hrel _ _)

end Context

/-- The expression `(m + m) * 3 - 1 < 5` for the greatest word `m`. -/
def Arena.overflowing : Arena where
  nodes := #[.number Int64.maxValue, .binary .add ⟨0⟩ ⟨0⟩, .number 3, .binary .mul ⟨1⟩ ⟨2⟩,
    .number 1, .binary .sub ⟨3⟩ ⟨4⟩, .number 5, .binary .lt ⟨5⟩ ⟨6⟩]

/-- Its left operand, which as an integer is far greater than `5`. -/
def Tree.overflowing : Tree Name :=
  .binary .sub (.binary .mul (.binary .add (.number Int64.maxValue) (.number Int64.maxValue))
    (.number 3)) (.number 1)

/-- The sum, the product and the difference all leave the range of words. What is compared is `-7`,
so the comparison holds. -/
theorem Context.overflowing_wraps :
    (Arena.overflowing.treeWithin? 5 ⟨7⟩ = some (.binary .lt Tree.overflowing (.number 5)) ∧
      Tree.overflowing.integer? = some 55340232221128654841) ∧
    ∀ fuel, 5 ≤ fuel → Context.Gives ⟨Arena.overflowing, ⟨#[""]⟩⟩ fuel ⟨5⟩ (.number (-7)) ∧
      Context.Gives ⟨Arena.overflowing, ⟨#[""]⟩⟩ fuel ⟨7⟩ (.boolean true) := by
  have tree : Arena.overflowing.treeWithin? 5 ⟨7⟩ =
      some (.binary .lt Tree.overflowing (.number 5)) := rfl
  have left : Arena.overflowing.treeWithin? 4 ⟨5⟩ = some Tree.overflowing := rfl
  have value : Tree.overflowing.integer? = some 55340232221128654841 := by decide
  obtain ⟨arithmetic, comparison⟩ := wrapping_once ⟨Arena.overflowing, ⟨#[""]⟩⟩
  obtain ⟨w, hw, gives⟩ := arithmetic 4 ⟨5⟩ Tree.overflowing _ left value
  obtain ⟨v, v', hv, hv', compares⟩ :=
    comparison 5 ⟨7⟩ .lt Tree.overflowing (.number 5) _ _ 5 tree rfl value rfl
  obtain rfl := (hw (-7)).mp (by decide)
  obtain rfl := (hv (-7)).mp (by decide)
  obtain rfl := (hv' 5).mp (by decide)
  refine ⟨⟨tree, value⟩, ?_⟩
  intro fuel enough
  exact ⟨gives fuel (by omega), compares fuel enough⟩

end LexCell
