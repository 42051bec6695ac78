import LexCell.Proofs.Lockstep
import LexCell.Proofs.Machine.Discipline
import Mathlib.Order.Nat

/-!
# Evaluation is local

What an expression can get at are the cells that its environment reaches, directly or through the
functions that lie in them (`Environment.Reaches`), and the cells that are born on the way. So it
leaves all other cells alone, and it cannot tell apart two heaps that agree on these.

Which cells are reached changes during a run, since a function may be assigned to a cell. The cells
that a run keeps to do not (`Slot.Near`): they are those that were reached at the start, and the new
ones. In lockstep with itself on two heaps a run keeps the heaps equal there (`Locality.Twins`); how
far a run has come is how many cells there are.
-/

namespace LexCell

/-! ### Reaching cells

Reaching is a property of one moment. It is not an invariant: an assignment may put a function into
a cell that is reached, and with it more cells. -/

/-- The cells for which names stand, and those that are found through the functions in them. -/
inductive Environment.Reaches (env : Environment) (h : Heap) : Slot → Prop where
  | own {x : Name} {s : Slot} : env.resolve x = some s → Reaches env h s
  | through {s s' : Slot} {c : Closure} {x : Name} :
      Reaches env h s → h.get? s = some (.function c) → c.env.resolve x = some s' →
      Reaches env h s'

def Value.Reaches (v : Value) (h : Heap) (s : Slot) : Prop :=
  ∃ c, v = .function c ∧ c.env.Reaches h s

def Environment.Within (P : Slot → Prop) (env : Environment) : Prop :=
  ∀ x s, env.resolve x = some s → P s

def Value.Within (P : Slot → Prop) : Value → Prop
  | .function c => c.env.Within P
  | _ => True

theorem Environment.within_reaches (env : Environment) (h : Heap) : env.Within (env.Reaches h) :=
  fun _ _ hs => .own hs

/-- What a cell that is reached holds keeps to what is reached. -/
theorem Environment.Reaches.within {env : Environment} {h : Heap} {s : Slot} {v : Value}
    (hs : env.Reaches h s) (hv : h.get? s = some v) : v.Within (env.Reaches h) := by
  cases v with
  | function c => exact fun x s' hs' => .through hs hv hs'
  | _ => trivial

/-- Nothing is reached but what must be. -/
theorem Environment.Reaches.least {env : Environment} {h : Heap} {P : Slot → Prop} {s : Slot}
    (hs : env.Reaches h s) (start : env.Within P)
    (closed : ∀ s v, P s → h.get? s = some v → v.Within P) : P s := by
  -- On how the cell is reached.
  induction hs with
  | own hx => exact start _ _ hx
  | through _ hc hx ih => exact closed _ _ ih hc _ _ hx

/-! ### The cells that a run keeps to

For an invariant we fix a set of cells at the start that is closed under what is stored, and add the
cells that are born. All of this is monotone in the number of cells. -/

/-- One of the cells given, or one that was born while the heap grew from `lo` cells to `hi`. -/
def Slot.Near (P : Slot → Prop) (lo hi : Nat) (s : Slot) : Prop :=
  P s ∨ lo ≤ s.index ∧ s.index < hi

namespace Locality

variable {P : Slot → Prop} {lo n m : Nat}

/-- What is near stays so when cells are added. -/
theorem near_mono {s : Slot} (h : s.Near P lo n) (hle : n ≤ m) : s.Near P lo m :=
  h.imp_right fun ⟨old, new⟩ => ⟨old, new.trans_le hle⟩

theorem environment_mono {env : Environment} (h : env.Within (Slot.Near P lo n)) (hle : n ≤ m) :
    env.Within (Slot.Near P lo m) :=
  fun x s hs => near_mono (h x s hs) hle

theorem value_mono {v : Value} (h : v.Within (Slot.Near P lo n)) (hle : n ≤ m) :
    v.Within (Slot.Near P lo m) := by
  cases v with
  | function c => exact environment_mono h hle
  | _ => trivial

/-- A new cell is near. -/
theorem environment_bind {env : Environment} (h : env.Within (Slot.Near P lo n)) (hlo : lo ≤ n)
    (x : Name) : (env.bind x ⟨n⟩).Within (Slot.Near P lo (n + 1)) := by
  intro y s hs
  rw [Environment.resolve_bind] at hs
  split at hs
  · cases hs
    exact .inr ⟨hlo, Nat.lt_succ_self n⟩
  · exact near_mono (h y s hs) (Nat.le_succ n)

/-! ### Two heaps

The heaps agree near the cells given, so that the two runs see the same. The first is also compared
with the heap of the start, since the cells that are not near must stay as they were. -/

variable (P) (h₀ : Heap)

/-- Two heaps with `n` cells that agree near the cells given. What lies there keeps to them, and in
the first heap all else is as it was in `h₀`. -/
structure Twins (n : Nat) (h h' : Heap) : Prop where
  size : h.size = n
  size' : h'.size = n
  grown : h₀.size ≤ n
  agree : ∀ s, s.Near P h₀.size n → h'.get? s = h.get? s
  within : ∀ s v, s.Near P h₀.size n → h.get? s = some v → v.Within (Slot.Near P h₀.size n)
  outside : ∀ s, s.index < h₀.size → ¬ P s → h.get? s = h₀.get? s

/-- The same value on both sides, and it keeps to the cells near. -/
def Same (n : Nat) (v v' : Value) : Prop := v = v' ∧ v.Within (Slot.Near P h₀.size n)

structure FrameTwins (n : Nat) (f f' : Frame) : Prop where
  env : f'.env = f.env
  within : f.env.Within (Slot.Near P h₀.size n)
  heap : Twins P h₀ n f.heap f'.heap

variable {P} {h₀} {h h' : Heap}

namespace Twins

theorem alloc (t : Twins P h₀ n h h') {v : Value} (hv : v.Within (Slot.Near P h₀.size n)) :
    Twins P h₀ (n + 1) (h.alloc v).2 (h'.alloc v).2 := by
  obtain ⟨size, size', grown, agree, within, outside⟩ := t
  -- A near slot that is not the new one was near before.
  have old {s : Slot} (hs : s.Near P h₀.size (n + 1)) (hne : s.index ≠ n) :
      s.Near P h₀.size n :=
    hs.imp_right fun ⟨hlo, hlt⟩ => ⟨hlo, by omega⟩
  refine ⟨?_, ?_, by omega, ?_, ?_, ?_⟩
  · rw [Heap.size_alloc, size]
  · rw [Heap.size_alloc, size']
  · intro s hs
    rw [Heap.get?_alloc, Heap.get?_alloc, size, size']
    split
    · rfl
    · next hne => exact agree s (old hs hne)
  · intro s w hs hw
    rw [Heap.get?_alloc, size] at hw
    split at hw
    · cases hw
      exact value_mono hv (Nat.le_succ n)
    · next hne => exact value_mono (within s w (old hs hne) hw) (Nat.le_succ n)
  · intro s hlt hs
    rw [Heap.get?_alloc, if_neg (by omega)]
    exact outside s hlt hs

theorem set (t : Twins P h₀ n h h') {s : Slot} (hs : s.Near P h₀.size n) {v : Value}
    (hv : v.Within (Slot.Near P h₀.size n)) {h₁ h₁' : Heap} (e : h.set? s v = some h₁)
    (e' : h'.set? s v = some h₁') : Twins P h₀ n h₁ h₁' := by
  obtain ⟨size, size', grown, agree, within, outside⟩ := t
  refine ⟨?_, ?_, grown, ?_, ?_, ?_⟩
  · rw [Heap.size_of_set? e, size]
  · rw [Heap.size_of_set? e', size']
  · intro s' hs'
    rw [Heap.get?_of_set? e, Heap.get?_of_set? e', agree s' hs']
  -- The cell that is written holds what keeps to the cells near, and the others hold what they
  -- held.
  · intro s' w hs' hw
    rw [Heap.get?_of_set? e] at hw
    split at hw
    · cases hw
      exact hv
    · exact within s' w hs' hw
  · intro s' hlt hs'
    rw [Heap.get?_of_set? e, if_neg ?_]
    · exact outside s' hlt hs'
    -- The cell that is written is near, the other one is not.
    rintro rfl
    rcases hs with hs | ⟨hlo, -⟩
    · exact hs' hs
    · omega

/-- A new variable is the same on both sides, and its cell is near. -/
theorem extend (t : Twins P h₀ n h h') {env : Environment}
    (henv : env.Within (Slot.Near P h₀.size n)) (x : Name) {v : Value}
    (hv : v.Within (Slot.Near P h₀.size n)) :
    (env.extend x v h').1 = (env.extend x v h).1 ∧
      (env.extend x v h).1.Within (Slot.Near P h₀.size (n + 1)) ∧
      Twins P h₀ (n + 1) (env.extend x v h).2 (env.extend x v h').2 := by
  rw [Environment.extend_fst, Environment.extend_fst, t.size, t.size']
  exact ⟨rfl, environment_bind henv t.grown x, t.alloc hv⟩

end Twins

/-! ### Actions on two heaps

Single actions get slots that are near and values that keep to what is near, and give back such. -/

open LexCell.Action

/-- A cell that is near holds the same on both sides. -/
theorem fetch_lockstep {s : Slot} (hs : s.Near P h₀.size n) :
    Lockstep (Twins P h₀) (Same P h₀) n (Heap.fetch s) (Heap.fetch s) := by
  intro h h' t
  unfold Heap.fetch
  rw [t.agree s hs]
  cases hv : h.get? s with
  | none => exact .stop le_rfl t
  | some v => exact .ok le_rfl t ⟨rfl, t.within s v hs hv⟩

/-- A new variable has the same slot on both sides, since the heaps are of one size. -/
theorem extend_lockstep {env : Environment} (henv : env.Within (Slot.Near P h₀.size n)) (x : Name)
    {v : Value} (hv : v.Within (Slot.Near P h₀.size n)) :
    Lockstep (Twins P h₀) (fun m e e' => e = e' ∧ e.Within (Slot.Near P h₀.size m)) n
      (Heap.extend env x v) (Heap.extend env x v) := by
  intro h h' t
  obtain ⟨same, within, heap⟩ := t.extend henv x hv
  exact .ok (Nat.le_succ n) heap ⟨same.symm, within⟩

/-- A cell that is near is written on both sides. -/
theorem overwrite_lockstep {s : Slot} (hs : s.Near P h₀.size n) {v : Value}
    (hv : v.Within (Slot.Near P h₀.size n)) :
    Lockstep (Twins P h₀) (fun _ _ _ => True) n (Heap.overwrite s v) (Heap.overwrite s v) := by
  intro h h' t
  unfold Heap.overwrite
  -- Whether the cell is there depends on the size only.
  have same : (h'.set? s v).isSome = (h.set? s v).isSome := by
    have sizes : h'.cells.size = h.cells.size := t.size'.trans t.size.symm
    simp only [Heap.set?, sizes]
    split <;> rfl
  cases e : h.set? s v with
  | none =>
      rw [e, Option.isSome_none, Option.isSome_eq_false_iff, Option.isNone_iff_eq_none] at same
      rw [same]
      exact .stop le_rfl t
  | some h₁ =>
      rw [e, Option.isSome_some] at same
      obtain ⟨h₁', e'⟩ := Option.isSome_iff_exists.mp same
      rw [e']
      exact .ok le_rfl (t.set hs hv e e') trivial

/-- A value is a truth value or not, regardless of the heap. -/
theorem expectBoolean_lockstep (v : Value) (context : String) (id : NodeId) :
    Lockstep (Twins P h₀) (fun _ b b' => b = b') n (v.expectBoolean context id)
      (v.expectBoolean context id) := by
  cases v with
  | boolean b => exact .pure rfl
  | _ => exact .stop _

/-- Operators yield no functions. -/
theorem ofExcept_lockstep {x : Except EvalError.Cause Value} (id : NodeId)
    (hx : ∀ v, x = .ok v → ∀ c, v ≠ .function c) :
    Lockstep (Twins P h₀) (Same P h₀) n (Action.ofExcept id x) (Action.ofExcept id x) := by
  cases x with
  | error c => exact .stop _
  | ok v =>
      refine .pure ⟨rfl, ?_⟩
      cases v with
      | function c => exact absurd rfl (hx _ rfl c)
      | _ => trivial

/-! ### Frames

The frame of the two runs has one environment, which keeps to the cells near. -/

theorem declare_lockstep (x : Name) {v : Value} (hv : v.Within (Slot.Near P h₀.size n)) :
    Lockstep (FrameTwins P h₀) (fun _ _ _ => True) n (Frame.declare x v) (Frame.declare x v) := by
  rintro ⟨env, h⟩ ⟨env', h'⟩ ⟨rfl, within, heap⟩
  obtain ⟨same, within, heap⟩ := heap.extend within x hv
  exact .ok (Nat.le_succ n) ⟨same, within, heap⟩ trivial

theorem within_lockstep {act : Environment → Action Heap Value}
    (hact : ∀ env, env.Within (Slot.Near P h₀.size n) →
      Lockstep (Twins P h₀) (Same P h₀) n (act env) (act env)) :
    Lockstep (FrameTwins P h₀) (Same P h₀) n (Frame.within act) (Frame.within act) := by
  rintro ⟨env, h⟩ ⟨env', h'⟩ ⟨rfl, within, heap⟩
  have run := hact env' within h h' heap
  simp only [Frame.within]
  generalize act env' h = o at run
  generalize act env' h' = o' at run
  -- More cells may be near at the end, and the environment still keeps to them.
  cases run with
  | exhausted => exact .exhausted
  | stop hle t => exact .stop hle ⟨rfl, environment_mono within hle, t⟩
  | ok hle t hv => exact .ok hle ⟨rfl, environment_mono within hle, t⟩ hv

theorem enclosed_lockstep {act : Action Frame Value} {env : Environment}
    (within : env.Within (Slot.Near P h₀.size n))
    (hact : Lockstep (FrameTwins P h₀) (Same P h₀) n act act) :
    Lockstep (Twins P h₀) (Same P h₀) n (Frame.enclosed env act) (Frame.enclosed env act) := by
  intro h h' heap
  have run := hact ⟨env, h⟩ ⟨env, h'⟩ ⟨rfl, within, heap⟩
  simp only [Frame.enclosed]
  generalize act ⟨env, h⟩ = o at run
  generalize act ⟨env, h'⟩ = o' at run
  cases run with
  | exhausted => exact .exhausted
  | stop hle t => exact .stop hle t.heap
  | ok hle t hv => exact .ok hle t.heap hv

/-! ### The rules

In this section `evaluator` stands for the evaluation of the nodes below. -/

section Rules

variable {ctx : Context} {evaluator : Evaluator}
  (below : ∀ n id env, env.Within (Slot.Near P h₀.size n) →
    Lockstep (Twins P h₀) (Same P h₀) n (evaluator id env) (evaluator id env))

include below

theorem declareAll_lockstep (ds : List Declaration) (n : Nat) :
    Lockstep (FrameTwins P h₀) (Same P h₀) n (Frame.declareAll evaluator ds)
      (Frame.declareAll evaluator ds) := by
  induction ds generalizing n with
  | nil => exact .pure ⟨rfl, trivial⟩
  | cons d ds ih =>
      unfold Frame.declareAll
      refine Lockstep.bind (within_lockstep (below n d.init)) ?_
      rintro m v _ - ⟨rfl, hv⟩
      exact Lockstep.bind (declare_lockstep d.name hv) fun m _ _ _ _ => ih m

theorem statement_lockstep (id : NodeId) (n : Nat) :
    Lockstep (FrameTwins P h₀) (Same P h₀) n (ctx.statement evaluator id)
      (ctx.statement evaluator id) := by
  unfold Context.statement
  refine Lockstep.bind (Lockstep.deref _) ?_
  rintro m node _ - ⟨rfl, -⟩
  cases node with
  | bind span =>
      refine Lockstep.bind (Lockstep.deref _) ?_
      rintro m ds _ - ⟨rfl, -⟩
      exact declareAll_lockstep below ds m
  | _ => exact within_lockstep (below m id)

theorem statements_lockstep (ids : List NodeId) {last : Value} (n : Nat)
    (hlast : last.Within (Slot.Near P h₀.size n)) :
    Lockstep (FrameTwins P h₀) (Same P h₀) n (ctx.statements evaluator last ids)
      (ctx.statements evaluator last ids) := by
  induction ids generalizing last n with
  | nil => exact .pure ⟨rfl, hlast⟩
  | cons id ids ih =>
      unfold Context.statements
      refine Lockstep.bind (statement_lockstep below id n) ?_
      rintro m v _ - ⟨rfl, hv⟩
      exact ih m hv

/-- **One level of evaluation keeps the heaps twins**, if the level below does. -/
theorem step_lockstep (n : Nat) (id : NodeId) (env : Environment)
    (henv : env.Within (Slot.Near P h₀.size n)) :
    Lockstep (Twins P h₀) (Same P h₀) n (ctx.step evaluator id env)
      (ctx.step evaluator id env) := by
  unfold Context.step
  refine Lockstep.bind (Lockstep.deref _) ?_
  rintro n' node _ hle ⟨rfl, -⟩
  -- Reading the node added no cell.
  replace henv := environment_mono henv hle
  cases node with
  | number i => exact .pure ⟨rfl, trivial⟩
  | boolean b => exact .pure ⟨rfl, trivial⟩
  | unary op x =>
      refine Lockstep.bind (below n' x env henv) ?_
      rintro m v _ - ⟨rfl, -⟩
      exact ofExcept_lockstep id fun w hw => UnaryOp.apply_ne_function hw
  | binary op x y =>
      refine Lockstep.bind (below n' x env henv) ?_
      -- The first operand may have added cells, and the environment keeps to those near as before.
      rintro m a _ hm ⟨rfl, -⟩
      refine Lockstep.bind (below m y env (environment_mono henv hm)) ?_
      rintro m b _ - ⟨rfl, -⟩
      exact ofExcept_lockstep id fun w hw => BinaryOp.apply_ne_function hw
  | logical op x y =>
      refine Lockstep.bind (below n' x env henv) ?_
      rintro m v _ hm ⟨rfl, -⟩
      refine Lockstep.bind (expectBoolean_lockstep v _ id) ?_
      rintro m' a _ hm' rfl
      split
      · exact .pure ⟨rfl, trivial⟩
      · refine Lockstep.bind (below m' y env (environment_mono henv (hm.trans hm'))) ?_
        rintro m w _ - ⟨rfl, -⟩
        refine Lockstep.bind (expectBoolean_lockstep w _ id) ?_
        rintro m b _ - rfl
        exact .pure ⟨rfl, trivial⟩
  | conditional x y z =>
      refine Lockstep.bind (below n' x env henv) ?_
      rintro m v _ hm ⟨rfl, -⟩
      refine Lockstep.bind (expectBoolean_lockstep v _ id) ?_
      rintro m' b _ hm' rfl
      have henv := environment_mono henv (hm.trans hm')
      split
      · exact below m' y env henv
      · exact below m' z env henv
  | ident x =>
      dsimp only
      split
      · -- the slot of a name that is visible is near
        next s hs => exact fetch_lockstep (henv x s hs)
      · exact .stop _
  | bind span =>
      refine Lockstep.bind (Lockstep.deref _) ?_
      rintro m ds _ hm ⟨rfl, -⟩
      exact enclosed_lockstep (environment_mono henv hm) (declareAll_lockstep below ds m)
  | function param body => exact .pure ⟨rfl, henv⟩
  | call x y =>
      refine Lockstep.bind (below n' x env henv) ?_
      rintro m v _ hm ⟨rfl, hv⟩
      cases v with
      | function c =>
          refine Lockstep.bind (below m y env (environment_mono henv hm)) ?_
          rintro m' w _ hm' ⟨rfl, hw⟩
          -- The body sees what the function saw where it was made, and the argument.
          refine Lockstep.bind (extend_lockstep (environment_mono hv hm') c.param hw) ?_
          rintro k env' _ - ⟨rfl, within⟩
          exact below k c.body env' within
      | _ => exact .stop _
  | assign x y =>
      dsimp only
      split
      · next s hs =>
        refine Lockstep.bind (below n' y env henv) ?_
        rintro m v _ hm ⟨rfl, hv⟩
        refine Lockstep.bind (overwrite_lockstep (near_mono (henv x s hs) hm) hv) ?_
        rintro m _ _ - -
        exact .pure ⟨rfl, trivial⟩
      · exact .stop _
  | block span =>
      refine enclosed_lockstep henv ?_
      unfold Context.sequence
      refine Lockstep.bind (Lockstep.deref _) ?_
      rintro m ids _ - ⟨rfl, -⟩
      exact statements_lockstep below ids m trivial
  | malformed token => exact .stop _

end Rules

/-- **Evaluation keeps to the cells near.** -/
theorem eval_lockstep (ctx : Context) (fuel n : Nat) (id : NodeId) (env : Environment)
    (henv : env.Within (Slot.Near P h₀.size n)) :
    Lockstep (Twins P h₀) (Same P h₀) n (ctx.eval fuel id env) (ctx.eval fuel id env) := by
  -- The number of cells is not fixed: later parts of a rule start with more of them.
  induction fuel generalizing n id env with
  | zero => exact .exhausted
  | succ fuel ih => exact step_lockstep ih n id env henv

/-- At the start the cells near are those that are reached. -/
theorem twins_start {env : Environment} (size : h'.size = h.size)
    (agree : ∀ s, env.Reaches h s → h'.get? s = h.get? s) :
    Twins (env.Reaches h) h h.size h h' := by
  -- No cell was born yet.
  have reached {s : Slot} (hs : s.Near (env.Reaches h) h.size h.size) : env.Reaches h s :=
    hs.resolve_right fun ⟨hlo, hhi⟩ => absurd hhi (Nat.not_lt.mpr hlo)
  refine ⟨rfl, size, Nat.le_refl _, fun s hs => agree s (reached hs), ?_, fun _ _ _ => rfl⟩
  intro s v hs hv
  have within := (reached hs).within hv
  cases v with
  | function c => exact fun x s' hs' => .inl (within x s' hs')
  | _ => trivial

end Locality

open Locality

/-- **Evaluation is local to the cells that its environment reaches.** When an expression has been
evaluated, with a value or a stop, the heap has not shrunk, every other cell is as it was, and what
the value reaches was reached at the start or is new. On another heap of as many cells that agrees
with the first on what is reached, the evaluation ends just as it did there, in a heap of the same
size that agrees with the first on what was reached and on the new cells. Slots may be out of
range. -/
theorem Context.evaluation_is_local (ctx : Context) (fuel : Nat) (id : NodeId) (env : Environment)
    (h : Heap) :
    (∀ r h₁, ctx.eval fuel id env h = some (r, h₁) →
      h.size ≤ h₁.size ∧
      (∀ s, s.index < h.size → ¬ env.Reaches h s → h₁.get? s = h.get? s) ∧
      ∀ v s, r = .ok v → v.Reaches h₁ s → s.Near (env.Reaches h) h.size h₁.size) ∧
    ∀ h', h'.size = h.size → (∀ s, env.Reaches h s → h'.get? s = h.get? s) →
      (ctx.eval fuel id env h' = none ↔ ctx.eval fuel id env h = none) ∧
      ∀ r h₁, ctx.eval fuel id env h = some (r, h₁) →
        ∃ h₁', ctx.eval fuel id env h' = some (r, h₁') ∧ h₁'.size = h₁.size ∧
          ∀ s, s.Near (env.Reaches h) h.size h₁.size → h₁'.get? s = h₁.get? s := by
  -- The cells given are those that are reached at the start.
  have lockstep : Action.Lockstep (Twins (env.Reaches h) h) (Same (env.Reaches h) h) h.size
      (ctx.eval fuel id env) (ctx.eval fuel id env) :=
    eval_lockstep ctx fuel h.size id env fun x s hs => .inl (env.within_reaches h x s hs)
  refine ⟨?_, ?_⟩
  · intro r h₁ answer
    have alike := lockstep h h (twins_start rfl fun _ _ => rfl)
    rw [answer] at alike
    cases alike with
    | stop hle t => exact ⟨t.size ▸ t.grown, t.outside, fun v s hv => nomatch hv⟩
    | ok hle t hv =>
        obtain ⟨-, hv⟩ := hv
        refine ⟨t.size ▸ t.grown, t.outside, ?_⟩
        rintro _ s ⟨⟩ ⟨c, rfl, reached⟩
        rw [t.size]
        exact reached.least hv t.within
  · intro h' size agree
    have alike := lockstep h h' (twins_start size agree)
    generalize ctx.eval fuel id env h = o at alike
    generalize ctx.eval fuel id env h' = o' at alike
    cases alike with
    | exhausted => exact ⟨Iff.rfl, nofun⟩
    | stop hle t =>
        refine ⟨iff_of_false nofun nofun, ?_⟩
        rintro r h₁ ⟨⟩
        exact ⟨_, rfl, t.size'.trans t.size.symm, fun s hs => t.agree s (t.size ▸ hs)⟩
    | ok hle t hv =>
        refine ⟨iff_of_false nofun nofun, ?_⟩
        rintro r h₁ ⟨⟩
        obtain ⟨rfl, -⟩ := hv
        exact ⟨_, rfl, t.size'.trans t.size.symm, fun s hs => t.agree s (t.size ▸ hs)⟩

end LexCell
