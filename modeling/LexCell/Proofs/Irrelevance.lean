import LexCell.Proofs.Correspondence
import LexCell.Proofs.Machine.InRange

/-!
# What nobody mentions

Of an environment an evaluation sees what the names stand for that are mentioned at the node and
below it, and so do the functions it makes. In environments that agree on these names it does the
same (`Context.unmentioned_variables`); the functions are the same but for variables that their
bodies do not mention either.

If a name is mentioned nowhere, what it stands for is seen by nobody at all. A call of a function
whose parameter it is does not depend on the argument (`Context.unmentioned_parameter`).
Environments that are made in the call do know the argument's cell, but under this name only
(`Environment.Hides`).
-/

namespace LexCell

/-! ### Names that are mentioned below a node

Agreement is asked for at the node and below it, for that is all an evaluation can get to: bodies of
functions that are made here are below the node, and functions from elsewhere bring their own
environments. -/

/-- The name is looked for at the node or somewhere below it. -/
inductive Arena.Mentions (a : Arena) (x : Name) : NodeId → Prop where
  | here {id : NodeId} {n : Node} : a.node? id = some n → n.sought? = some x → Mentions a x id
  | child {id c : NodeId} {n : Node} {kids : List NodeId} : a.node? id = some n →
      n.children? a = some kids → c ∈ kids → Mentions a x c → Mentions a x id

/-- Every name that is mentioned at the node or below it stands for the same cell, or for none in
both. -/
def Arena.Agree (a : Arena) (id : NodeId) (env env' : Environment) : Prop :=
  ∀ x, a.Mentions x id → env'.resolve x = env.resolve x

/-- Numbers and truth values are the same. Functions have the same parameter and body, and
environments that agree on what the body mentions. -/
def Value.AlikeIn (a : Arena) : Value → Value → Prop := Value.Alike Eq a.Agree

def Heap.AlikeIn (a : Arena) : Heap → Heap → Prop := Heap.AlikeOn (fun _ => True) (Value.AlikeIn a)

theorem Heap.AlikeIn.refl (a : Arena) (h : Heap) : h.AlikeIn a h :=
  Heap.AlikeOn.refl h fun _ v _ => .refl (fun _ => rfl) v fun _ _ _ _ => rfl

/-- Bindings that are not mentioned may differ all along a run. -/
def Correspondence.mentioned (ctx : Context) : Correspondence ctx ctx where
  names := Eq
  slots := Eq
  envs := ctx.arena.Agree
  heaps := Heap.AlikeIn ctx.arena
  arena := ctx.alike_self
  texts := @ctx.textOrNumber_eq
  -- What is mentioned below a child is mentioned below the node.
  child hn hk hc agree x hx := agree x (.child hn hk hc hx)
  resolve := by
    rintro id n x _ env env' hn hx rfl agree
    rw [agree x (.here hn hx)]
    cases env.resolve x with
    | none => exact .none
    | some s => exact .some rfl
  bind := by
    -- Both environments bind the name to the same slot, and agree on the others.
    rintro id x _ s _ env env' agree rfl rfl y hy
    rw [Environment.resolve_bind, Environment.resolve_bind, agree y hy]
  fetch := by
    rintro h h' s _ heap rfl
    exact heap.cells s trivial
  store heap hv := ⟨heap.alloc fun _ => hv, congrArg Slot.mk heap.size.symm⟩
  overwrite := by
    rintro h h' s _ v v' heap rfl hv
    exact heap.set? hv s

/-- **Variables that are not mentioned do not matter.** In two environments that agree on the names
mentioned at the node or below it, whatever else they hold, its evaluation runs out of fuel alike,
stops for the same reason alike, or answers values that are the same up to variables that are not
mentioned in functions' bodies; and it leaves heaps of one size with cells that are the same so. -/
theorem Context.unmentioned_variables (ctx : Context) {id : NodeId} {env env' : Environment}
    (agree : ctx.arena.Agree id env env') (h : Heap) (fuel : Nat) :
    Action.Alike (fun _ : Unit => Heap.AlikeIn ctx.arena) (fun _ => Value.AlikeIn ctx.arena) ()
      (ctx.eval fuel id env h) (ctx.eval fuel id env' h) :=
  (Correspondence.mentioned ctx).eval_lockstep fuel agree h h (.refl ctx.arena h)

/-- The function `x => x` is the same wherever it is made, up to what it holds beside `x`. -/
theorem Context.sample_unmentioned :
    Program.sample.arena.Agree ⟨1⟩ .empty (.bind .empty ⟨1⟩ ⟨0⟩) ∧
      Action.Alike (fun _ : Unit => Heap.AlikeIn Program.sample.arena)
        (fun _ => Value.AlikeIn Program.sample.arena) ()
        (some (.ok (.function ⟨.empty, ⟨2⟩, ⟨0⟩⟩), ⟨#[.number 7]⟩))
        (some (.ok (.function ⟨.bind .empty ⟨1⟩ ⟨0⟩, ⟨2⟩, ⟨0⟩⟩), ⟨#[.number 7]⟩)) := by
  have agree : Program.sample.arena.Agree ⟨1⟩ .empty (.bind .empty ⟨1⟩ ⟨0⟩) := by
    intro x hx
    cases hx with
    | here hn hx =>
        cases hn
        cases hx
    | child hn hk hc hx =>
        cases hn
        cases hk
        cases List.mem_singleton.mp hc
        cases hx with
        | here hn hx =>
            cases hn
            cases hx
            rfl
        | child hn hk hc =>
            cases hn
            cases hk
            cases hc
  exact ⟨agree, unmentioned_variables ⟨Program.sample.arena, Interner.sample⟩ agree _ 1⟩

/-! ### Names that are mentioned nowhere

The argument of a call has a cell of its own. Where nobody looks for the parameter, the slot of this
cell is in environments but is never found, so the cell is never read or written. -/

def Arena.Unmentioned (a : Arena) (x : Name) : Prop := ∀ n ∈ a.nodes, n.sought? ≠ some x

instance (a : Arena) (x : Name) : Decidable (a.Unmentioned x) :=
  inferInstanceAs (Decidable (∀ n ∈ a.nodes, n.sought? ≠ some x))

/-- Functions in cells see no slot that was never given out. -/
def Heap.Closed (h : Heap) : Prop := ∀ s c, h.get? s = some (.function c) → c.env.Below h.size

/-- There are as many cells, and but for the one given they hold the same. -/
structure Heap.SameBut (s : Slot) (h h' : Heap) : Prop where
  size : h'.size = h.size
  cells : ∀ s', s' ≠ s → h'.get? s' = h.get? s'

/-- No name but `x` stands for the cell. -/
def Environment.Hides (x : Name) (s : Slot) (env : Environment) : Prop :=
  ∀ y, env.resolve y = some s → y = x

/-- The environments are the same, and the cell is hidden behind the name `x` in them. -/
def Environment.SameHiding (x : Name) (s : Slot) (env env' : Environment) : Prop :=
  env' = env ∧ env.Hides x s

namespace Environment

variable {x : Name} {s : Slot} {env : Environment}

/-- What was never given out is hidden. -/
theorem Below.hides {size : Nat} (h : env.Below size) : env.Hides x ⟨size⟩ :=
  fun y hy => absurd (h y _ hy) (Nat.lt_irrefl _)

/-- Binding keeps the cell hidden, unless another name is bound to it. -/
theorem Hides.bind (h : env.Hides x s) {y : Name} {s' : Slot} (hy : s' = s → y = x) :
    (env.bind y s').Hides x s := by
  intro z hz
  -- A name that is bound to the cell is `x`, by what is asked of the new binding.
  rw [resolve_bind] at hz
  split at hz
  · next same => exact same.trans (hy (Option.some.inj hz))
  · exact h z hz

end Environment

/-- What one cell holds may differ all along a run, if only a name stands for it that is not
mentioned. -/
def Correspondence.hiding (ctx : Context) {x : Name} (hx : ctx.arena.Unmentioned x) (s : Slot) :
    Correspondence ctx ctx where
  names := Eq
  slots r r' := r' = r ∧ r ≠ s
  envs _ := Environment.SameHiding x s
  heaps h h' := s.index < h.size ∧
    h.AlikeOn (· ≠ s) (Value.Alike Eq fun _ => Environment.SameHiding x s) h'
  arena := ctx.alike_self
  texts := @ctx.textOrNumber_eq
  child _ _ _ same := same
  resolve := by
    rintro id n y _ _ env hn hy rfl ⟨rfl, hides⟩
    -- What is looked for is not `x`, so it is not the hidden cell.
    have other : y ≠ x := by
      rintro rfl
      exact hx n (Array.mem_of_getElem? hn) hy
    cases found : env.resolve y with
    | none => exact .none
    | some r => exact .some ⟨rfl, fun same => other (hides y (same ▸ found))⟩
  bind := by
    rintro id y _ _ r _ env ⟨rfl, hides⟩ rfl ⟨rfl, other⟩
    exact ⟨rfl, hides.bind fun same => absurd same other⟩
  fetch := by
    rintro h h' _ r ⟨-, heap⟩ ⟨rfl, other⟩
    exact heap.cells r other
  store := by
    rintro h h' v v' ⟨inside, heap⟩ hv
    -- The cell is there already, so the new one is another.
    refine ⟨⟨?_, heap.alloc fun _ => hv⟩, congrArg Slot.mk heap.size, ?_⟩
    · rw [Heap.size_alloc]
      exact Nat.lt_succ_of_lt inside
    · rintro rfl
      exact Nat.lt_irrefl _ inside
  overwrite := by
    rintro h h' _ r v v' ⟨inside, heap⟩ ⟨rfl, other⟩ hv
    have written := heap.set? hv r
    generalize e : h.set? r v = o at written
    generalize h'.set? r v' = o' at written
    cases written with
    | none => exact .none
    | some heap => exact .some ⟨(Heap.size_of_set? e).symm ▸ inside, heap⟩

/-- **A parameter that nobody mentions cannot be observed.** If no node looks for the parameter of a
function, and neither the function nor a cell holds a slot that was never given out, then calls with
any two arguments run out of fuel alike, stop for the same reason alike, or answer the same value;
and they leave heaps of one size that differ in the argument's cell at most. -/
theorem Context.unmentioned_parameter (ctx : Context) {c : Closure}
    (unmentioned : ctx.arena.Unmentioned c.param) {h : Heap} (below : c.env.Below h.size)
    (closed : h.Closed) (v w : Value) (fuel : Nat) :
    Action.Alike (fun _ : Unit => Heap.SameBut ⟨h.size⟩) (fun _ => Eq) ()
      (c.call (ctx.eval fuel) v h) (c.call (ctx.eval fuel) w h) := by
  -- The cell that hides is the next one, in which the argument is put.
  let C := Correspondence.hiding ctx unmentioned ⟨h.size⟩
  have env : C.envs c.body (c.env.bind c.param ⟨h.size⟩) (c.env.bind c.param ⟨h.size⟩) :=
    ⟨rfl, below.hides.bind fun _ => rfl⟩
  -- Before the call the heaps are equal, and no cell knows the slot.
  have cells : h.AlikeOn (· ≠ ⟨h.size⟩) C.values h := by
    refine .refl h fun s u hu => .refl (fun _ => rfl) u ?_
    rintro c' rfl
    exact ⟨rfl, (closed s c' hu).hides⟩
  have heap : C.heaps (h.alloc v).2 (h.alloc w).2 := by
    refine ⟨?_, cells.alloc fun other => absurd rfl other⟩
    rw [Heap.size_alloc]
    exact Nat.lt_succ_self _
  -- What corresponds here is equal, since environments are.
  have same {u u' : Value} (hu : C.values u u') : u = u' :=
    (hu.eq (fun _ _ same => same.symm) fun _ _ _ same => same.1).symm
  refine (C.eval_lockstep fuel env _ _ heap).imp (fun _ h₁ h₂ heap => ⟨heap.2.size, ?_⟩)
    fun _ _ _ => same
  intro s hs
  have cell := heap.2.cells s hs
  generalize h₁.get? s = o at cell
  generalize h₂.get? s = o' at cell
  cases cell with
  | none => rfl
  | some hu => exact congrArg some (same hu).symm

/-- The body of the function `() => f = f + 1`. -/
def Arena.counting : Arena where
  nodes := #[.ident ⟨1⟩, .number 1, .binary .add ⟨0⟩ ⟨1⟩, .assign ⟨1⟩ ⟨2⟩]

/-- Such a function, which has the empty name for its parameter, counts the same whatever it is
called with. -/
theorem Context.counting_unmentioned :
    Arena.counting.Unmentioned .empty ∧ (Environment.empty.bind ⟨1⟩ ⟨0⟩).Below 1 ∧
      Heap.Closed ⟨#[.number 5]⟩ ∧
      Action.Alike (fun _ : Unit => Heap.SameBut ⟨1⟩) (fun _ => Eq) ()
        (some (.ok Value.void, ⟨#[.number 6, .number 0]⟩))
        (some (.ok Value.void, ⟨#[.number 6, .boolean true]⟩)) := by
  have unmentioned : Arena.counting.Unmentioned .empty := by decide
  have below : (Environment.empty.bind ⟨1⟩ ⟨0⟩).Below 1 := Environment.Below.empty.bind ⟨1⟩
  have closed : Heap.Closed ⟨#[.number 5]⟩ := by
    rintro ⟨_ | i⟩ c hc <;> cases hc
  exact ⟨unmentioned, below, closed, unmentioned_parameter ⟨Arena.counting, Interner.sample⟩
    (c := ⟨.bind .empty ⟨1⟩ ⟨0⟩, .empty, ⟨3⟩⟩) (h := ⟨#[.number 5]⟩) unmentioned below closed
    (.number 0) (.boolean true) 4⟩

end LexCell
