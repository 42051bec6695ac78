import LexCell.Proofs.Arena.Postorder
import LexCell.Proofs.Lockstep
import LexCell.Proofs.Machine.Discipline
import LexCell.Proofs.Machine.Unwinding
import Mathlib.Data.List.Forall2

/-!
# Two programs that correspond

Two programs of one shape run in lockstep if what they work with corresponds. A `Correspondence`
says which names, cells, environments and heaps do; its fields are the local obligations: that a
node gives its environment on to its children, that a name finds cells that correspond on both
sides, that binding keeps environments corresponding, and that the heap is read, grown and written
alike.

Environments correspond for a node, so less may be asked of them where less is looked for. Functions
correspond if their environments do for the body.

The rules of evaluation are gone through here, once for all correspondences
(`Correspondence.eval_lockstep`).
-/

/-- Lists that are related entry by entry are related at every index. -/
theorem List.Forall₂.getElem?_rel {α β : Type} {R : α → β → Prop} {xs : List α} {ys : List β}
    (h : List.Forall₂ R xs ys) (i : Nat) : Option.Rel R xs[i]? ys[i]? := by
  induction h generalizing i with
  | nil => exact .none
  | cons first _ ih => -- the index runs down as the lists do
      cases i with
      | zero => exact .some first
      | succ i => exact ih i

namespace LexCell

/-! ### Programs of one shape

Only names may differ. So the children of a node, the spans and the sizes of the tables are the same
on both sides, and the two runs visit the same nodes in the same order. -/

/-- The nodes differ in names only, and these are related. -/
inductive Node.Alike (N : Name → Name → Prop) : Node → Node → Prop where
  | number (n : Int64) : Alike N (.number n) (.number n)
  | boolean (b : Bool) : Alike N (.boolean b) (.boolean b)
  | unary (op : UnaryOp) (x : NodeId) : Alike N (.unary op x) (.unary op x)
  | binary (op : BinaryOp) (x y : NodeId) : Alike N (.binary op x y) (.binary op x y)
  | logical (op : LogicalOp) (x y : NodeId) : Alike N (.logical op x y) (.logical op x y)
  | conditional (x y z : NodeId) : Alike N (.conditional x y z) (.conditional x y z)
  | ident {n m : Name} : N n m → Alike N (.ident n) (.ident m)
  | bind (span : Span) : Alike N (.bind span) (.bind span)
  | function {n m : Name} (x : NodeId) : N n m → Alike N (.function n x) (.function m x)
  | call (x y : NodeId) : Alike N (.call x y) (.call x y)
  | assign {n m : Name} (x : NodeId) : N n m → Alike N (.assign n x) (.assign m x)
  | block (span : Span) : Alike N (.block span) (.block span)
  | malformed {n m : Name} : N n m → Alike N (.malformed n) (.malformed m)

structure Declaration.Alike (N : Name → Name → Prop) (d d' : Declaration) : Prop where
  name : N d.name d'.name
  init : d'.init = d.init

structure Arena.Alike (N : Name → Name → Prop) (a a' : Arena) : Prop where
  nodes : List.Forall₂ (Node.Alike N) a.nodes.toList a'.nodes.toList
  statementLists : a'.statementLists = a.statementLists
  declarations : List.Forall₂ (Declaration.Alike N) a.declarations.toList a'.declarations.toList

theorem Node.Alike.refl {N : Name → Name → Prop} (h : ∀ n, N n n) (n : Node) : n.Alike N n := by
  cases n with
  | number n => exact .number n
  | boolean b => exact .boolean b
  | unary op x => exact .unary op x
  | binary op x y => exact .binary op x y
  | logical op x y => exact .logical op x y
  | conditional x y z => exact .conditional x y z
  | ident n => exact .ident (h n)
  | bind span => exact .bind span
  | function n x => exact .function x (h n)
  | call x y => exact .call x y
  | assign n x => exact .assign x (h n)
  | block span => exact .block span
  | malformed n => exact .malformed (h n)

namespace Arena.Alike

variable {N : Name → Name → Prop} {a a' : Arena}

theorem refl (h : ∀ n, N n n) (a : Arena) : a.Alike N a :=
  ⟨List.forall₂_same.mpr fun n _ => .refl h n, rfl,
    List.forall₂_same.mpr fun d _ => ⟨h d.name, rfl⟩⟩

/-- At every index there are nodes on both sides, and alike, or on neither. -/
theorem node? (h : a.Alike N a') (id : NodeId) :
    Option.Rel (Node.Alike N) (a.node? id) (a'.node? id) := by
  have entry := h.nodes.getElem?_rel id.index
  rwa [Array.getElem?_toList, Array.getElem?_toList] at entry

/-- Lists of statements hold no names. -/
theorem statements? (h : a.Alike N a') (span : Span) :
    a'.statements? span = a.statements? span := by
  rw [Arena.statements?, h.statementLists]
  rfl

/-- Of a span there are declarations on both sides, and alike, or on neither. -/
theorem declarations? (h : a.Alike N a') (span : Span) :
    Option.Rel (List.Forall₂ (Declaration.Alike N)) (a.declarations? span)
      (a'.declarations? span) := by
  have sizes : a'.declarations.size = a.declarations.size := h.declarations.length_eq.symm
  unfold Arena.declarations? Span.of?
  -- Whether a span fits depends on sizes only, so both sides take the same branch.
  rw [sizes]
  split
  · refine .some ?_
    rw [Array.toList_extract, Array.toList_extract]
    exact List.forall₂_take _ (List.forall₂_drop _ h.declarations)
  · exact .none

end Arena.Alike

namespace Context

variable (ctx : Context)

/-- Every name of a program corresponds to itself. -/
theorem alike_self : ctx.arena.Alike Eq ctx.arena := .refl (fun _ => rfl) _

theorem textOrNumber_eq {n m : Name} (h : n = m) :
    ctx.interner.textOrNumber m = ctx.interner.textOrNumber n := by
  rw [h]

end Context

/-! ### Values

The relation on environments is indexed by a node, and the one that matters for a function is its
body: nothing else will ever be evaluated there. -/

/-- The values look the same. Functions have the same body and related parameters, and environments
that are related for the body. -/
inductive Value.Alike (N : Name → Name → Prop) (R : NodeId → Environment → Environment → Prop) :
    Value → Value → Prop where
  | number (n : Int64) : Alike N R (.number n) (.number n)
  | boolean (b : Bool) : Alike N R (.boolean b) (.boolean b)
  | function {c c' : Closure} : N c.param c'.param → c'.body = c.body → R c.body c.env c'.env →
      Alike N R (.function c) (.function c')
  | void : Alike N R .void .void

namespace Value.Alike

variable {N : Name → Name → Prop} {R : NodeId → Environment → Environment → Prop}
  {v v' w w' : Value}

/-- What carries no environment looks like itself. -/
theorem of_ne_function (h : ∀ c, v ≠ .function c) : v.Alike N R v := by
  cases v with
  | number n => exact .number n
  | boolean b => exact .boolean b
  | function c => exact absurd rfl (h c)
  | void => exact .void

/-- A value looks like itself if its environment does. -/
theorem refl (hN : ∀ n, N n n) (v : Value)
    (hv : ∀ c, v = .function c → R c.body c.env c.env) : v.Alike N R v := by
  cases v with
  | number n => exact .number n
  | boolean b => exact .boolean b
  | function c => exact .function (hN c.param) rfl (hv c rfl)
  | void => exact .void

/-- Values that look the same are the same if the names and environments are. -/
theorem eq (hN : ∀ n m, N n m → m = n) (hR : ∀ id env env', R id env env' → env' = env)
    (h : v.Alike N R v') : v' = v := by
  cases h with
  -- The three parts of a function are related by equations here.
  | @function c c' param body env =>
      obtain ⟨env', param', body'⟩ := c'
      obtain rfl := hN _ _ param
      obtain rfl : body' = c.body := body
      obtain rfl := hR _ _ _ env
      rfl
  | _ => rfl

theorem display_eq (h : v.Alike N R v') : v'.display = v.display := by
  cases h <;> rfl

theorem describe_eq (h : v.Alike N R v') : v'.describe = v.describe := by
  cases h <;> rfl

theorem expectBoolean_eq {σ : Type} (h : v.Alike N R v') (context : String) (id : NodeId) :
    (v'.expectBoolean context id : Action σ Bool) = v.expectBoolean context id := by
  cases h <;> rfl

/-- Operators do not look into functions. -/
theorem unary_apply (h : v.Alike N R v') (op : UnaryOp) : op.apply v' = op.apply v := by
  cases h with
  | function => cases op <;> rfl
  | _ => rfl

/-- The same for two operands. -/
theorem binary_apply (hv : v.Alike N R v') (hw : w.Alike N R w') (op : BinaryOp) :
    op.apply v' w' = op.apply v w := by
  cases hv <;> cases hw <;> rfl

end Value.Alike

/-! ### Heaps

Which cells must hold related values is a parameter, since a proof may want to leave one of them
out. -/

/-- There are as many cells, and of the slots given they hold related values. -/
structure Heap.AlikeOn (P : Slot → Prop) (V : Value → Value → Prop) (h h' : Heap) : Prop where
  size : h'.size = h.size
  cells : ∀ s, P s → Option.Rel V (h.get? s) (h'.get? s)

namespace Heap.AlikeOn

variable {P : Slot → Prop} {V : Value → Value → Prop} {h h' : Heap} {v v' : Value}

theorem refl (h : Heap) (cells : ∀ s v, h.get? s = some v → V v v) : h.AlikeOn P V h := by
  refine ⟨rfl, fun s _ => ?_⟩
  cases hv : h.get? s with
  | none => exact .none
  | some v => exact .some (cells s v hv)

/-- The new cell is as the others if its slot is one of those given. -/
theorem alloc (heap : h.AlikeOn P V h') (hv : P ⟨h.size⟩ → V v v') :
    (h.alloc v).2.AlikeOn P V (h'.alloc v').2 := by
  constructor
  · rw [Heap.size_alloc, Heap.size_alloc, heap.size]
  · intro s hs
    rw [Heap.get?_alloc, Heap.get?_alloc, heap.size]
    -- A slot is the new one or it was there before.
    split
    · next new => exact .some (hv (new ▸ hs))
    · exact heap.cells s hs

theorem set? (heap : h.AlikeOn P V h') (hv : V v v') (s : Slot) :
    Option.Rel (Heap.AlikeOn P V) (h.set? s v) (h'.set? s v') := by
  have sizes : h'.cells.size = h.cells.size := heap.size
  -- The heaps have the same size, so a write succeeds on both sides or on neither.
  by_cases inside : s.index < h.cells.size
  · obtain ⟨h₁, e⟩ : ∃ h₁, h.set? s v = some h₁ := ⟨_, if_pos inside⟩
    obtain ⟨h₁', e'⟩ : ∃ h₁', h'.set? s v' = some h₁' := ⟨_, if_pos (sizes ▸ inside)⟩
    rw [e, e']
    refine .some ⟨?_, ?_⟩
    · rw [Heap.size_of_set? e, Heap.size_of_set? e', heap.size]
    · intro s' hs'
      rw [Heap.get?_of_set? e, Heap.get?_of_set? e']
      split
      · exact .some hv
      · exact heap.cells s' hs'
  · have e : h.set? s v = none := if_neg inside
    have e' : h'.set? s v' = none := if_neg (sizes ▸ inside)
    rw [e, e']
    exact .none

end Heap.AlikeOn

/-! ### Correspondences

The first four fields are relations and the others are obligations about them. Each obligation is
about a single operation; no run is mentioned. -/

/-- What corresponds in two programs of one shape, and that it does all along. -/
structure Correspondence (ctx ctx' : Context) where
  names : Name → Name → Prop
  slots : Slot → Slot → Prop
  /-- The environments correspond for the evaluation of a node. -/
  envs : NodeId → Environment → Environment → Prop
  heaps : Heap → Heap → Prop
  arena : ctx.arena.Alike names ctx'.arena
  texts {n m : Name} : names n m → ctx'.interner.textOrNumber m = ctx.interner.textOrNumber n
  child {id c : NodeId} {n : Node} {kids : List NodeId} {env env' : Environment} :
    ctx.arena.node? id = some n → n.children? ctx.arena = some kids → c ∈ kids →
    envs id env env' → envs c env env'
  resolve {id : NodeId} {n : Node} {x y : Name} {env env' : Environment} :
    ctx.arena.node? id = some n → n.sought? = some x → names x y → envs id env env' →
    Option.Rel slots (env.resolve x) (env'.resolve y)
  bind {id : NodeId} {x y : Name} {s s' : Slot} {env env' : Environment} :
    envs id env env' → names x y → slots s s' → envs id (env.bind x s) (env'.bind y s')
  fetch {h h' : Heap} {s s' : Slot} :
    heaps h h' → slots s s' → Option.Rel (Value.Alike names envs) (h.get? s) (h'.get? s')
  store {h h' : Heap} {v v' : Value} : heaps h h' → v.Alike names envs v' →
    heaps (h.alloc v).2 (h'.alloc v').2 ∧ slots (h.alloc v).1 (h'.alloc v').1
  overwrite {h h' : Heap} {s s' : Slot} {v v' : Value} :
    heaps h h' → slots s s' → v.Alike names envs v' →
    Option.Rel heaps (h.set? s v) (h'.set? s' v')

namespace Correspondence

open LexCell.Action

variable {ctx ctx' : Context} (C : Correspondence ctx ctx')

abbrev values : Value → Value → Prop := Value.Alike C.names C.envs

/-- The frames correspond for the nodes given. -/
structure Frames (P : NodeId → Prop) (f f' : Frame) : Prop where
  env : ∀ id, P id → C.envs id f.env f'.env
  heap : C.heaps f.heap f'.heap

/-- Where environments correspond for the nodes given they do for this one. -/
def Covers (P : NodeId → Prop) (c : NodeId) : Prop :=
  ∀ env env', (∀ id, P id → C.envs id env env') → C.envs c env env'

/-- Two actions on heaps in lockstep. What corresponds does not change in a run. -/
abbrev OnHeaps {α β : Type} (V : α → β → Prop) : Action Heap α → Action Heap β → Prop :=
  Lockstep (fun _ : Unit => C.heaps) (fun _ => V) ()

abbrev OnFrames {α β : Type} (P : NodeId → Prop) (V : α → β → Prop) :
    Action Frame α → Action Frame β → Prop :=
  Lockstep (fun _ : Unit => C.Frames P) (fun _ => V) ()

/-! ### Single actions

One lemma for each primitive the rules are made of. Errors carry no value, so a primitive that stops
is in lockstep with itself. -/

/-- References are followed on both sides or on neither. -/
theorem deref_lockstep {σ τ α β : Type} {S : Unit → σ → τ → Prop} {R : α → β → Prop} {x : Option α}
    {y : Option β} (h : Option.Rel R x y) :
    Lockstep S (fun _ a b => x = some a ∧ R a b) () (Action.deref x) (Action.deref y) := by
  cases h with
  | none => exact .stop .dangling
  | some h => exact .pure ⟨rfl, h⟩

theorem ofExcept_lockstep {x : Except EvalError.Cause Value} (id : NodeId)
    (hx : ∀ v, x = .ok v → ∀ c, v ≠ .function c) :
    C.OnHeaps C.values (Action.ofExcept id x) (Action.ofExcept id x) := by
  cases x with
  | error c => exact .stop _
  | ok v => exact .pure (.of_ne_function (hx v rfl))

theorem expectBoolean_lockstep {v v' : Value} (hv : C.values v v') (context : String)
    (id : NodeId) :
    C.OnHeaps Eq (v.expectBoolean context id) (v'.expectBoolean context id) := by
  rw [hv.expectBoolean_eq]
  cases v with
  | boolean b => exact .pure rfl
  | _ => exact .stop _

/-- The name in the message is the same on both sides, whatever its number is. -/
theorem unbound_lockstep {x y : Name} (hxy : C.names x y) (id : NodeId) :
    C.OnHeaps C.values (ctx.unbound x id) (ctx'.unbound y id) := by
  unfold Context.unbound
  rw [C.texts hxy]
  exact .stop _

variable {C}

theorem fetch_lockstep {s s' : Slot} (hs : C.slots s s') :
    C.OnHeaps C.values (Heap.fetch s) (Heap.fetch s') := by
  intro h h' heap
  have cell := C.fetch heap hs
  unfold Heap.fetch
  -- What is read is decided by the cells alone.
  generalize h.get? s = o at cell
  generalize h'.get? s' = o' at cell
  cases cell with
  | none => exact .stop le_rfl heap
  | some hv => exact .ok le_rfl heap hv

theorem extend_lockstep {id : NodeId} {env env' : Environment} (henv : C.envs id env env')
    {x y : Name} (hxy : C.names x y) {v v' : Value} (hv : C.values v v') :
    C.OnHeaps (C.envs id) (Heap.extend env x v) (Heap.extend env' y v') := by
  intro h h' heap
  obtain ⟨heap, slot⟩ := C.store heap hv
  exact .ok le_rfl heap (C.bind henv hxy slot)

theorem overwrite_lockstep {s s' : Slot} (hs : C.slots s s') {v v' : Value} (hv : C.values v v') :
    C.OnHeaps (fun _ _ => True) (Heap.overwrite s v) (Heap.overwrite s' v') := by
  intro h h' heap
  have written := C.overwrite heap hs hv
  unfold Heap.overwrite
  generalize h.set? s v = o at written
  generalize h'.set? s' v' = o' at written
  cases written with
  | none => exact .stop le_rfl heap
  | some heap => exact .ok le_rfl heap trivial

/-! ### Frames

Inside a frame the environment changes with every declaration, so it must correspond for all nodes
that may still be evaluated, which is what `P` collects. -/

variable {P : NodeId → Prop}

theorem declare_lockstep {x y : Name} (hxy : C.names x y) {v v' : Value} (hv : C.values v v') :
    C.OnFrames P (fun _ _ => True) (Frame.declare x v) (Frame.declare y v') := by
  intro f f' frames
  obtain ⟨heap, slot⟩ := C.store frames.heap hv
  exact .ok le_rfl ⟨fun id hid => C.bind (frames.env id hid) hxy slot, heap⟩ trivial

theorem within_lockstep {act act' : Environment → Action Heap Value}
    (hact : ∀ env env', (∀ id, P id → C.envs id env env') → C.OnHeaps C.values (act env) (act' env')) :
    C.OnFrames P C.values (Frame.within act) (Frame.within act') := by
  rintro ⟨env, h⟩ ⟨env', h'⟩ ⟨henv, heap⟩
  have run := hact env env' henv h h' heap
  simp only [Frame.within]
  -- The environments are put back whatever the outcome is, so only the heaps come from the run.
  generalize act env h = o at run
  generalize act' env' h' = o' at run
  cases run with
  | exhausted => exact .exhausted
  | stop hle heap => exact .stop hle ⟨henv, heap⟩
  | ok hle heap hv => exact .ok hle ⟨henv, heap⟩ hv

theorem enclosed_lockstep {act act' : Action Frame Value} {env env' : Environment}
    (henv : ∀ id, P id → C.envs id env env') (hact : C.OnFrames P C.values act act') :
    C.OnHeaps C.values (Frame.enclosed env act) (Frame.enclosed env' act') := by
  intro h h' heap
  have run := hact ⟨env, h⟩ ⟨env', h'⟩ ⟨henv, heap⟩
  simp only [Frame.enclosed]
  generalize act ⟨env, h⟩ = o at run
  generalize act' ⟨env', h'⟩ = o' at run
  cases run with
  | exhausted => exact .exhausted
  | stop hle frames => exact .stop hle frames.heap
  | ok hle frames hv => exact .ok hle frames.heap hv

/-! ### The rules

In this section `evaluator` and `evaluator'` stand for the evaluations of the nodes below. -/

section Rules

variable {evaluator evaluator' : Evaluator}
  (below : ∀ id env env', C.envs id env env' →
    C.OnHeaps C.values (evaluator id env) (evaluator' id env'))

include below

/-- A node that the frames cover is evaluated in lockstep. -/
theorem covered_lockstep {c : NodeId} (hc : C.Covers P c) :
    C.OnFrames P C.values (Frame.within (evaluator c)) (Frame.within (evaluator' c)) :=
  within_lockstep fun env env' henv => below c env env' (hc env env' henv)

/-- Declarations bind related names to related values, one after the other. -/
theorem declareAll_lockstep {ds ds' : List Declaration}
    (h : List.Forall₂ (Declaration.Alike C.names) ds ds') (hds : ∀ d ∈ ds, C.Covers P d.init) :
    C.OnFrames P C.values (Frame.declareAll evaluator ds) (Frame.declareAll evaluator' ds') := by
  induction h with
  | nil => exact .pure .void
  | @cons d d' ds ds' first rest ih =>
      unfold Frame.declareAll
      -- The same initial value on both sides, in environments that still correspond for it.
      rw [first.init]
      refine .bind (covered_lockstep below (hds d List.mem_cons_self)) ?_
      rintro _ v v' - hv
      refine .bind (declare_lockstep first.name hv) ?_
      rintro _ _ _ - -
      exact ih fun d hd => hds d (List.mem_cons_of_mem _ hd)

theorem statement_lockstep {id : NodeId} (hid : C.Covers P id) :
    C.OnFrames P C.values (ctx.statement evaluator id) (ctx'.statement evaluator' id) := by
  unfold Context.statement
  refine .bind (deref_lockstep (C.arena.node? id)) ?_
  rintro _ n n' - ⟨hn, alike⟩
  -- Only a `let` is treated in another way than as an expression.
  cases alike with
  | bind span =>
      refine .bind (deref_lockstep (C.arena.declarations? span)) ?_
      rintro _ ds ds' - ⟨hd, alike⟩
      refine declareAll_lockstep below alike fun d hmem env env' henv => ?_
      exact C.child hn (Option.map_eq_some_iff.mpr ⟨ds, hd, rfl⟩) (List.mem_map_of_mem hmem)
        (hid env env' henv)
  | _ => exact covered_lockstep below hid

theorem statements_lockstep {ids : List NodeId} (hids : ∀ id ∈ ids, C.Covers P id)
    {last last' : Value} (hlast : C.values last last') :
    C.OnFrames P C.values (ctx.statements evaluator last ids)
      (ctx'.statements evaluator' last' ids) := by
  induction ids generalizing last last' with
  | nil => exact .pure hlast
  | cons id ids ih =>
      unfold Context.statements
      refine .bind (statement_lockstep below (hids id List.mem_cons_self)) ?_
      rintro _ v v' - hv
      -- The value that is carried along is the last one, which is related.
      exact ih (fun id hid => hids id (List.mem_cons_of_mem _ hid)) hv

/-- **One level of evaluation keeps the two programs in lockstep**, if the level below does. -/
theorem step_lockstep {id : NodeId} {env env' : Environment} (henv : C.envs id env env') :
    C.OnHeaps C.values (ctx.step evaluator id env) (ctx'.step evaluator' id env') := by
  unfold Context.step
  refine .bind (deref_lockstep (C.arena.node? id)) ?_
  rintro _ n n' - ⟨hn, alike⟩
  -- Every premise is about a child in the same environments, for which these correspond too.
  have child {c : NodeId} {kids : List NodeId} (hk : n.children? ctx.arena = some kids)
      (hc : c ∈ kids) : C.envs c env env' := C.child hn hk hc henv
  cases alike with
  | number i => exact .pure (.number i)
  | boolean b => exact .pure (.boolean b)
  | unary op x =>
      refine .bind (below x env env' (child rfl (by simp))) ?_
      rintro _ v v' - hv
      rw [hv.unary_apply]
      exact C.ofExcept_lockstep id fun w hw => op.apply_ne_function hw
  | binary op x y =>
      refine .bind (below x env env' (child rfl (by simp))) ?_
      rintro _ v v' - hv
      refine .bind (below y env env' (child rfl (by simp))) ?_
      rintro _ w w' - hw
      rw [hv.binary_apply hw]
      exact C.ofExcept_lockstep id fun w hw => op.apply_ne_function hw
  | logical op x y =>
      refine .bind (below x env env' (child rfl (by simp))) ?_
      rintro _ v v' - hv
      refine .bind (C.expectBoolean_lockstep hv _ id) ?_
      rintro _ b _ - rfl
      split
      · -- the left operand decides, on both sides alike
        exact .pure (.boolean b)
      · refine .bind (below y env env' (child rfl (by simp))) ?_
        rintro _ w w' - hw
        refine .bind (C.expectBoolean_lockstep hw _ id) ?_
        rintro _ b _ - rfl
        exact .pure (.boolean b)
  | conditional x y z =>
      refine .bind (below x env env' (child rfl (by simp))) ?_
      rintro _ v v' - hv
      refine .bind (C.expectBoolean_lockstep hv _ id) ?_
      rintro _ b _ - rfl
      split
      · exact below y env env' (child rfl (by simp))
      · exact below z env env' (child rfl (by simp))
  | @ident x y hxy =>
      -- A name is looked up on both sides; what is found, or that nothing is, corresponds.
      have found := C.resolve hn rfl hxy henv
      dsimp only
      generalize env.resolve x = o at found
      generalize env'.resolve y = o' at found
      cases found with
      | none => exact C.unbound_lockstep hxy id
      | some hs => exact fetch_lockstep hs
  | bind span =>
      refine .bind (deref_lockstep (C.arena.declarations? span)) ?_
      rintro _ ds ds' - ⟨hd, alike⟩
      refine enclosed_lockstep (P := (· = id)) (by rintro _ rfl; exact henv) ?_
      refine declareAll_lockstep below alike fun d hmem e e' he => ?_
      exact C.child hn (Option.map_eq_some_iff.mpr ⟨ds, hd, rfl⟩) (List.mem_map_of_mem hmem)
        (he id rfl)
  | function x hp => exact .pure (.function hp rfl (child rfl (by simp)))
  | call x y =>
      refine .bind (below x env env' (child rfl (by simp))) ?_
      rintro _ v v' - hv
      cases hv with
      | @function c c' hp hbody hc =>
          refine .bind (below y env env' (child rfl (by simp))) ?_
          rintro _ w w' - hw
          refine .bind (extend_lockstep hc hp hw) ?_
          rintro _ e e' - he
          -- Both functions run the same body, in the environments that were caught and one name
          -- more.
          rw [hbody]
          exact below c.body e e' he
      | _ => exact .stop _
  | @assign x y z hxy =>
      have found := C.resolve hn rfl hxy henv
      dsimp only
      generalize env.resolve x = o at found
      generalize env'.resolve y = o' at found
      cases found with
      | none => exact C.unbound_lockstep hxy id
      | some hs =>
          refine .bind (below z env env' (child rfl (by simp))) ?_
          rintro _ v v' - hv
          refine .bind (overwrite_lockstep hs hv) ?_
          rintro _ _ _ - -
          exact .pure .void
  | block span =>
      refine enclosed_lockstep (P := (· = id)) (by rintro _ rfl; exact henv) ?_
      unfold Context.sequence
      rw [C.arena.statements?]
      refine .bind (Lockstep.deref _) ?_
      rintro _ ids _ - ⟨rfl, hids⟩
      refine statements_lockstep below (P := (· = id)) (fun c hc e e' he => ?_) .void
      exact C.child hn hids hc (he id rfl)
  | malformed htoken =>
      dsimp only
      rw [C.texts htoken]
      exact .stop _

end Rules

/-- **Evaluations in environments that correspond for the node run in lockstep.** -/
theorem eval_lockstep (C : Correspondence ctx ctx') (fuel : Nat) {id : NodeId}
    {env env' : Environment} (henv : C.envs id env env') :
    C.OnHeaps C.values (ctx.eval fuel id env) (ctx'.eval fuel id env') := by
  induction fuel generalizing id env env' with
  | zero => exact .exhausted
  -- What is below has less fuel, so the hypothesis of the induction covers it.
  | succ fuel ih => exact step_lockstep (fun _ _ _ => ih) henv

/-- **Lists of statements run in lockstep.** -/
theorem run_lockstep (C : Correspondence ctx ctx') (fuel : Nat) {ids : List NodeId}
    (hids : ∀ id ∈ ids, C.Covers P id) :
    C.OnFrames P C.values (ctx.statements (ctx.eval fuel) .void ids)
      (ctx'.statements (ctx'.eval fuel) .void ids) :=
  statements_lockstep (fun _ _ _ => C.eval_lockstep fuel) hids .void

end Correspondence

end LexCell
