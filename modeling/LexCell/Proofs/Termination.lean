import LexCell.Proofs.Machine.InRange
import LexCell.Proofs.Unbounded

/-!
# Recursion that ends

Nodes refer to each other by index, so nothing in their types keeps a recursion over them from going
on forever. In an arena whose children stand before their parents (`Arena.Ordered`), which laying
out guarantees, the index goes down from a node to what hangs below it
(`Arena.Ordered.wellFounded`).

Writing a node follows its children only, so it ends for every node. An evaluation also goes to the
bodies of the functions that it calls, and these are anywhere. Where nothing is called it stays with
the children: it ends, and it nests at most as deep as the index of the node tells
(`Context.eval_settles`). That it does not end in a reference that dangles instead is part of what
is carried along: an action *settles* (`Action.Settles`) if it answers, and with something better.
-/

namespace LexCell

/-! ### Going down -/

def Node.isCall : Node → Bool
  | call _ _ => true
  | _ => false

namespace Arena

def Child (a : Arena) (c p : NodeId) : Prop := ∃ kids, a.children? p = some kids ∧ c ∈ kids

def CallFree (a : Arena) : Prop := ∀ node ∈ a.nodes, node.isCall = false

instance (a : Arena) : Decidable a.CallFree :=
  inferInstanceAs (Decidable (∀ node ∈ a.nodes, node.isCall = false))

/-- Whether all children stand before their parents is a matter of looking at each node once. -/
theorem ordered_iff (a : Arena) :
    a.Ordered ↔ ∀ i < a.size, ∃ kids ∈ a.children? ⟨i⟩, ∀ c ∈ kids, c.index < i := by
  constructor
  · intro ordered i hi
    exact ordered ⟨i⟩ hi
  · intro ordered id hid
    exact ordered id.index hid

instance (a : Arena) : Decidable a.Ordered := decidable_of_iff' _ a.ordered_iff

variable {a : Arena}

theorem lt_size_of_children? {p : NodeId} {kids : List NodeId} (hk : a.children? p = some kids) :
    p.index < a.size := by
  unfold children? at hk
  split at hk
  · cases hk
  · next hn => exact size_of_node? hn

namespace Ordered

/-- What hangs below a node stands before it. -/
theorem lt_of_child (ordered : a.Ordered) {c p : NodeId} (h : a.Child c p) : c.index < p.index := by
  obtain ⟨kids, hk, hc⟩ := h
  exact ordered.child_lt (lt_size_of_children? hk) hk hc

/-- **From node to child one cannot go on forever.** -/
theorem wellFounded (ordered : a.Ordered) : WellFounded a.Child := by
  apply Subrelation.wf (r := InvImage (· < ·) NodeId.index)
  · intro c p h
    exact ordered.lt_of_child h
  · exact InvImage.wf NodeId.index Nat.lt_wfRel.wf

/-- A node has its tree once as many levels are followed as its index tells, and any more. -/
theorem exists_treeWithin?_of_lt (ordered : a.Ordered) {id : NodeId} (hid : id.index < a.size) :
    ∃ u, ∀ depth, id.index < depth → a.treeWithin? depth id = some u := by
  obtain ⟨u, hu⟩ := ordered.exists_treeWithin? (Nat.lt_succ_self id.index) hid
  refine ⟨u, ?_⟩
  intro depth hdepth
  -- A tree that was read at one depth is the same at every greater one.
  induction hdepth with
  | refl => exact hu
  | step _ ih => exact treeWithin?_succ ih

end Ordered

end Arena

/-! ### Actions that settle -/

namespace Action

variable {σ α β : Type} {I : σ → Prop}

/-- From every state of the kind the action answers, but not that a reference dangles, and it leaves
a state of the kind. -/
def Settles (I : σ → Prop) (x : Action σ α) : Prop :=
  ∀ s, I s → ∃ r s', x s = some (r, s') ∧ r ≠ .error .dangling ∧ I s'

namespace Settles

theorem pure (a : α) : Settles I (Pure.pure a : Action σ α) := by
  intro s hs
  exact ⟨.ok a, s, rfl, nofun, hs⟩

theorem fail (c : EvalError.Cause) (id : NodeId) : Settles I (Action.fail c id : Action σ α) := by
  intro s hs
  exact ⟨.error (.error ⟨c, some id⟩), s, rfl, nofun, hs⟩

/-- Two actions one after the other. -/
theorem bind {x : Action σ α} {f : α → Action σ β} (hx : Settles I x) (hf : ∀ a, Settles I (f a)) :
    Settles I (x >>= f) := by
  intro s hs
  obtain ⟨r, s₁, answer, found, hs₁⟩ := hx s hs
  rw [bind_apply, answer]
  -- After a stop the second action is not run, and the stop is not a dangling reference.
  cases r with
  | ok a => exact hf a s₁ hs₁
  | error e =>
      refine ⟨.error e, s₁, rfl, ?_, hs₁⟩
      intro dangles
      cases dangles
      exact found rfl

theorem ofExcept (id : NodeId) (x : Except EvalError.Cause α) :
    Settles I (Action.ofExcept id x : Action σ α) := by
  cases x with
  | ok a => exact pure a
  | error c => exact fail c id

theorem expectBoolean (v : Value) (context : String) (id : NodeId) :
    Settles I (v.expectBoolean context id : Action σ Bool) := by
  cases v with
  | boolean b => exact pure b
  | _ => exact fail _ id

end Settles

end Action

open LexCell.Action (Settles)

def Heap.Has (n : Nat) (h : Heap) : Prop := n ≤ h.size

/-- There are at least `n` cells, and every variable has one. -/
def Frame.Has (n : Nat) (f : Frame) : Prop := n ≤ f.heap.size ∧ f.env.Below f.heap.size

section Cells

variable {n : Nat} {s : Slot}

theorem Heap.fetch_settles (hs : s.index < n) : Settles (Heap.Has n) (Heap.fetch s) := by
  intro h hn
  -- The cell is one of the first `n`, and there are at least so many.
  obtain ⟨v, hv⟩ := Heap.exists_get? (Nat.lt_of_lt_of_le hs hn)
  refine ⟨.ok v, h, ?_, nofun, hn⟩
  rw [Heap.fetch, hv]
  rfl

theorem Heap.overwrite_settles (hs : s.index < n) (v : Value) :
    Settles (Heap.Has n) (Heap.overwrite s v) := by
  intro h hn
  obtain ⟨h', hh⟩ := Heap.exists_set? (Nat.lt_of_lt_of_le hs hn) v
  refine ⟨.ok (), h', ?_, nofun, ?_⟩
  · rw [Heap.overwrite, hh]
  · show n ≤ h'.size
    rw [Heap.size_of_set? hh]
    exact hn

theorem Frame.declare_settles (x : Name) (v : Value) :
    Settles (Frame.Has n) (Frame.declare x v) := by
  intro f hf
  refine ⟨.ok (), ⟨f.env.bind x ⟨f.heap.size⟩, (f.heap.alloc v).2⟩, rfl, nofun, ?_⟩
  unfold Frame.Has
  -- The new cell is there for the new name, and cells are not taken away.
  rw [Heap.size_alloc]
  exact ⟨Nat.le_succ_of_le hf.1, hf.2.bind x⟩

/-- A scope of its own, for the variables that are visible where it begins. -/
theorem Frame.enclosed_settles {env : Environment} (henv : env.Below n)
    {act : Action Frame Value} (hact : Settles (Frame.Has n) act) :
    Settles (Heap.Has n) (Frame.enclosed env act) := by
  intro h hn
  obtain ⟨r, f, answer, found, hf⟩ := hact ⟨env, h⟩ ⟨hn, henv.mono hn⟩
  refine ⟨r, f.heap, ?_, found, hf.1⟩
  simp only [Frame.enclosed, answer]

end Cells

/-! ### The rules

In this section the evaluations of all nodes before the index `bound` settle. -/

/-- Wherever all visible variables have cells, the evaluation of the node settles. -/
def Evaluator.SettlesAt (evaluator : Evaluator) (id : NodeId) : Prop :=
  ∀ env n, env.Below n → Settles (Heap.Has n) (evaluator id env)

section Rules

variable {ctx : Context} {evaluator : Evaluator} {bound n : Nat}
  (below : ∀ c : NodeId, c.index < bound → evaluator.SettlesAt c)

include below

theorem within_settles {id : NodeId} (hid : id.index < bound) :
    Settles (Frame.Has n) (Frame.within (evaluator id)) := by
  intro f hf
  obtain ⟨r, h, answer, found, grown⟩ := below id hid f.env f.heap.size hf.2 f.heap (Nat.le_refl _)
  refine ⟨r, { f with heap := h }, ?_, found, Nat.le_trans hf.1 grown, hf.2.mono grown⟩
  simp only [Frame.within, answer]

theorem declareAll_settles {ds : List Declaration} (hds : ∀ d ∈ ds, d.init.index < bound) :
    Settles (Frame.Has n) (Frame.declareAll evaluator ds) := by
  induction ds with
  | nil => exact .pure Value.void
  | cons d ds ih =>
      unfold Frame.declareAll
      apply Settles.bind (within_settles below (hds d List.mem_cons_self))
      intro v
      apply Settles.bind (Frame.declare_settles d.name v)
      intro _
      apply ih
      intro d' hd'
      exact hds d' (List.mem_cons_of_mem d hd')

namespace Context

theorem statement_settles (ordered : ctx.arena.Ordered) (inside : bound ≤ ctx.arena.size)
    {id : NodeId} (hid : id.index < bound) :
    Settles (Frame.Has n) (ctx.statement evaluator id) := by
  obtain ⟨node, hn⟩ := Arena.exists_node? (Nat.lt_of_lt_of_le hid inside)
  -- The initial values are children, so they stand even further in front.
  obtain ⟨kids, hk, hlt⟩ := ordered id (Nat.lt_of_lt_of_le hid inside)
  rw [Arena.children?_of_node? hn] at hk
  unfold statement
  rw [hn, Action.deref_some, Action.pure_bind]
  cases node with
  | bind span =>
      obtain ⟨ds, hd, rfl⟩ := Option.map_eq_some_iff.mp hk
      dsimp only
      rw [hd, Action.deref_some, Action.pure_bind]
      apply declareAll_settles below
      intro d hmem
      exact Nat.lt_trans (hlt d.init (List.mem_map_of_mem hmem)) hid
  | _ => exact within_settles below hid

theorem statements_settles (ordered : ctx.arena.Ordered) (inside : bound ≤ ctx.arena.size)
    {ids : List NodeId} (hids : ∀ id ∈ ids, id.index < bound) (last : Value) :
    Settles (Frame.Has n) (ctx.statements evaluator last ids) := by
  induction ids generalizing last with
  | nil => exact .pure last
  | cons id ids ih =>
      unfold Context.statements
      apply Settles.bind (statement_settles below ordered inside (hids id List.mem_cons_self))
      apply ih
      intro id' hid'
      exact hids id' (List.mem_cons_of_mem id hid')

end Context

end Rules

namespace Context

variable {ctx : Context}

/-- One level of evaluation, of a node that is no call. -/
theorem step_settles (ordered : ctx.arena.Ordered) (callFree : ctx.arena.CallFree)
    {evaluator : Evaluator} {id : NodeId} (hid : id.index < ctx.arena.size)
    (below : ∀ c : NodeId, c.index < id.index → evaluator.SettlesAt c) :
    Evaluator.SettlesAt (ctx.step evaluator) id := by
  intro env n henv
  obtain ⟨node, hn⟩ := Arena.exists_node? hid
  obtain ⟨kids, hk, hlt⟩ := ordered id hid
  rw [Arena.children?_of_node? hn] at hk
  -- Whatever hangs below the node stands before it, so it settles by assumption.
  have operand (c : NodeId) (hc : c ∈ kids) : Settles (Heap.Has n) (evaluator c env) :=
    below c (hlt c hc) env n henv
  unfold step
  rw [hn, Action.deref_some, Action.pure_bind]
  cases node with
  | number i => exact .pure _
  | boolean b => exact .pure _
  | function param body => exact .pure _
  | malformed token => exact .fail _ id
  -- The one node whose evaluation leaves the tree below it, ruled out.
  | call callee argument => exact nomatch callFree _ (Array.mem_of_getElem? hn)
  | unary op x =>
      cases hk
      apply Settles.bind (operand x (by simp))
      intro v
      exact .ofExcept id _
  | binary op x y =>
      cases hk
      apply Settles.bind (operand x (by simp))
      intro a
      apply Settles.bind (operand y (by simp))
      intro b
      exact .ofExcept id _
  | logical op x y =>
      cases hk
      apply Settles.bind (operand x (by simp))
      intro v
      apply Settles.bind (.expectBoolean v op.context id)
      intro a
      split
      · exact .pure _
      · apply Settles.bind (operand y (by simp))
        intro w
        apply Settles.bind (.expectBoolean w op.context id)
        intro b
        exact .pure _
  | conditional x y z =>
      cases hk
      apply Settles.bind (operand x (by simp))
      intro v
      apply Settles.bind (.expectBoolean v "conditional" id)
      intro b
      split
      · exact operand y (by simp)
      · exact operand z (by simp)
  | ident x =>
      dsimp only
      split
      · -- a visible variable has a cell, so reading it does not dangle
        next s hs => exact Heap.fetch_settles (henv x s hs)
      · exact .fail _ id
  | assign x v =>
      cases hk
      dsimp only
      split
      · next s hs =>
        apply Settles.bind (operand v (by simp))
        intro w
        apply Settles.bind (Heap.overwrite_settles (henv x s hs) w)
        intro _
        exact .pure _
      · exact .fail _ id
  | bind span =>
      obtain ⟨ds, hd, rfl⟩ := Option.map_eq_some_iff.mp hk
      dsimp only
      rw [hd, Action.deref_some, Action.pure_bind]
      apply Frame.enclosed_settles henv
      apply declareAll_settles below
      intro d hmem
      exact hlt d.init (List.mem_map_of_mem hmem)
  | block span =>
      have hd : ctx.arena.statements? span = some kids := hk
      dsimp only [sequence]
      rw [hd, Action.deref_some, Action.pure_bind]
      apply Frame.enclosed_settles henv
      exact statements_settles below ordered (Nat.le_of_lt hid) hlt .void

/-- **Without calls evaluation settles**, and fuel for as many levels as the index tells is
enough. -/
theorem eval_settles (ordered : ctx.arena.Ordered) (callFree : ctx.arena.CallFree) {fuel : Nat}
    {id : NodeId} (hfuel : id.index < fuel) (hid : id.index < ctx.arena.size) :
    (ctx.eval fuel).SettlesAt id := by
  induction fuel generalizing id with
  | zero => omega
  | succ fuel ih => -- one level is used up here, and the index of a child is at least one less
      apply step_settles ordered callFree hid
      intro c hc
      apply ih
      · omega
      · omega

end Context

/-! ### Where recursion ends -/

/-- An action that settles, and one for each amount of fuel from there on that answers what it
answers, give one answer with all that fuel. -/
theorem Action.Settles.exists_answer {σ α : Type} {I : σ → Prop} {x : Nat → Action σ α} {n : Nat}
    (settles : Settles I (x n)) (more : ∀ m, n ≤ m → (x n).AnsweredBy (x m)) {s : σ} (hs : I s) :
    ∃ r s', r ≠ .error .dangling ∧ ∀ m, n ≤ m → x m s = some (r, s') := by
  obtain ⟨r, s', answer, found, -⟩ := settles s hs
  refine ⟨r, s', found, ?_⟩
  intro m hm
  exact (more m hm).eq_some answer

namespace Context

variable {ctx : Context}

theorem eval_answeredBy_of_le {n m : Nat} (hle : n ≤ m) (id : NodeId) (env : Environment) :
    (ctx.eval n id env).AnsweredBy (ctx.eval m id env) := by
  constructor
  · intro h v h' answer
    exact eval_of_le hle answer
  · intro h e h' answer
    exact .inr ⟨e, rfl, eval_of_le hle answer⟩

/-- The tree below a node is there, and only a name without a text is in the way of its written
form. -/
theorem writing_ends (ordered : ctx.arena.Ordered) {id : NodeId} (hid : id.index < ctx.arena.size) :
    ∃ u, (∀ depth, id.index < depth → ctx.arena.treeWithin? depth id = some u) ∧
      (∀ t : Interner, ctx.arena.render? t id = (u.traverse t.text?).map Tree.render) ∧
      ∀ t, ctx.arena.NamesIn t → ∃ text, ctx.arena.render? t id = some text := by
  obtain ⟨u, hu⟩ := ordered.exists_treeWithin?_of_lt hid
  refine ⟨u, hu, ?_, ?_⟩
  · intro t
    have tree : ctx.arena.tree? id = some u := hu ctx.arena.size hid
    unfold Arena.render?
    rw [tree, Option.bind_eq_bind, Option.bind_some, Option.map_eq_bind]
    rfl
  · intro t names
    exact ordered.exists_render? names hid

section CallFree

variable (ordered : ctx.arena.Ordered) (callFree : ctx.arena.CallFree)

include ordered callFree

theorem settlesAt_of_lt {fuel : Nat} {c : NodeId} (hc : c.index < fuel)
    (inside : fuel ≤ ctx.arena.size) : (ctx.eval fuel).SettlesAt c :=
  eval_settles ordered callFree hc (Nat.lt_of_lt_of_le hc inside)

theorem expression_ends {id : NodeId} {env : Environment} {h : Heap}
    (hid : id.index < ctx.arena.size) (henv : env.Below h.size) :
    ∃ r h', r ≠ .error .dangling ∧
      ∀ fuel, id.index + 1 ≤ fuel → ctx.eval fuel id env h = some (r, h') := by
  have settles := settlesAt_of_lt ordered callFree (Nat.lt_succ_self id.index) hid
  apply Action.Settles.exists_answer (x := fun fuel => ctx.eval fuel id env)
    (settles env h.size henv)
  · intro m hm
    exact eval_answeredBy_of_le hm id env
  · exact Nat.le_refl h.size

theorem statement_ends {id : NodeId} {f : Frame} (hid : id.index < ctx.arena.size)
    (henv : f.env.Below f.heap.size) :
    ∃ r f', r ≠ .error .dangling ∧
      ∀ fuel, id.index + 1 ≤ fuel → ctx.statement (ctx.eval fuel) id f = some (r, f') := by
  have settles : Settles (Frame.Has 0) (ctx.statement (ctx.eval (id.index + 1)) id) := by
    apply statement_settles _ ordered hid (Nat.lt_succ_self id.index)
    intro c hc
    exact settlesAt_of_lt ordered callFree hc hid
  apply Action.Settles.exists_answer (x := fun fuel => ctx.statement (ctx.eval fuel) id) settles
  · intro m hm
    exact ctx.statement_answeredBy (eval_answeredBy_of_le hm) id
  · exact ⟨Nat.zero_le _, henv⟩

/-- A list of nodes need not stand anywhere in the arena. Where a span covers it, what the span
names is run. -/
theorem statements_end {ids : List NodeId} {bound : Nat} {f : Frame}
    (hids : ∀ id ∈ ids, id.index < bound) (inside : bound ≤ ctx.arena.size)
    (henv : f.env.Below f.heap.size) :
    ∃ r f', r ≠ .error .dangling ∧ ∀ fuel, bound ≤ fuel →
      ctx.statements (ctx.eval fuel) .void ids f = some (r, f') ∧
      ∀ span, ctx.arena.statements? span = some ids →
        ctx.sequence (ctx.eval fuel) span f = some (r, f') := by
  have settles : Settles (Frame.Has 0) (ctx.statements (ctx.eval bound) .void ids) := by
    apply statements_settles _ ordered inside hids .void
    intro c hc
    exact settlesAt_of_lt ordered callFree hc inside
  obtain ⟨r, f', found, answer⟩ := Action.Settles.exists_answer
    (x := fun fuel => ctx.statements (ctx.eval fuel) .void ids) settles
    (fun m hm => ctx.statements_answeredBy (eval_answeredBy_of_le hm) ids .void)
    ⟨Nat.zero_le _, henv⟩
  refine ⟨r, f', found, ?_⟩
  intro fuel enough
  refine ⟨answer fuel enough, ?_⟩
  intro span covered
  unfold sequence
  rw [covered, Action.deref_some, Action.pure_bind]
  exact answer fuel enough

end CallFree

/-- **Recursion over the nodes of a program ends.** In every arena whose ranges are in bounds and
whose children stand before their parents, and that of a document that is accepted is one, nobody
goes from node to child forever. So a node is written after as many levels as its index tells: the
tree below it is there, and only a name without a text is in the way of its written form. If there
is no call, then every expression, statement and list of statements is evaluated to an end from
where all variables have cells, whether or not the arena holds the list. Fuel for as many levels as
the index of the node tells is enough (for statements, of the last node that any of them may be),
more fuel changes nothing, and no reference dangles. -/
theorem recursion_ends (ctx : Context) (ordered : ctx.arena.Ordered) :
    (∀ doc t p t', Program.ofJson doc t = (.ok p, t') → p.arena.Ordered) ∧
    WellFounded ctx.arena.Child ∧
    (∀ id : NodeId, id.index < ctx.arena.size → ∃ u,
      (∀ depth, id.index < depth → ctx.arena.treeWithin? depth id = some u) ∧
      (∀ t : Interner, ctx.arena.render? t id = (u.traverse t.text?).map Tree.render) ∧
      ∀ t, ctx.arena.NamesIn t → ∃ text, ctx.arena.render? t id = some text) ∧
    (ctx.arena.CallFree →
      (∀ (id : NodeId) (env : Environment) (h : Heap), id.index < ctx.arena.size →
        env.Below h.size → ∃ r h', r ≠ .error .dangling ∧
          ∀ fuel, id.index + 1 ≤ fuel → ctx.eval fuel id env h = some (r, h')) ∧
      (∀ (id : NodeId) (f : Frame), id.index < ctx.arena.size → f.env.Below f.heap.size →
        ∃ r f', r ≠ .error .dangling ∧
          ∀ fuel, id.index + 1 ≤ fuel → ctx.statement (ctx.eval fuel) id f = some (r, f')) ∧
      ∀ (ids : List NodeId) (bound : Nat) (f : Frame), (∀ id ∈ ids, id.index < bound) →
        bound ≤ ctx.arena.size → f.env.Below f.heap.size → ∃ r f', r ≠ .error .dangling ∧
          ∀ fuel, bound ≤ fuel →
            ctx.statements (ctx.eval fuel) .void ids f = some (r, f') ∧
            ∀ span, ctx.arena.statements? span = some ids →
              ctx.sequence (ctx.eval fuel) span f = some (r, f')) := by
  refine ⟨?_, ordered.wellFounded, ?_, ?_⟩
  · intro doc t p t' read
    obtain ⟨ids, wf⟩ := Program.wellFormed_of_ofJson read
    exact wf.order.ordered
  · intro id hid
    exact writing_ends ordered hid
  · intro callFree
    refine ⟨?_, ?_, ?_⟩
    · intro id env h hid henv
      exact expression_ends ordered callFree hid henv
    · intro id f hid henv
      exact statement_ends ordered callFree hid henv
    · intro ids bound f hids inside henv
      exact statements_end ordered callFree hids inside henv

end Context

/-- The block `{ let f = 1; f = f; x => f }`, after its parts. -/
def Arena.nested : Arena where
  nodes := #[.number 1, .bind ⟨0, 1⟩, .ident ⟨1⟩, .assign ⟨1⟩ ⟨2⟩, .function ⟨2⟩ ⟨2⟩, .block ⟨0, 3⟩]
  statementLists := #[⟨1⟩, ⟨3⟩, ⟨4⟩]
  declarations := #[⟨⟨1⟩, ⟨0⟩⟩]

/-- The block is the sixth node, and six levels are enough for it. -/
theorem Context.nested_ends :
    Arena.nested.Ordered ∧ Arena.nested.CallFree ∧ WellFounded Arena.nested.Child ∧
      ∀ fuel, 6 ≤ fuel →
        Context.eval ⟨Arena.nested, Interner.sample⟩ fuel ⟨5⟩ .empty .empty =
          some (.ok (.function ⟨.bind .empty ⟨1⟩ ⟨0⟩, ⟨2⟩, ⟨2⟩⟩), ⟨#[.number 1]⟩) := by
  have ordered : Arena.nested.Ordered := by decide
  have callFree : Arena.nested.CallFree := by decide
  obtain ⟨-, wellFounded, -, ends⟩ :=
    recursion_ends ⟨Arena.nested, Interner.sample⟩ ordered
  refine ⟨ordered, callFree, wellFounded, ?_⟩
  obtain ⟨r, h', -, answer⟩ := (ends callFree).1 ⟨5⟩ .empty .empty (by decide) .empty
  have six : Context.eval ⟨Arena.nested, Interner.sample⟩ 6 ⟨5⟩ .empty .empty =
      some (.ok (.function ⟨.bind .empty ⟨1⟩ ⟨0⟩, ⟨2⟩, ⟨2⟩⟩), ⟨#[.number 1]⟩) := by
    decide +kernel
  intro fuel enough
  rw [answer fuel enough, ← answer 6 (Nat.le_refl 6), six]

end LexCell
