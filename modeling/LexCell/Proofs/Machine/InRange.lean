import LexCell.Proofs.Arena.ReadBack
import LexCell.Proofs.Machine.Discipline

/-!
# No reference dangles

A step looks up at most two references: a node, and what that node covers or the cell that a name
stands for (`Moment.lookups`). For an arena in which every child can be read, all of them hold at
every moment of a run (`Moment.InRange`, `inRange_of_run`), and a step whose lookups hold does not
stop for a reference that dangles (`Step.not_dangles`).

The slots and bodies that a move uses come out of environments and closures, so the invariant
speaks of all environments and all closures there are: it is the discipline `Discipline.inRange`.
The nodes at fault that errors name are kept apart from it (`Step.sites`), since they come from
what waits and not from environments.
-/

namespace LexCell

/-! ### What a move looks up

These are all the places in which the definition of the moves asks a table for an entry. The entry
may be absent, and then the move is a stop. -/

/-- An entry of a table, or a range of entries. -/
inductive Reference where
  | node (id : NodeId)
  | statements (span : Span)
  | declarations (span : Span)
  | cell (s : Slot)

/-- The table reaches that far. -/
def Reference.Holds (a : Arena) (h : Heap) : Reference → Prop
  | node id => id.index < a.size
  | statements span => span.start + span.length ≤ a.statementLists.size
  | declarations span => span.start + span.length ≤ a.declarations.size
  | cell s => s.index < h.size

/-- What a node makes its evaluation look up. -/
def Node.lookups (env : Environment) : Node → List Reference
  | .ident n => (env.resolve n).toList.map .cell
  | .bind span => [.declarations span]
  | .block span => [.statements span]
  | _ => []

/-- What a node makes its execution as a statement look up; if it is no `let`, its evaluation is
the move after. -/
def Node.statementLookups : Node → List Reference
  | .bind span => [.declarations span]
  | _ => []

/-- All that the next move looks up. -/
def Moment.lookups (a : Arena) : Moment → List Reference
  | ⟨.expression id env, _, _⟩ => .node id :: (a.node? id).toList.flatMap (Node.lookups env)
  | ⟨.statement id _, _, _⟩ => .node id :: (a.node? id).toList.flatMap Node.statementLookups
  | ⟨.outcome (.ok _), .assigned _ _ s :: _, _⟩ => [.cell s]
  | _ => []

def Focus.Dangles : Focus → Prop
  | .outcome (.error .dangling) | .ended (.error .dangling) _ => True
  | _ => False

/-- A node in range is there. -/
theorem Arena.exists_node? {a : Arena} {id : NodeId} (h : id.index < a.size) :
    ∃ n, a.node? id = some n := ⟨_, Array.getElem?_eq_getElem h⟩

/-- A span in range covers entries. -/
theorem Span.exists_of? {α : Type} {span : Span} {table : Array α}
    (h : span.start + span.length ≤ table.size) : ∃ xs, span.of? table = some xs := ⟨_, if_pos h⟩

/-- Only a span in range covers entries. -/
theorem Span.le_of_of? {α : Type} {span : Span} {table : Array α} {xs : List α}
    (h : span.of? table = some xs) : span.start + span.length ≤ table.size := by
  unfold Span.of? at h
  split at h
  · assumption
  · cases h

namespace Context

variable {ctx : Context}

private theorem holds_of_mem_lookups {id : NodeId} {env : Environment} {k : List Pending} {h : Heap}
    {n : Node} (hn : ctx.arena.node? id = some n)
    (holds : ∀ r ∈ Moment.lookups ctx.arena ⟨.expression id env, k, h⟩, r.Holds ctx.arena h)
    {r : Reference} (hr : r ∈ n.lookups env) : r.Holds ctx.arena h := by
  refine holds r (List.mem_cons_of_mem _ (List.mem_flatMap.mpr ⟨n, ?_, hr⟩))
  exact Option.mem_toList.mpr hn

private theorem outcomeAt_not_dangles (id : NodeId) (x : Except EvalError.Cause Value) :
    ¬ (Focus.outcome (Stop.outcomeAt id x)).Dangles := by
  cases x <;> exact not_false

/-- **A step whose lookups hold does not stop for a reference that dangles.** -/
theorem Step.not_dangles {m m' : Moment} {b : Option Birth} (hs : ctx.Step m b m')
    (holds : ∀ r ∈ m.lookups ctx.arena, r.Holds ctx.arena m.heap) (hd : ¬ m.focus.Dangles) :
    ¬ m'.focus.Dangles := by
  cases hs with
  -- These answer that something dangles, and a lookup that holds says it does not.
  | no_node hn | statement_no_node hn =>
      obtain ⟨n, hn'⟩ := Arena.exists_node? (holds _ List.mem_cons_self)
      rw [hn] at hn'
      cases hn'
  | @ident_dangling _ env _ _ n s hn hs hv =>
      have cell : .cell s ∈ Node.lookups env (.ident n) := by
        refine List.mem_map.mpr ⟨s, ?_, rfl⟩
        exact Option.mem_toList.mpr hs
      obtain ⟨v, hv'⟩ := Heap.exists_get? (holds_of_mem_lookups hn holds cell)
      rw [hv] at hv'
      cases hv'
  | bind_dangling hn hx | block_dangling hn hx =>
      have span := holds_of_mem_lookups hn holds (List.mem_singleton_self _)
      obtain ⟨xs, hx'⟩ := Span.exists_of? span
      exact absurd (hx.symm.trans hx') nofun
  | statement_dangling hn hx =>
      have span := holds _ (List.mem_cons_of_mem _ (List.mem_flatMap.mpr
        ⟨_, Option.mem_toList.mpr hn, List.mem_singleton_self _⟩))
      obtain ⟨ds, hx'⟩ := Span.exists_of? span
      exact absurd (hx.symm.trans hx') nofun
  | @assigned_dangling v _ _ s _ _ hs =>
      obtain ⟨h', hs'⟩ := Heap.exists_set? (holds (.cell s) (List.mem_singleton_self _)) v
      exact absurd (hs.symm.trans hs') nofun
  -- A stop that goes on is the same stop.
  | passes => exact hd
  | @declared_error e | @within_error e | @sequence_error e => cases e <;> exact hd
  | @enclosed r => rcases r with (e | _) | v <;> exact hd
  | operand | right => exact outcomeAt_not_dangles _ _
  | _ => exact not_false

end Context

/-! ### Nodes at fault

An error names a node that waits for a value or is just evaluated. So these nodes are kept track of,
with the one fact that each was looked up before. -/

def Stop.sites : Stop → List NodeId
  | .error e => e.node.toList
  | .dangling => []

def Focus.sites : Focus → List NodeId
  | .outcome (.error e) | .ended (.error e) _ => e.sites
  | _ => []

/-- The node that is at fault if the value is not the right one. -/
def Pending.sites : Pending → List NodeId
  | .operand id _ | .left id _ _ _ | .right id _ _ | .guard id _ _ _ | .truth id _
  | .test id _ _ _ | .callee id _ _ | .argument id _ | .assigned id _ _ => [id]
  | .declared .. | .within _ | .sequence _ | .enclosed => []

def Moment.sites (m : Moment) : List NodeId := m.focus.sites ++ m.pending.flatMap Pending.sites

namespace Context

variable {ctx : Context}

private theorem sites_outcomeAt {id x : NodeId} {r : Except EvalError.Cause Value}
    {k : List Pending} {h : Heap} (hx : x ∈ Moment.sites ⟨.outcome (Stop.outcomeAt id r), k, h⟩) :
    x ∈ id :: k.flatMap Pending.sites := by
  cases r with
  | ok v => exact List.mem_cons_of_mem _ hx
  | error c => exact hx

/-- A step makes a node a candidate for being at fault only if it has looked the node up. -/
theorem Step.sites {m m' : Moment} {b : Option Birth} (hs : ctx.Step m b m') {x : NodeId}
    (hx : x ∈ m'.sites) : x ∈ m.sites ∨ ∃ n, ctx.arena.node? x = some n := by
  cases hs with
  -- These put the node that was looked up in front of the candidates.
  | unary hn | binary hn | logical hn | conditional hn | call hn | malformed hn
  | ident_unbound hn _ | assign hn _ | assign_unbound hn _ =>
      rcases List.mem_cons.mp hx with rfl | hx
      · exact .inr ⟨_, hn⟩
      · exact .inl hx
  | operand | right => exact .inl (sites_outcomeAt hx)
  -- These drop the node that waited.
  | guard_short | truth | test | argument | assigned | assigned_dangling =>
      exact .inl (List.mem_cons_of_mem _ hx)
  | passes =>
      refine .inl (List.mem_append.mpr ((List.mem_append.mp hx).imp_right fun hx => ?_))
      exact List.mem_append_right _ hx
  | @enclosed r => cases r <;> exact .inl hx
  | _ => exact .inl hx

end Context

/-! ### The discipline

What runs is in the arena and what is visible was born. Of the arena only one thing is used:
children can be read and are nodes. -/

/-- What is evaluated in its node's own environment hangs below the node. -/
theorem Node.mem_children_of_mem_operands {a : Arena} {n : Node} {kids : List NodeId}
    (hk : n.children? a = some kids) {c : NodeId} (hc : c ∈ n.operands) : c ∈ kids := by
  cases n with
  | unary | binary | logical | conditional | call | assign =>
      cases hk
      exact hc
  | _ => cases hc

namespace Arena

/-- Every node's children can be read and are nodes. -/
def Closed (a : Arena) : Prop :=
  ∀ id n, a.node? id = some n → ∃ kids, n.children? a = some kids ∧ ∀ c ∈ kids, c.index < a.size

/-- Children that come before their node are nodes. -/
theorem Ordered.closed {a : Arena} (ha : a.Ordered) : a.Closed := by
  intro id n hn
  have hid := size_of_node? hn
  obtain ⟨kids, hk, hlt⟩ := ha id hid
  rw [children?_of_node? hn] at hk
  exact ⟨kids, hk, fun c hc => Nat.lt_trans (hlt c hc) hid⟩

/-- A child of a node is a node. -/
theorem Closed.child {a : Arena} (ha : a.Closed) {id c : NodeId} {n : Node} {kids : List NodeId}
    (hn : a.node? id = some n) (hk : n.children? a = some kids) (hc : c ∈ kids) :
    c.index < a.size := by
  obtain ⟨kids', hk', hlt⟩ := ha id n hn
  rw [hk] at hk'
  cases hk'
  exact hlt c hc

end Arena

/-- Every slot of the environment is one of the first `size`. -/
def Environment.Below (env : Environment) (size : Nat) : Prop :=
  ∀ n s, env.resolve n = some s → s.index < size

namespace Environment.Below

variable {env : Environment} {size : Nat}

/-- With more cells there are more slots. -/
theorem mono (h : env.Below size) {size' : Nat} (hle : size ≤ size') : env.Below size' :=
  fun n s hs => Nat.lt_of_lt_of_le (h n s hs) hle

theorem succ (h : env.Below size) : env.Below (size + 1) := h.mono (Nat.le_succ size)

/-- A new variable stands for the next cell. -/
theorem bind (h : env.Below size) (n : Name) : (env.bind n ⟨size⟩).Below (size + 1) := by
  intro m s hs
  rw [Environment.resolve_bind] at hs
  split at hs
  · cases hs
    exact Nat.lt_succ_self size
  · exact h.succ m s hs

theorem empty : Environment.empty.Below size := nofun

end Environment.Below

def Use.nodes : Use → List NodeId
  | .expression id => [id]
  | .statements ids => ids
  | .declarations _ _ ds => ds.map Declaration.init

/-- Every node that runs is one of the arena, and every slot of every environment that of a cell
that was born. -/
def Discipline.inRange (ctx : Context) (ha : ctx.arena.Closed) : Discipline ctx where
  admits births use env := (∀ id ∈ use.nodes, id.index < ctx.arena.size) ∧ env.Below births.length
  environment births env := env.Below births.length
  closure births c := c.body.index < ctx.arena.size ∧ c.env.Below births.length
  target births _ s := s.index < births.length
  follows _ ids := ∀ id ∈ ids, id.index < ctx.arena.size
  admits_grow h := by
    rw [List.length_append]
    exact ⟨h.1, h.2.succ⟩
  environment_grow h := by
    rw [List.length_append]
    exact h.succ
  closure_grow h := by
    rw [List.length_append]
    exact ⟨h.1, h.2.succ⟩
  target_grow h := by
    rw [List.length_append]
    exact Nat.lt_succ_of_lt h
  environment_of_admits h := h.2
  environment_of_closure h := h.2
  -- The parts that share the environment of the node are among its children.
  operand h hn hc := by
    obtain ⟨kids, hk, hlt⟩ := ha _ _ hn
    refine ⟨?_, h.2⟩
    rintro _ (_ | ⟨_, ⟨⟩⟩)
    exact hlt _ (Node.mem_children_of_mem_operands hk hc)
  -- The same environment for the declarations, whose initial values are children.
  bind h hn hd := ⟨fun _ => ha.child hn (Option.map_eq_some_iff.mpr ⟨_, hd, rfl⟩), h.2⟩
  block h hn hd := ⟨fun _ => ha.child hn hd, h.2⟩
  function h hn := ⟨ha.child hn rfl List.mem_cons_self, h.2⟩
  assign h hn hs := h.2 _ _ hs
  init h := by
    refine ⟨?_, h.2⟩
    rintro _ (_ | ⟨_, ⟨⟩⟩)
    exact h.1 _ List.mem_cons_self
  declared h := by
    rw [List.length_append]
    exact ⟨fun id hid => h.1 id (List.mem_cons_of_mem _ hid), h.2.bind _⟩
  statement h := by
    refine ⟨?_, h.2⟩
    rintro _ (_ | ⟨_, ⟨⟩⟩)
    exact h.1 _ List.mem_cons_self
  rest h _ _ := ⟨fun id hid => h.1 id (List.mem_cons_of_mem _ hid), h.2⟩
  rest_of_bind h _ := fun id hid => h.1 id (List.mem_cons_of_mem _ hid)
  declared_all h hf := ⟨hf, h.2⟩
  call h := by
    rw [List.length_append]
    refine ⟨?_, h.2.bind _⟩
    rintro _ (_ | ⟨_, ⟨⟩⟩)
    exact h.1

/-! ### Runs stay in range

The invariant for users of the machine: the discipline gives the environments and bodies, the nodes
at fault are carried along beside it. -/

/-- All that is or may be looked up from here on is there. -/
structure Moment.InRange (a : Arena) (m : Moment) : Prop where
  /-- What the next move looks up. -/
  lookups : ∀ r ∈ m.lookups a, r.Holds a m.heap
  /-- The cells of all variables of all environments. -/
  environments : ∀ E ∈ m.environments, E.Below m.heap.size
  /-- The bodies of all functions there are. -/
  bodies : ∀ c, .function c ∈ m.values → c.body.index < a.size
  /-- The nodes that are at fault or may become so. -/
  sites : ∀ id ∈ m.sites, id.index < a.size
  /-- No reference that dangles was met. -/
  focus : ¬ m.focus.Dangles

section InRange

variable {ctx : Context} {ha : ctx.arena.Closed} {births : List Birth}

private theorem lookups_of_obeys {m : Moment} (h : m.Obeys (.inRange ctx ha) births) :
    ∀ r ∈ m.lookups ctx.arena, r.Holds ctx.arena m.heap := by
  obtain ⟨focus, k, heap⟩ := m
  obtain ⟨hf, hk, -, size⟩ := h
  -- Only a focus on a node looks anything up, and a value that is to be assigned.
  cases focus with
  | expression id env =>
      intro r hr
      rcases List.mem_cons.mp hr with rfl | hr
      · exact hf.1 id (List.mem_singleton_self id)
      obtain ⟨n, hn, hr⟩ := List.mem_flatMap.mp hr
      have hn := Option.mem_toList.mp hn
      -- The arena is closed, so the entries that the node covers are there.
      obtain ⟨kids, hc, -⟩ := ha id n hn
      cases n with
      | ident n =>
          obtain ⟨s, hs, rfl⟩ := List.mem_map.mp hr
          show s.index < heap.size
          rw [size]
          exact hf.2 n s (Option.mem_toList.mp hs)
      | bind span =>
          rw [List.mem_singleton.mp hr]
          obtain ⟨ds, hd, -⟩ := Option.map_eq_some_iff.mp hc
          exact Span.le_of_of? hd
      | block span =>
          rw [List.mem_singleton.mp hr]
          exact Span.le_of_of? hc
      | _ => cases hr
  | statement id env =>
      intro r hr
      rcases List.mem_cons.mp hr with rfl | hr
      · exact hf.1.1 id (List.mem_singleton_self id)
      obtain ⟨n, hn, hr⟩ := List.mem_flatMap.mp hr
      have hn := Option.mem_toList.mp hn
      obtain ⟨kids, hc, -⟩ := ha id n hn
      cases n with
      | bind span =>
          rw [List.mem_singleton.mp hr]
          obtain ⟨ds, hd, -⟩ := Option.map_eq_some_iff.mp hc
          exact Span.le_of_of? hd
      | _ => cases hr
  | outcome r =>
      cases k with
      | nil => cases r <;> exact nofun
      | cons p k =>
          cases r with
          | error e => exact nofun
          | ok v =>
              cases p with
              | assigned id n s =>
                  intro r hr
                  rw [List.mem_singleton.mp hr]
                  show s.index < heap.size
                  rw [size]
                  exact hk.1
              | _ => exact nofun
  | statements | declarations | ended => exact nofun

private theorem sites_of_run {m m' : Moment} {born : List Birth}
    (h : ∀ id ∈ m.sites, ∃ n, ctx.arena.node? id = some n) (hr : ctx.Run m born m') :
    ∀ id ∈ m'.sites, ∃ n, ctx.arena.node? id = some n := by
  induction hr with
  | refl => exact h
  | move _ hm ih =>
      intro id hid
      -- A candidate was one before, or it was just looked up.
      rcases (Context.next_step hm).sites hid with hid | hn
      · exact ih id hid
      · exact hn

private theorem not_dangles_of_run {m m' : Moment} {born : List Birth}
    (h : m.Obeys (.inRange ctx ha) births) (hd : ¬ m.focus.Dangles) (hr : ctx.Run m born m') :
    ¬ m'.focus.Dangles := by
  induction hr with
  | refl => exact hd
  | move hr hm ih => exact (Context.next_step hm).not_dangles (lookups_of_obeys (h.run hr)) ih

/-- **A run that begins in range stays in range.** -/
theorem inRange_of_run {m m' : Moment} {born : List Birth}
    (h : m.Obeys (.inRange ctx ha) births) (hd : ¬ m.focus.Dangles)
    (hs : ∀ id ∈ m.sites, ∃ n, ctx.arena.node? id = some n) (hr : ctx.Run m born m') :
    m'.InRange ctx.arena := by
  -- One part of the invariant after the other, each from the discipline at the last moment.
  have obeys := h.run hr
  refine ⟨lookups_of_obeys obeys, ?_, ?_, ?_, not_dangles_of_run h hd hr⟩
  · intro E hE
    rw [obeys.size]
    exact obeys.environment hE
  · exact fun c hc => (obeys.value hc).1
  · intro id hid
    obtain ⟨n, hn⟩ := sites_of_run hs hr id hid
    exact Arena.size_of_node? hn

end InRange

end LexCell
