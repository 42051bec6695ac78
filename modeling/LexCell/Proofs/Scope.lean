import LexCell.Proofs.Arena.ReadBack
import LexCell.Proofs.Machine.Discipline

/-!
# Scopes

What is visible at a node, read off the program alone: a `Scope` maps a name to its binder, a
declaration of a `let` or the parameter of a function. A `let` in a list of statements extends the
scope of the statements after it, any `let` that of its own later initial values, and a function
that of its body (`Scope.Inner`). In a program whose trees stand in postorder every node has exactly
one scope (`Program.WellFormed.existsUnique_scope`): at least one since every node is reached from
the body, and at most one since no node is reached in two ways.
-/

/-- Where no two entries have the same image, an image belongs to one place. -/
theorem List.prefix_eq_of_nodup_map {α β : Type} {f : α → β} {pre pre' post post' : List α}
    {x x' : α} (h : ((pre ++ x :: post).map f).Nodup)
    (e : pre ++ x :: post = pre' ++ x' :: post') (hx : f x = f x') : pre = pre' := by
  have at_pre : ((pre ++ x :: post).map f)[pre.length]? = some (f x) := by simp
  have at_pre' : ((pre ++ x :: post).map f)[pre'.length]? = some (f x) := by
    rw [e, hx]
    simp
  -- The image is at both places, and it is at one place only.
  have length : pre.length = pre'.length :=
    (List.getElem?_inj (by simp) h).mp (at_pre.trans at_pre'.symm)
  exact (List.append_inj e length).1

/-- In a list without repetitions an entry stands at one place. -/
theorem List.prefix_eq_of_nodup {α : Type} {pre pre' post post' : List α} {x : α}
    (h : (pre ++ x :: post).Nodup) (e : pre ++ x :: post = pre' ++ x :: post') : pre = pre' := by
  rw [← List.map_id (pre ++ x :: post)] at h
  exact List.prefix_eq_of_nodup_map h e rfl

namespace LexCell

inductive Binder where
  /-- The declaration with this number of the `let` at a node. -/
  | declaration (bind : NodeId) (index : Nat)
  /-- The parameter of the function at a node. -/
  | parameter (function : NodeId)

/-- The visible names, each with its binder. -/
def Scope : Type := Name → Option Binder

namespace Scope

def empty : Scope := fun _ => none

def extend (σ : Scope) (n : Name) (b : Binder) : Scope := fun m => if m = n then some b else σ m

/-- The scope after declarations of the `let` at `bind`, of which the first has number `index`. -/
def declareAll (σ : Scope) (bind : NodeId) : Nat → List Declaration → Scope
  | _, [] => σ
  | index, d :: ds => (σ.extend d.name (.declaration bind index)).declareAll bind (index + 1) ds

def after (a : Arena) (σ : Scope) (id : NodeId) : Scope :=
  match a.node? id with
  | some (.bind span) => σ.declareAll id 0 ((a.declarations? span).getD [])
  | _ => σ

def afterAll (a : Arena) (σ : Scope) (ids : List NodeId) : Scope := ids.foldl (after a) σ

/-- If `σ` is the scope of the node at `id`, then the scope of its child `c` is `σ'`. -/
inductive Inner (a : Arena) (id : NodeId) (σ : Scope) : NodeId → Scope → Prop where
  | operand {n : Node} {c : NodeId} :
      a.node? id = some n → c ∈ n.operands → Inner a id σ c σ
  | init {span : Span} {pre post : List Declaration} {d : Declaration} :
      a.node? id = some (.bind span) → a.declarations? span = some (pre ++ d :: post) →
      Inner a id σ d.init (σ.declareAll id 0 pre)
  | statement {span : Span} {pre post : List NodeId} {c : NodeId} :
      a.node? id = some (.block span) → a.statements? span = some (pre ++ c :: post) →
      Inner a id σ c (σ.afterAll a pre)
  | body {param : Name} {body : NodeId} :
      a.node? id = some (.function param body) →
      Inner a id σ body (σ.extend param (.parameter id))

end Scope

/-- The scope of the node at `id` in the program is `σ`. -/
inductive Program.Scoped (p : Program) : NodeId → Scope → Prop where
  | statement {pre post : List NodeId} {id : NodeId} :
      p.statements? = some (pre ++ id :: post) → Scoped p id (Scope.empty.afterAll p.arena pre)
  | inner {id c : NodeId} {σ σ' : Scope} :
      Scoped p id σ → σ.Inner p.arena id c σ' → Scoped p c σ'

/-! ### Scopes of children -/

theorem Scope.declareAll_append (σ : Scope) (bind : NodeId) (index : Nat) (pre : List Declaration)
    (d : Declaration) :
    σ.declareAll bind index (pre ++ [d]) =
      (σ.declareAll bind index pre).extend d.name (.declaration bind (index + pre.length)) := by
  induction pre generalizing σ index with
  | nil => rfl
  | cons e pre ih =>
      have number : index + 1 + pre.length = index + (pre.length + 1) := by omega
      show ((σ.extend e.name _).declareAll bind (index + 1) (pre ++ [d])) = _
      rw [ih, number]
      rfl

namespace Scope.Inner

variable {a : Arena} {id c : NodeId} {σ σ' σ'' : Scope}

/-- What has an inner scope is a child. -/
theorem exists_children (h : σ.Inner a id c σ') :
    ∃ kids, a.children? id = some kids ∧ c ∈ kids := by
  cases h with
  | @operand n _ hn hc =>
      rw [Arena.children?_of_node? hn]
      -- Only these have operands.
      cases n with
      | unary | binary | logical | conditional | call | assign => exact ⟨_, rfl, hc⟩
      | _ => cases hc
  | init hn hd =>
      rw [Arena.children?_of_node? hn]
      refine ⟨_, Option.map_eq_some_iff.mpr ⟨_, hd, rfl⟩, ?_⟩
      exact List.mem_map_of_mem (List.mem_append_right _ List.mem_cons_self)
  | statement hn hd =>
      rw [Arena.children?_of_node? hn]
      exact ⟨_, hd, List.mem_append_right _ List.mem_cons_self⟩
  | body hn =>
      rw [Arena.children?_of_node? hn]
      exact ⟨_, rfl, List.mem_cons_self⟩

/-- Every child has an inner scope. -/
theorem exists_of_child {kids : List NodeId} (hk : a.children? id = some kids) (hc : c ∈ kids)
    (σ : Scope) : ∃ σ', σ.Inner a id c σ' := by
  unfold Arena.children? at hk
  split at hk
  · cases hk
  next n hn =>
  cases n with
  | unary | binary | logical | conditional | call | assign =>
      cases hk
      exact ⟨σ, .operand hn hc⟩
  | bind span =>
      obtain ⟨ds, hd, rfl⟩ := Option.map_eq_some_iff.mp hk
      obtain ⟨d, hmem, rfl⟩ := List.mem_map.mp hc
      obtain ⟨pre, post, rfl⟩ := List.append_of_mem hmem
      exact ⟨_, .init hn hd⟩
  | block span =>
      obtain ⟨pre, post, rfl⟩ := List.append_of_mem hc
      exact ⟨_, .statement hn hk⟩
  | function param body =>
      cases hk
      rw [List.mem_singleton.mp hc]
      exact ⟨_, .body hn⟩
  | number | boolean | ident | malformed =>
      cases hk
      cases hc

/-- What the node says of its child `c` and of the scope there. -/
private theorem of_node? {n : Node} (hn : a.node? id = some n) (h : σ.Inner a id c σ') :
    match n with
    | .bind span => ∃ pre d post, a.declarations? span = some (pre ++ d :: post) ∧ c = d.init ∧
        σ' = σ.declareAll id 0 pre
    | .block span => ∃ pre post, a.statements? span = some (pre ++ c :: post) ∧
        σ' = σ.afterAll a pre
    | .function param _ => σ' = σ.extend param (.parameter id)
    | _ => σ' = σ := by
  cases h with
  | operand hn' hc =>
      rw [hn] at hn'
      cases hn'
      cases n with
      | bind | block | function => cases hc
      | _ => rfl
  | init hn' hd =>
      rw [hn] at hn'
      cases hn'
      exact ⟨_, _, _, hd, rfl, rfl⟩
  | statement hn' hd =>
      rw [hn] at hn'
      cases hn'
      exact ⟨_, _, hd, rfl⟩
  | body hn' =>
      rw [hn] at hn'
      cases hn'
      rfl

/-- A child has one inner scope, if it is a child once. -/
theorem functional {kids : List NodeId} (hk : a.children? id = some kids) (hd : kids.Nodup)
    (h : σ.Inner a id c σ') (h' : σ.Inner a id c σ'') : σ' = σ'' := by
  unfold Arena.children? at hk
  split at hk
  · cases hk
  next n hn =>
  -- Both ways go through the same node, and it says the scope but for the place of the child.
  have left := h.of_node? hn
  have right := h'.of_node? hn
  cases n with
  | bind span =>
      obtain ⟨pre, d, post, hds, rfl, rfl⟩ := left
      obtain ⟨pre', d', post', hds', same, rfl⟩ := right
      have hk : (a.declarations? span).map _ = some kids := hk
      rw [hds] at hds' hk
      cases hk
      rw [List.prefix_eq_of_nodup_map hd (Option.some.inj hds') same]
  | block span =>
      obtain ⟨pre, post, hds, rfl⟩ := left
      obtain ⟨pre', post', hds', rfl⟩ := right
      have hk : a.statements? span = some kids := hk
      rw [hds] at hds' hk
      cases hk
      rw [List.prefix_eq_of_nodup hd (Option.some.inj hds')]
  | _ => exact left.trans right.symm

end Scope.Inner

/-! ### Scopes of nodes -/

namespace Program

variable {p : Program} {t : Interner} {ids : List NodeId}

/-- What has a scope is a node of the arena. -/
theorem Scoped.lt_size (wf : p.WellFormed t ids) {id : NodeId} {σ : Scope} (h : p.Scoped id σ) :
    id.index < p.arena.size := by
  induction h with
  | @statement pre post id hs =>
      rw [wf.body] at hs
      cases hs
      exact (wf.order.bounds (List.mem_append_right _ List.mem_cons_self)).2
  | @inner id c _ _ _ hi ih =>
      obtain ⟨kids, hk, hc⟩ := hi.exists_children
      exact Nat.lt_trans (wf.order.ordered.child_lt ih hk hc) ih

/-- All nodes of a row have scopes if its roots have. -/
private theorem exists_scope_of_row {lo hi : Nat} {row : List NodeId}
    (h : p.arena.Postorder lo row hi) (roots : ∀ id ∈ row, ∃ σ, p.Scoped id σ) {i : Nat}
    (hlo : lo ≤ i) (hhi : i < hi) : ∃ σ, p.Scoped ⟨i⟩ σ := by
  induction h with
  -- An empty row covers nothing.
  | nil => omega
  | @cons lo hi id kids rest hk _ _ ihkids ihrest =>
      obtain ⟨σ, hσ⟩ := roots id List.mem_cons_self
      -- Before the root stand the trees below it, after it the trees of the other roots.
      rcases Nat.lt_trichotomy i id.index with hlt | rfl | hgt
      · refine ihkids ?_ hlo hlt
        intro c hc
        obtain ⟨σ', hi⟩ := Scope.Inner.exists_of_child hk hc σ
        exact ⟨σ', .inner hσ hi⟩
      · exact ⟨σ, hσ⟩
      · exact ihrest (fun id hid => roots id (List.mem_cons_of_mem _ hid)) hgt hhi

theorem WellFormed.exists_scope (wf : p.WellFormed t ids) {id : NodeId}
    (hid : id.index < p.arena.size) : ∃ σ, p.Scoped id σ := by
  refine exists_scope_of_row wf.order ?_ (Nat.zero_le id.index) hid
  intro root hroot
  obtain ⟨pre, post, rfl⟩ := List.append_of_mem hroot
  exact ⟨_, .statement wf.body⟩

/-- A statement of the program is no child of a node. -/
private theorem statement_not_child (wf : p.WellFormed t ids) {id q : NodeId}
    {pre post kids : List NodeId} (hs : p.statements? = some (pre ++ id :: post))
    (hq : q.index < p.arena.size) (hk : p.arena.children? q = some kids) : id ∉ kids := by
  intro hc
  rw [wf.body] at hs
  cases hs
  have hid : id ∈ pre ++ id :: post := List.mem_append_right _ List.mem_cons_self
  exact wf.order.root_not_child hid (wf.order.ordered.child_lt hq hk hc) hq hk hc

/-- **A node has at most one scope**, since it is reached from the body in one way. -/
theorem WellFormed.scope_unique (wf : p.WellFormed t ids) {id : NodeId} {σ σ' : Scope}
    (h : p.Scoped id σ) (h' : p.Scoped id σ') : σ = σ' := by
  induction h generalizing σ' with
  | @statement pre post id hs =>
      -- A statement of the program is below no node, so both ways lead there directly.
      cases h' with
      | statement hs' =>
          have nodup := wf.order.nodup
          have same := wf.body
          rw [hs] at hs' same
          cases same
          rw [List.prefix_eq_of_nodup nodup (Option.some.inj hs')]
      | inner hσ hi =>
          obtain ⟨kids, hk, hc⟩ := hi.exists_children
          exact absurd hc (statement_not_child wf hs (hσ.lt_size wf) hk)
  | @inner q c σ₀ σ₁ hσ hi ih =>
      obtain ⟨kids, hk, hc⟩ := hi.exists_children
      cases h' with
      | statement hs => exact absurd hc (statement_not_child wf hs (hσ.lt_size wf) hk)
      | @inner q' _ σ₀' _ hσ' hi' =>
          obtain ⟨kids', hk', hc'⟩ := hi'.exists_children
          -- Both ways come through the one parent, which has one scope by induction.
          have parent : q = q' := wf.order.parent_unique (Nat.zero_le _) (hσ.lt_size wf)
            (Nat.zero_le _) (hσ'.lt_size wf) hk hk' hc hc'
          subst parent
          rw [ih hσ'] at hi
          obtain ⟨lo, -, row⟩ := wf.order.row_of_children? (Nat.zero_le _) (hσ.lt_size wf) hk
          exact hi.functional hk row.nodup hi'

/-- **Every node has exactly one scope.** -/
theorem WellFormed.existsUnique_scope (wf : p.WellFormed t ids) {id : NodeId}
    (hid : id.index < p.arena.size) : ∃! σ, p.Scoped id σ := by
  obtain ⟨σ, hσ⟩ := wf.exists_scope hid
  exact ⟨σ, hσ, fun σ' hσ' => wf.scope_unique hσ' hσ⟩

end Program

end LexCell
