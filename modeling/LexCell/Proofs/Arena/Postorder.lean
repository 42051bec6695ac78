import LexCell.Arena
import Mathlib.Data.List.Nodup

/-!
# Trees that stand in postorder

Nothing in the type of an arena keeps its references from dangling, from being shared or from
running in circles. `Arena.Postorder lo ids hi` says of the nodes `ids` that none of this happens
below them: their trees stand one after the other, each in postorder, and take up exactly the
indices from `lo` to `hi`. All that is needed of an arena follows from it: what is below a node
can be read (`children?` answers), children stand before their parents (`Postorder.bounds`), and
no node has two parents or stands twice below one (`Postorder.parent_unique`,
`Postorder.nodup`).
-/

namespace LexCell

/-- The nodes that a node refers to, from left to right, if the arena has the entries that the
node covers. -/
def Node.children? (a : Arena) : Node → Option (List NodeId)
  | .number _ | .boolean _ | .ident _ | .malformed _ => some []
  | .unary _ operand => some [operand]
  | .binary _ left right | .logical _ left right => some [left, right]
  | .conditional test consequent alternate => some [test, consequent, alternate]
  | .bind span => (a.declarations? span).map fun ds => ds.map Declaration.init
  | .function _ body => some [body]
  | .call callee argument => some [callee, argument]
  | .assign _ value => some [value]
  | .block span => a.statements? span

namespace Arena

def children? (a : Arena) (id : NodeId) : Option (List NodeId) :=
  match a.node? id with
  | none => none
  | some n => n.children? a

/-- What a node refers to is looked up in two steps. -/
theorem children?_of_node? {a : Arena} {id : NodeId} {n : Node} (h : a.node? id = some n) :
    a.children? id = n.children? a := by
  unfold children?
  rw [h]

/-- The trees below `ids`, one after the other in postorder, take up exactly the indices from `lo`
up to `hi`. -/
inductive Postorder (a : Arena) : Nat → List NodeId → Nat → Prop where
  | nil (n : Nat) : Postorder a n [] n
  | cons {lo hi : Nat} {id : NodeId} {kids ids : List NodeId} :
      a.children? id = some kids → Postorder a lo kids id.index →
      Postorder a (id.index + 1) ids hi → Postorder a lo (id :: ids) hi

variable {a : Arena}

namespace Postorder

theorem single {lo : Nat} {id : NodeId} {kids : List NodeId} (hk : a.children? id = some kids)
    (h : a.Postorder lo kids id.index) : a.Postorder lo [id] (id.index + 1) :=
  .cons hk h (.nil _)

/-- Rows can be put together where the one ends and the other begins, and taken apart again. -/
theorem append {lo mid hi : Nat} {xs ys : List NodeId} (hx : a.Postorder lo xs mid)
    (hy : a.Postorder mid ys hi) : a.Postorder lo (xs ++ ys) hi := by
  induction hx with
  | nil => exact hy
  | cons hk hkids _ _ ih => exact .cons hk hkids (ih hy)

theorem of_append {lo hi : Nat} {xs ys : List NodeId} (h : a.Postorder lo (xs ++ ys) hi) :
    ∃ mid, a.Postorder lo xs mid ∧ a.Postorder mid ys hi := by
  induction xs generalizing lo with
  | nil => exact ⟨lo, .nil lo, h⟩
  | cons id xs ih =>
      cases h with
      | cons hk hkids hrest =>
          obtain ⟨mid, hx, hy⟩ := ih hrest
          exact ⟨mid, .cons hk hkids hx, hy⟩

/-- A row does not end before it begins. -/
theorem le {lo hi : Nat} {ids : List NodeId} (h : a.Postorder lo ids hi) : lo ≤ hi := by
  induction h with
  | nil => exact Nat.le_refl _
  | cons _ _ _ ih₁ ih₂ => exact Nat.le_trans ih₁ (Nat.le_of_succ_le ih₂)

/-- The roots of a row are within it. -/
theorem bounds {lo hi : Nat} {ids : List NodeId} {id : NodeId} (h : a.Postorder lo ids hi)
    (hid : id ∈ ids) : lo ≤ id.index ∧ id.index < hi := by
  induction h with
  | nil => cases hid
  | cons _ hkids hrest _ ih =>
      have := hkids.le
      have := hrest.le
      rcases List.mem_cons.mp hid with rfl | hid
      · exact ⟨by omega, by omega⟩
      · have := ih hid
        exact ⟨by omega, this.2⟩

/-- Every index in the row is that of a node, and its tree stands within the row. -/
theorem covers {lo hi i : Nat} {ids : List NodeId} (h : a.Postorder lo ids hi) (hlo : lo ≤ i)
    (hhi : i < hi) :
    ∃ lo' kids, lo ≤ lo' ∧ a.children? ⟨i⟩ = some kids ∧ a.Postorder lo' kids i := by
  induction h with
  | nil => omega
  | @cons lo _ id kids _ hk hkids hrest ih₁ ih₂ =>
      -- Below the first root, the first root itself, or in the rest of the row.
      rcases Nat.lt_trichotomy i id.index with hlt | rfl | hgt
      · exact ih₁ hlo hlt
      · exact ⟨lo, kids, Nat.le_refl _, hk, hkids⟩
      · obtain ⟨lo', kids', hle, hk', hkids'⟩ := ih₂ hgt hhi
        have := hkids.le
        exact ⟨lo', kids', by omega, hk', hkids'⟩

/-- The trees below a node in the row are a row within it. -/
theorem row_of_children? {lo hi : Nat} {ids kids : List NodeId} {q : NodeId}
    (h : a.Postorder lo ids hi) (hlo : lo ≤ q.index) (hhi : q.index < hi)
    (hk : a.children? q = some kids) : ∃ lo', lo ≤ lo' ∧ a.Postorder lo' kids q.index := by
  obtain ⟨lo', kids', hle, hk', row⟩ := h.covers hlo hhi
  have same : kids = kids' := Option.some.inj (hk.symm.trans hk')
  subst same
  exact ⟨lo', hle, row⟩

/-- A root of the row is no child of a node in it. -/
theorem root_not_child {lo hi : Nat} {ids : List NodeId} {c q : NodeId} {kids : List NodeId}
    (h : a.Postorder lo ids hi) (hc : c ∈ ids) (hcq : c.index < q.index) (hq : q.index < hi)
    (hk : a.children? q = some kids) : c ∉ kids := by
  intro hmem
  obtain ⟨pre, post, rfl⟩ := List.append_of_mem hc
  obtain ⟨mid, -, hrest⟩ := h.of_append
  cases hrest with
  | cons _ _ hpost => -- the tree of `q` stands after `c`, so `c` cannot stand below `q`
      obtain ⟨lo', hle, row⟩ := hpost.row_of_children? hcq hq hk
      have := (row.bounds hmem).1
      omega

/-- Of two nodes in a row the later one does not refer to what the earlier one refers to: a child of
the earlier one is a root of the row below the later one, or stands before it. -/
private theorem not_child_of_later {lo hi : Nat} {ids : List NodeId} {c p q : NodeId}
    {kids kids' : List NodeId} (h : a.Postorder lo ids hi) (hp : lo ≤ p.index)
    (hpq : p.index < q.index) (hq : q.index < hi) (hk : a.children? p = some kids)
    (hk' : a.children? q = some kids') (hc : c ∈ kids) : c ∉ kids' := by
  intro hc'
  obtain ⟨_, -, row⟩ := h.row_of_children? hp (Nat.lt_trans hpq hq) hk
  obtain ⟨_, -, row'⟩ := h.row_of_children? (Nat.le_of_lt (Nat.lt_of_le_of_lt hp hpq)) hq hk'
  exact row'.root_not_child hc' (row.bounds hc).2 hpq hk hc

/-- No node has two parents. -/
theorem parent_unique {lo hi : Nat} {ids : List NodeId} {c p q : NodeId} {kids kids' : List NodeId}
    (h : a.Postorder lo ids hi) (hp : lo ≤ p.index) (hp' : p.index < hi) (hq : lo ≤ q.index)
    (hq' : q.index < hi) (hk : a.children? p = some kids) (hk' : a.children? q = some kids')
    (hc : c ∈ kids) (hc' : c ∈ kids') : p = q := by
  rcases Nat.lt_trichotomy p.index q.index with hlt | heq | hgt
  · exact absurd hc' (h.not_child_of_later hp hlt hq' hk hk' hc)
  · exact congrArg NodeId.mk heq
  · exact absurd hc (h.not_child_of_later hq hgt hp' hk' hk hc')

/-- No node stands twice in the row. -/
theorem nodup {lo hi : Nat} {ids : List NodeId} (h : a.Postorder lo ids hi) : ids.Nodup := by
  induction h with
  | nil => exact List.nodup_nil
  | cons _ _ hrest _ ih =>
      refine List.nodup_cons.mpr ⟨?_, ih⟩
      intro hid
      -- What comes after a root has greater indices.
      have := (hrest.bounds hid).1
      omega

end Postorder

/-! ### Growing arenas

Arenas only grow by additions, which leave everything that could be read as it was. A row that was
there stays. -/

/-- What could be read from the smaller arena reads the same from the larger one. -/
structure Extends (a a' : Arena) : Prop where
  node {id : NodeId} {n : Node} : a.node? id = some n → a'.node? id = some n
  statements {span : Span} {ids : List NodeId} :
    a.statements? span = some ids → a'.statements? span = some ids
  declarations {span : Span} {ds : List Declaration} :
    a.declarations? span = some ds → a'.declarations? span = some ds

namespace Extends

variable {a' a'' : Arena}

theorem refl (a : Arena) : a.Extends a := ⟨id, id, id⟩

theorem trans (h : a.Extends a') (h' : a'.Extends a'') : a.Extends a'' :=
  ⟨fun e => h'.node (h.node e), fun e => h'.statements (h.statements e),
    fun e => h'.declarations (h.declarations e)⟩

theorem addNode (a : Arena) (n : Node) : a.Extends (a.addNode n).2 := by
  refine ⟨fun {id m} e => ?_, id, id⟩
  rw [node?_addNode]
  have hlt : id.index < a.size := (Array.getElem?_eq_some_iff.mp e).1
  rw [if_neg (by omega)]
  exact e

theorem addStatements (a : Arena) (ids : List NodeId) : a.Extends (a.addStatements ids).2 :=
  ⟨id, Span.of?_append, id⟩

theorem addDeclarations (a : Arena) (ds : List Declaration) :
    a.Extends (a.addDeclarations ds).2 :=
  ⟨id, id, Span.of?_append⟩

theorem node_children? (h : a.Extends a') {n : Node} {kids : List NodeId}
    (e : n.children? a = some kids) : n.children? a' = some kids := by
  cases n with
  | bind span =>
      obtain ⟨ds, hd, rfl⟩ := Option.map_eq_some_iff.mp e
      exact Option.map_eq_some_iff.mpr ⟨ds, h.declarations hd, rfl⟩
  | block span => exact h.statements e
  -- Other nodes name their children themselves.
  | _ => exact e

theorem children? (h : a.Extends a') {id : NodeId} {kids : List NodeId}
    (e : a.children? id = some kids) : a'.children? id = some kids := by
  unfold Arena.children? at e
  split at e
  · cases e
  · next n hn =>
    rw [children?_of_node? (h.node hn)]
    exact h.node_children? e

/-- Additions do not move what has been laid out. -/
theorem postorder (h : a.Extends a') {lo hi : Nat} {ids : List NodeId}
    (hp : a.Postorder lo ids hi) : a'.Postorder lo ids hi := by
  induction hp with
  | nil => exact .nil _
  | cons hk _ _ ih₁ ih₂ => exact .cons (h.children? hk) ih₁ ih₂

end Extends

end Arena

end LexCell
