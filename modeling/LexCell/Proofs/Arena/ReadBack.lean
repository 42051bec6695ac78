import LexCell.Arena.ReadBack
import LexCell.Proofs.Arena.Layout
import Mathlib.Data.List.Forall2

/-!
# What can be read back

Reading the tree below a node goes level by level (`treeWithin?_succ_iff`): a node and a tree
agree at the top, and what the node refers to reads as the tree's parts (`Node.Layer`). The depth
to which references are followed is no limit for an arena whose children stand before their
parents (`Arena.Ordered`): there every node has a tree (`Ordered.exists_tree?`) and, where all
names have texts, a written form (`exists_render?`).
-/

/-- A list maps to a list if each entry maps to an entry. -/
theorem List.mapM_eq_some_iff_forall₂ {α β : Type} {f : α → Option β} {xs : List α}
    {ys : List β} : xs.mapM f = some ys ↔ List.Forall₂ (fun x y => f x = some y) xs ys := by
  induction xs generalizing ys with
  | nil =>
      rw [List.mapM_nil, List.forall₂_nil_left_iff]
      exact ⟨fun h => (Option.some.inj h).symm, fun h => h ▸ rfl⟩
  | cons x xs ih =>
      rw [List.mapM_cons, List.forall₂_cons_left_iff]
      constructor
      · intro h
        obtain ⟨y, hy, h⟩ := Option.bind_eq_some_iff.mp h
        obtain ⟨rest, hrest, h⟩ := Option.bind_eq_some_iff.mp h
        exact ⟨y, rest, hy, ih.mp hrest, (Option.some.inj h).symm⟩
      · rintro ⟨y, rest, hy, hrest, rfl⟩
        rw [hy, ih.mpr hrest]
        rfl

theorem List.exists_forall₂ {α β : Type} {R : α → β → Prop} {xs : List α}
    (h : ∀ x ∈ xs, ∃ y, R x y) : ∃ ys, List.Forall₂ R xs ys := by
  induction xs with
  | nil => exact ⟨[], .nil⟩
  | cons x xs ih =>
      obtain ⟨y, hy⟩ := h x List.mem_cons_self
      obtain ⟨ys, hys⟩ := ih fun x hx => h x (List.mem_cons_of_mem _ hx)
      exact ⟨y :: ys, .cons hy hys⟩

namespace LexCell

/-! ### Level by level -/

/-- The node and the tree agree at the top, and what the node refers to is related to the parts of
the tree by `R`. -/
inductive Node.Layer (a : Arena) (R : NodeId → Tree Name → Prop) : Node → Tree Name → Prop where
  | number (n : Int64) : Layer a R (.number n) (.number n)
  | boolean (b : Bool) : Layer a R (.boolean b) (.boolean b)
  | unary {op x t} : R x t → Layer a R (.unary op x) (.unary op t)
  | binary {op x y l r} : R x l → R y r → Layer a R (.binary op x y) (.binary op l r)
  | logical {op x y l r} : R x l → R y r → Layer a R (.logical op x y) (.logical op l r)
  | conditional {x y z t c b} :
      R x t → R y c → R z b → Layer a R (.conditional x y z) (.conditional t c b)
  | ident (n : Name) : Layer a R (.ident n) (.ident n)
  | bind {span ds es} : a.declarations? span = some ds →
      List.Forall₂ (fun d e => d.name = e.1 ∧ R d.init e.2) ds es →
      Layer a R (.bind span) (.bind es)
  | function {p x t} : R x t → Layer a R (.function p x) (.function p t)
  | call {x y c b} : R x c → R y b → Layer a R (.call x y) (.call c b)
  | assign {n x t} : R x t → Layer a R (.assign n x) (.assign n t)
  | block {span ids ts} : a.statements? span = some ids → List.Forall₂ R ids ts →
      Layer a R (.block span) (.block ts)
  | malformed (n : Name) : Layer a R (.malformed n) (.malformed n)

theorem Node.Layer.imp {a : Arena} {R S : NodeId → Tree Name → Prop} (h : ∀ id t, R id t → S id t)
    {n : Node} {t : Tree Name} (hl : n.Layer a R t) : n.Layer a S t := by
  cases hl with
  | number n => exact .number n
  | boolean b => exact .boolean b
  | unary ht => exact .unary (h _ _ ht)
  | binary hl hr => exact .binary (h _ _ hl) (h _ _ hr)
  | logical hl hr => exact .logical (h _ _ hl) (h _ _ hr)
  | conditional ht hc hb => exact .conditional (h _ _ ht) (h _ _ hc) (h _ _ hb)
  | ident n => exact .ident n
  | bind hd hds => exact .bind hd (hds.imp fun _ _ hd => ⟨hd.1, h _ _ hd.2⟩)
  | function ht => exact .function (h _ _ ht)
  | call hc hb => exact .call (h _ _ hc) (h _ _ hb)
  | assign ht => exact .assign (h _ _ ht)
  | block hd hts => exact .block hd (hts.imp fun _ _ => h _ _)
  | malformed n => exact .malformed n

namespace Arena

variable {a : Arena}

/-! What is put together from one, two or three parts is there if each part is. -/

section Parts

variable {α β γ δ : Type} {x : Option α} {y : Option β} {z : Option γ}

private theorem one_part {f : α → δ} {d : δ} :
    (do some (f (← x))) = some d ↔ ∃ a, x = some a ∧ f a = d := by
  simp [Option.bind_eq_some_iff]

private theorem two_parts {f : α → β → δ} {d : δ} :
    (do some (f (← x) (← y))) = some d ↔ ∃ a b, x = some a ∧ y = some b ∧ f a b = d := by
  simp [Option.bind_eq_some_iff]

private theorem three_parts {f : α → β → γ → δ} {d : δ} :
    (do some (f (← x) (← y) (← z))) = some d ↔
      ∃ a b c, x = some a ∧ y = some b ∧ z = some c ∧ f a b c = d := by
  simp [Option.bind_eq_some_iff]

end Parts

private theorem declaration_eq_some_iff {tree : NodeId → Option (Tree Name)} {d : Declaration}
    {e : Name × Tree Name} :
    (do some (d.name, ← tree d.init)) = some e ↔ d.name = e.1 ∧ tree d.init = some e.2 := by
  rw [one_part]
  constructor
  · rintro ⟨t, ht, rfl⟩
    exact ⟨rfl, ht⟩
  · rintro ⟨hn, ht⟩
    exact ⟨e.2, ht, Prod.ext hn rfl⟩

/-- The parts of a `let`, which its span covers. -/
private theorem bind_eq_some_iff {R : NodeId → Option (Tree Name)} {span : Span} {t : Tree Name} :
    (do
      let ds ← a.declarations? span
      some (.bind (← ds.mapM fun d => do some (d.name, ← R d.init)))) = some t ↔
      (Node.bind span).Layer a (fun i u => R i = some u) t := by
  rw [Option.bind_eq_bind, Option.bind_eq_some_iff]
  constructor
  · rintro ⟨ds, hd, h⟩
    obtain ⟨es, hes, rfl⟩ := one_part.mp h
    exact .bind hd ((List.mapM_eq_some_iff_forall₂.mp hes).imp fun _ _ => declaration_eq_some_iff.mp)
  · intro h
    cases h with
    | bind hd hes =>
        have hes := hes.imp fun _ _ => declaration_eq_some_iff.mpr
        exact ⟨_, hd, one_part.mpr ⟨_, List.mapM_eq_some_iff_forall₂.mpr hes, rfl⟩⟩

/-- The parts of a block, which its span covers. -/
private theorem block_eq_some_iff {R : NodeId → Option (Tree Name)} {span : Span}
    {t : Tree Name} :
    (do
      let ids ← a.statements? span
      some (.block (← ids.mapM R))) = some t ↔
      (Node.block span).Layer a (fun i u => R i = some u) t := by
  rw [Option.bind_eq_bind, Option.bind_eq_some_iff]
  constructor
  · rintro ⟨ids, hd, h⟩
    obtain ⟨ts, hts, rfl⟩ := one_part.mp h
    exact .block hd (List.mapM_eq_some_iff_forall₂.mp hts)
  · intro h
    cases h with
    | block hd hts =>
        exact ⟨_, hd, one_part.mpr ⟨_, List.mapM_eq_some_iff_forall₂.mpr hts, rfl⟩⟩

/-- **Reading goes level by level.** -/
theorem treeWithin?_succ_iff {depth : Nat} {id : NodeId} {t : Tree Name} :
    a.treeWithin? (depth + 1) id = some t ↔
      ∃ n, a.node? id = some n ∧ n.Layer a (fun i u => a.treeWithin? depth i = some u) t := by
  rw [treeWithin?]
  generalize a.treeWithin? depth = tree
  rw [Option.bind_eq_bind, Option.bind_eq_some_iff]
  refine exists_congr fun n => and_congr_right fun _ => ?_
  cases n with
  -- Nodes without parts.
  | number n => exact Option.some_inj.trans ⟨fun h => h ▸ .number n, fun | .number _ => rfl⟩
  | boolean b => exact Option.some_inj.trans ⟨fun h => h ▸ .boolean b, fun | .boolean _ => rfl⟩
  | ident n => exact Option.some_inj.trans ⟨fun h => h ▸ .ident n, fun | .ident _ => rfl⟩
  | malformed n =>
      exact Option.some_inj.trans ⟨fun h => h ▸ .malformed n, fun | .malformed _ => rfl⟩
  -- Nodes with a fixed number of parts.
  | unary op x =>
      refine one_part.trans ⟨?_, fun | .unary hx => ⟨_, hx, rfl⟩⟩
      rintro ⟨t, hx, rfl⟩
      exact .unary hx
  | function p x =>
      refine one_part.trans ⟨?_, fun | .function hx => ⟨_, hx, rfl⟩⟩
      rintro ⟨t, hx, rfl⟩
      exact .function hx
  | assign n x =>
      refine one_part.trans ⟨?_, fun | .assign hx => ⟨_, hx, rfl⟩⟩
      rintro ⟨t, hx, rfl⟩
      exact .assign hx
  | binary op x y =>
      refine two_parts.trans ⟨?_, fun | .binary hl hr => ⟨_, _, hl, hr, rfl⟩⟩
      rintro ⟨l, r, hl, hr, rfl⟩
      exact .binary hl hr
  | logical op x y =>
      refine two_parts.trans ⟨?_, fun | .logical hl hr => ⟨_, _, hl, hr, rfl⟩⟩
      rintro ⟨l, r, hl, hr, rfl⟩
      exact .logical hl hr
  | call x y =>
      refine two_parts.trans ⟨?_, fun | .call hc hb => ⟨_, _, hc, hb, rfl⟩⟩
      rintro ⟨c, b, hc, hb, rfl⟩
      exact .call hc hb
  | conditional x y z =>
      refine three_parts.trans ⟨?_, fun | .conditional ht hc hb => ⟨_, _, _, ht, hc, hb, rfl⟩⟩
      rintro ⟨t, c, b, ht, hc, hb, rfl⟩
      exact .conditional ht hc hb
  -- Nodes whose parts are listed in a table.
  | bind span => exact bind_eq_some_iff
  | block span => exact block_eq_some_iff

/-- A tree that was read is read at a greater depth. -/
theorem treeWithin?_succ {depth : Nat} {id : NodeId} {t : Tree Name}
    (h : a.treeWithin? depth id = some t) : a.treeWithin? (depth + 1) id = some t := by
  induction depth generalizing id t with
  | zero => cases h
  | succ depth ih => -- the top is the same, and below it the induction goes one level further
      obtain ⟨n, hn, hl⟩ := treeWithin?_succ_iff.mp h
      exact treeWithin?_succ_iff.mpr ⟨n, hn, hl.imp fun _ _ => ih⟩

/-- The tree of a node has the trees of its children below. -/
theorem layer_of_tree? {id : NodeId} {t : Tree Name} (h : a.tree? id = some t) :
    ∃ n, a.node? id = some n ∧ n.Layer a (fun i u => a.tree? i = some u) t := by
  obtain ⟨n, hn, hl⟩ := treeWithin?_succ_iff.mp (treeWithin?_succ h)
  exact ⟨n, hn, hl⟩

/-! ### Arenas without circles -/

/-- Every node's children can be read and stand before it. -/
def Ordered (a : Arena) : Prop :=
  ∀ id : NodeId, id.index < a.size →
    ∃ kids, a.children? id = some kids ∧ ∀ c ∈ kids, c.index < id.index

theorem Postorder.ordered {ids : List NodeId} (h : a.Postorder 0 ids a.size) : a.Ordered := by
  intro id hid
  obtain ⟨lo, kids, -, hk, row⟩ := h.covers (Nat.zero_le id.index) hid
  exact ⟨kids, hk, fun c hc => (row.bounds hc).2⟩

/-- A child stands before its parent. -/
theorem Ordered.child_lt (ha : a.Ordered) {id c : NodeId} {kids : List NodeId}
    (hid : id.index < a.size) (hk : a.children? id = some kids) (hc : c ∈ kids) :
    c.index < id.index := by
  obtain ⟨kids', hk', hlt⟩ := ha id hid
  have same : kids = kids' := Option.some.inj (hk.symm.trans hk')
  exact hlt c (same ▸ hc)

theorem size_of_node? {id : NodeId} {n : Node} (h : a.node? id = some n) : id.index < a.size :=
  (Array.getElem?_eq_some_iff.mp h).1

/-- Where every child is related to a tree, so is the node. -/
theorem exists_layer {R : NodeId → Tree Name → Prop} {n : Node} {kids : List NodeId}
    (hk : n.children? a = some kids) (h : ∀ c ∈ kids, ∃ t, R c t) : ∃ t, n.Layer a R t := by
  cases n with
  | number n => exact ⟨_, .number n⟩
  | boolean b => exact ⟨_, .boolean b⟩
  | ident n => exact ⟨_, .ident n⟩
  | malformed n => exact ⟨_, .malformed n⟩
  | unary op x =>
      cases hk
      obtain ⟨t, ht⟩ := h x List.mem_cons_self
      exact ⟨_, .unary ht⟩
  | function p x =>
      cases hk
      obtain ⟨t, ht⟩ := h x List.mem_cons_self
      exact ⟨_, .function ht⟩
  | assign n x =>
      cases hk
      obtain ⟨t, ht⟩ := h x List.mem_cons_self
      exact ⟨_, .assign ht⟩
  | binary op x y =>
      cases hk
      obtain ⟨l, hl⟩ := h x List.mem_cons_self
      obtain ⟨r, hr⟩ := h y (List.mem_cons_of_mem _ List.mem_cons_self)
      exact ⟨_, .binary hl hr⟩
  | logical op x y =>
      cases hk
      obtain ⟨l, hl⟩ := h x List.mem_cons_self
      obtain ⟨r, hr⟩ := h y (List.mem_cons_of_mem _ List.mem_cons_self)
      exact ⟨_, .logical hl hr⟩
  | call x y =>
      cases hk
      obtain ⟨c, hc⟩ := h x List.mem_cons_self
      obtain ⟨b, hb⟩ := h y (List.mem_cons_of_mem _ List.mem_cons_self)
      exact ⟨_, .call hc hb⟩
  | conditional x y z =>
      cases hk
      obtain ⟨t, ht⟩ := h x List.mem_cons_self
      obtain ⟨c, hc⟩ := h y (List.mem_cons_of_mem _ List.mem_cons_self)
      obtain ⟨b, hb⟩ := h z (List.mem_cons_of_mem _ (List.mem_cons_of_mem _ List.mem_cons_self))
      exact ⟨_, .conditional ht hc hb⟩
  | bind span =>
      obtain ⟨ds, hd, rfl⟩ := Option.map_eq_some_iff.mp hk
      have entry (d : Declaration) (hmem : d ∈ ds) :
          ∃ e : Name × Tree Name, d.name = e.1 ∧ R d.init e.2 := by
        obtain ⟨t, ht⟩ := h d.init (List.mem_map_of_mem hmem)
        exact ⟨(d.name, t), rfl, ht⟩
      -- One tree for each declaration, in their order.
      obtain ⟨es, hes⟩ := List.exists_forall₂ entry
      exact ⟨_, .bind hd hes⟩
  | block span =>
      obtain ⟨ts, hts⟩ := List.exists_forall₂ h
      exact ⟨_, .block hk hts⟩

namespace Ordered

theorem exists_treeWithin? (ha : a.Ordered) {depth : Nat} {id : NodeId}
    (hd : id.index < depth) (hid : id.index < a.size) : ∃ t, a.treeWithin? depth id = some t := by
  induction depth generalizing id with
  | zero => omega
  | succ depth ih =>
      obtain ⟨kids, hk, hlt⟩ := ha id hid
      obtain ⟨n, hn⟩ : ∃ n, a.node? id = some n := ⟨_, Array.getElem?_eq_getElem hid⟩
      rw [children?_of_node? hn] at hk
      -- A child stands before the node, so one level less is enough for it.
      have below (c : NodeId) (hc : c ∈ kids) : ∃ t, a.treeWithin? depth c = some t := by
        have := hlt c hc
        exact ih (by omega) (by omega)
      obtain ⟨t, hl⟩ := exists_layer hk below
      exact ⟨t, treeWithin?_succ_iff.mpr ⟨n, hn, hl⟩⟩

/-- **Every node of an ordered arena has a tree.** -/
theorem exists_tree? (ha : a.Ordered) {id : NodeId} (hid : id.index < a.size) :
    ∃ t, a.tree? id = some t :=
  exists_treeWithin? ha hid hid

end Ordered

/-! ### Written forms -/

private theorem mem_of_of? {α : Type} {span : Span} {table : Array α} {xs : List α} {x : α}
    (h : span.of? table = some xs) (hx : x ∈ xs) : x ∈ table := by
  unfold Span.of? at h
  split at h
  · cases h
    obtain ⟨i, hi, rfl⟩ := Array.mem_extract_iff_getElem.mp (Array.mem_toList_iff.mp hx)
    exact Array.getElem_mem _
  · cases h

private theorem exists_traverseAll {f : Name → Option String} {ids : List NodeId}
    {ts : List (Tree Name)}
    (h : List.Forall₂ (fun _ u => ∃ u', Tree.traverse f u = some u') ids ts) :
    ∃ ts', Tree.traverseAll f ts = some ts' := by
  induction h with
  | nil => exact ⟨[], rfl⟩
  | cons h _ ih =>
      obtain ⟨u', hu⟩ := h
      obtain ⟨ts', hts⟩ := ih
      refine ⟨u' :: ts', ?_⟩
      rw [Tree.traverseAll, hu, hts]
      rfl

private theorem exists_traverseDeclarations {f : Name → Option String} {ds : List Declaration}
    {es : List (Name × Tree Name)} (hf : ∀ d ∈ ds, ∃ text, f d.name = some text)
    (h : List.Forall₂ (fun d e => d.name = e.1 ∧ ∃ u', Tree.traverse f e.2 = some u') ds es) :
    ∃ es', Tree.traverseDeclarations f es = some es' := by
  induction h with
  | nil => exact ⟨[], rfl⟩
  | @cons d e _ _ h _ ih =>
      obtain ⟨n, u⟩ := e
      obtain ⟨rfl, u', hu⟩ := h
      obtain ⟨text, ht⟩ := hf d List.mem_cons_self
      obtain ⟨es', hes⟩ := ih fun d hd => hf d (List.mem_cons_of_mem _ hd)
      refine ⟨(text, u') :: es', ?_⟩
      rw [Tree.traverseDeclarations, ht, hu, hes]
      rfl

/-- Where all names have texts, those of a tree that was read do. -/
theorem exists_traverse {t : Interner} (names : a.NamesIn t) {depth : Nat} {id : NodeId}
    {u : Tree Name} (h : a.treeWithin? depth id = some u) : ∃ u', u.traverse t.text? = some u' := by
  induction depth generalizing id u with
  | zero => cases h
  | succ depth ih =>
      obtain ⟨n, hn, hl⟩ := treeWithin?_succ_iff.mp h
      -- The names in the node have texts; those below it are covered by the induction.
      have known := names.nodes n (Array.mem_of_getElem? hn)
      cases hl.imp fun _ _ => ih with
      | number n => exact ⟨.number n, rfl⟩
      | boolean b => exact ⟨.boolean b, rfl⟩
      | ident n =>
          obtain ⟨text, ht⟩ := known n List.mem_cons_self
          rw [Tree.traverse, ht]
          exact ⟨_, rfl⟩
      | malformed n =>
          obtain ⟨text, ht⟩ := known n List.mem_cons_self
          rw [Tree.traverse, ht]
          exact ⟨_, rfl⟩
      | unary hx =>
          obtain ⟨u', hu⟩ := hx
          rw [Tree.traverse, hu]
          exact ⟨_, rfl⟩
      | binary left right =>
          obtain ⟨_, hl⟩ := left
          obtain ⟨_, hr⟩ := right
          rw [Tree.traverse, hl, hr]
          exact ⟨_, rfl⟩
      | logical left right =>
          obtain ⟨_, hl⟩ := left
          obtain ⟨_, hr⟩ := right
          rw [Tree.traverse, hl, hr]
          exact ⟨_, rfl⟩
      | conditional ht hc hb =>
          obtain ⟨t', ht⟩ := ht
          obtain ⟨c', hc⟩ := hc
          obtain ⟨b', hb⟩ := hb
          rw [Tree.traverse, ht, hc, hb]
          exact ⟨_, rfl⟩
      | bind hd hes => -- the names of a `let` stand in the side table, not in the node
          have texts := fun d hmem => names.declarations d (mem_of_of? hd hmem)
          obtain ⟨es', hes⟩ := exists_traverseDeclarations texts hes
          rw [Tree.traverse, hes]
          exact ⟨_, rfl⟩
      | @function p _ _ hx =>
          obtain ⟨text, ht⟩ := known p List.mem_cons_self
          obtain ⟨u', hu⟩ := hx
          rw [Tree.traverse, ht, hu]
          exact ⟨_, rfl⟩
      | call hc hb =>
          obtain ⟨c', hc⟩ := hc
          obtain ⟨b', hb⟩ := hb
          rw [Tree.traverse, hc, hb]
          exact ⟨_, rfl⟩
      | @assign n _ _ hx =>
          obtain ⟨text, ht⟩ := known n List.mem_cons_self
          obtain ⟨u', hu⟩ := hx
          rw [Tree.traverse, ht, hu]
          exact ⟨_, rfl⟩
      | block hd hts =>
          obtain ⟨ts', hts⟩ := exists_traverseAll hts
          rw [Tree.traverse, hts]
          exact ⟨_, rfl⟩

/-- Every node of an ordered arena has a written form if all names have texts. -/
theorem Ordered.exists_render? (ha : a.Ordered) {t : Interner} (names : a.NamesIn t) {id : NodeId}
    (hid : id.index < a.size) : ∃ text, a.render? t id = some text := by
  obtain ⟨u, hu⟩ := ha.exists_tree? hid
  obtain ⟨u', hu'⟩ := exists_traverse names hu
  refine ⟨u'.render, ?_⟩
  unfold render?
  rw [hu]
  show (u.traverse t.text?).bind _ = _
  rw [hu']
  rfl

end Arena

/-- **Every well-formed program can be written.** -/
theorem Program.WellFormed.exists_render? {p : Program} {t : Interner} {ids : List NodeId}
    (h : p.WellFormed t ids) : ∃ text, p.render? t = some text := by
  have line (id : NodeId) (hid : id ∈ ids) : ∃ text, p.arena.render? t id = some text :=
    h.order.ordered.exists_render? h.names (h.order.bounds hid).2
  obtain ⟨lines, hlines⟩ := List.exists_forall₂ line
  refine ⟨"\n".intercalate lines, ?_⟩
  unfold Program.render?
  rw [h.body]
  show (ids.mapM (p.arena.render? t)).bind _ = _
  rw [List.mapM_eq_some_iff_forall₂.mpr hlines]
  rfl

end LexCell
