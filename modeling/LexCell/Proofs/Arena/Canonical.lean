import LexCell.Proofs.Acceptance
import LexCell.Proofs.Interner

/-!
# Where everything stands

Laying a program out leaves no choice. The nodes are numbered as a walk through the trees meets
them, parts before the whole and from left to right; so every node but the roots is part of one
other. The lists of blocks and of `let` nodes fill their tables in the order of these nodes, the
list of the program last. And the interner grows by the names that it lacked, in the order in which
they are written (`Program.laid_out_canonically`).
-/

/-- The numbers from `lo` to `hi` are those before `i`, `i`, and those after it. -/
theorem List.range'_split {lo i hi : Nat} (hlo : lo ≤ i) (hhi : i < hi) :
    List.range' lo (hi - lo) =
      List.range' lo (i - lo) ++ i :: List.range' (i + 1) (hi - (i + 1)) := by
  have length : hi - lo = i - lo + (hi - (i + 1) + 1) := by omega
  rw [length, ← List.range'_append_1, List.range'_succ, Nat.add_sub_cancel' hlo]

namespace LexCell

/-! ### Trees in postorder -/

namespace Tree

variable {ν : Type}

mutual

/-- A tree and all that is part of it, parts before the whole and from left to right. -/
def postorder : Tree ν → List (Tree ν)
  | number n => [number n]
  | boolean b => [boolean b]
  | unary op t => postorder t ++ [unary op t]
  | binary op l r => postorder l ++ postorder r ++ [binary op l r]
  | logical op l r => postorder l ++ postorder r ++ [logical op l r]
  | conditional t c a => postorder t ++ postorder c ++ postorder a ++ [conditional t c a]
  | ident n => [ident n]
  | bind ds => postorderDeclarations ds ++ [bind ds]
  | function p b => postorder b ++ [function p b]
  | call c a => postorder c ++ postorder a ++ [call c a]
  | assign n v => postorder v ++ [assign n v]
  | block ss => postorderAll ss ++ [block ss]
  | malformed n => [malformed n]

def postorderAll : List (Tree ν) → List (Tree ν)
  | [] => []
  | t :: ts => postorder t ++ postorderAll ts

def postorderDeclarations : List (ν × Tree ν) → List (Tree ν)
  | [] => []
  | (_, t) :: ds => postorder t ++ postorderDeclarations ds

end

mutual

/-- The names in a tree, in the order in which they are written. -/
def names : Tree ν → List ν
  | number _ | boolean _ => []
  | unary _ t => names t
  | binary _ l r | logical _ l r | call l r => names l ++ names r
  | conditional t c a => names t ++ names c ++ names a
  | ident n | malformed n => [n]
  | bind ds => namesDeclarations ds
  | function n t | assign n t => n :: names t
  | block ss => namesAll ss

def namesAll : List (Tree ν) → List ν
  | [] => []
  | t :: ts => names t ++ namesAll ts

def namesDeclarations : List (ν × Tree ν) → List ν
  | [] => []
  | (n, t) :: ds => n :: names t ++ namesDeclarations ds

end

def children : Tree ν → List (Tree ν)
  | number _ | boolean _ | ident _ | malformed _ => []
  | unary _ t | function _ t | assign _ t => [t]
  | binary _ l r | logical _ l r | call l r => [l, r]
  | conditional t c a => [t, c, a]
  | bind ds => ds.map Prod.snd
  | block ss => ss

theorem postorderDeclarations_eq (ds : List (ν × Tree ν)) :
    postorderDeclarations ds = postorderAll (ds.map Prod.snd) := by
  induction ds with
  | nil => rfl
  | cons d ds ih =>
      obtain ⟨n, t⟩ := d
      rw [postorderDeclarations, ih]
      rfl

/-- The whole comes after its parts. -/
theorem postorder_eq (t : Tree ν) : t.postorder = postorderAll t.children ++ [t] := by
  cases t with
  | bind ds => rw [postorder, postorderDeclarations_eq, children]
  | _ => simp [postorder, postorderAll, children]

end Tree

/-- The children of a node are related to the parts of its tree, one by one. -/
theorem Node.Layer.children {a : Arena} {R : NodeId → Tree Name → Prop} {n : Node}
    {u : Tree Name} {kids : List NodeId} (h : n.Layer a R u) (hk : n.children? a = some kids) :
    List.Forall₂ R kids u.children := by
  cases h with
  | number | boolean | ident | malformed =>
      cases hk
      exact .nil
  | unary ht | function ht | assign ht =>
      cases hk
      exact .cons ht .nil
  | binary hl hr | logical hl hr | call hl hr =>
      cases hk
      exact .cons hl (.cons hr .nil)
  | conditional ht hc hb =>
      cases hk
      exact .cons ht (.cons hc (.cons hb .nil))
  | bind hd hes =>
      obtain ⟨ds, hd', rfl⟩ := Option.map_eq_some_iff.mp hk
      cases hd.symm.trans hd'
      refine List.forall₂_map_left_iff.mpr (List.forall₂_map_right_iff.mpr ?_)
      exact hes.imp fun _ _ => And.right
  | block hd hts =>
      cases hd.symm.trans hk
      exact hts

/-! ### Numbering

The nodes that a row of trees takes up are numbered without gaps from `lo` to `hi`
(`Arena.Postorder`). Three things follow from that by induction on the row: the order of a walk, the
trees at the nodes, and that every node is referred to once. -/

namespace Arena

def ids (a : Arena) : List NodeId := (List.range a.size).map NodeId.mk

/-- A walk from the nodes given, down to what they refer to and from left to right, leaves the nodes
in this order: a node after all below it. -/
inductive Walk (a : Arena) : List NodeId → List NodeId → Prop where
  | nil : Walk a [] []
  | cons {id : NodeId} {kids ids below after : List NodeId} : a.children? id = some kids →
      Walk a kids below → Walk a ids after → Walk a (id :: ids) (below ++ id :: after)

namespace Postorder

variable {a : Arena} {lo hi : Nat} {ids : List NodeId}

/-- The walk goes through the row as it stands. -/
theorem walk (h : a.Postorder lo ids hi) :
    a.Walk ids ((List.range' lo (hi - lo)).map NodeId.mk) := by
  induction h with
  | nil n =>
      rw [Nat.sub_self]
      exact .nil
  | cons hk hkids hrest below after =>
      rw [List.range'_split hkids.le hrest.le, List.map_append, List.map_cons]
      exact .cons hk below after

/-- The trees of the row, with all their parts in postorder, are those of its nodes. -/
theorem map_tree? {us : List (Tree Name)} (h : a.Postorder lo ids hi)
    (hus : List.Forall₂ (fun id u => a.tree? id = some u) ids us) :
    (List.range' lo (hi - lo)).map (fun i => a.tree? ⟨i⟩) = (Tree.postorderAll us).map some := by
  induction h generalizing us with
  | nil n =>
      cases hus
      rw [Nat.sub_self]
      rfl
  | @cons lo hi id kids ids hk hkids hrest below after =>
      obtain - | ⟨hu, hus⟩ := hus
      next u us =>
      obtain ⟨n, hn, layer⟩ := layer_of_tree? hu
      rw [children?_of_node? hn] at hk
      -- The nodes below the first one, the first one, and the nodes of the rest of the row.
      rw [List.range'_split hkids.le hrest.le, List.map_append, List.map_cons,
        below (layer.children hk), after hus, hu, Tree.postorderAll, Tree.postorder_eq]
      simp

/-- What the nodes of the row refer to, and its roots, is the row. -/
theorem references (h : a.Postorder lo ids hi) :
    (ids ++ (List.range' lo (hi - lo)).flatMap fun i => (a.children? ⟨i⟩).getD []).Perm
      ((List.range' lo (hi - lo)).map NodeId.mk) := by
  induction h with
  | nil n =>
      rw [Nat.sub_self]
      exact .nil
  | @cons lo hi id kids ids hk hkids hrest below after =>
      rw [List.range'_split hkids.le hrest.le, List.map_append, List.map_cons, List.flatMap_append,
        List.flatMap_cons, hk]
      -- The first node is referred to as a root, the nodes below it by the first one.
      refine .trans (.cons id ?_) List.perm_middle.symm
      refine .trans ?_ (below.append after)
      refine List.perm_iff_count.mpr fun c => ?_
      -- Both sides have every node equally often.
      simp only [List.append_eq, List.count_append, Option.getD_some]
      omega

end Postorder

end Arena

/-! ### Spans

Blocks and `let` nodes have their parts in two other tables. Each table is filled in the order in
which the nodes are added. -/

/-- The places in its table that a span covers. -/
def Span.indices (span : Span) : List Nat := List.range' span.start span.length

namespace Node

def blockSpan? : Node → Option Span
  | .block span => some span
  | _ => none

def bindSpan? : Node → Option Span
  | .bind span => some span
  | _ => none

end Node

namespace Arena

def blockSpans (a : Arena) : List Span := a.nodes.toList.filterMap Node.blockSpan?

def bindSpans (a : Arena) : List Span := a.nodes.toList.filterMap Node.bindSpan?

/-- The spans of the nodes fill the tables, without gaps and without overlaps. -/
structure Tiled (a : Arena) : Prop where
  blocks : a.blockSpans.flatMap Span.indices = List.range a.statementLists.size
  binds : a.bindSpans.flatMap Span.indices = List.range a.declarations.size

/-- A node that is added comes last, and so does its span. -/
theorem blockSpans_addNode (a : Arena) (n : Node) :
    (a.addNode n).2.blockSpans = a.blockSpans ++ [n].filterMap Node.blockSpan? := by
  simp only [blockSpans, addNode, Array.toList_push, List.filterMap_append]

theorem bindSpans_addNode (a : Arena) (n : Node) :
    (a.addNode n).2.bindSpans = a.bindSpans ++ [n].filterMap Node.bindSpan? := by
  simp only [bindSpans, addNode, Array.toList_push, List.filterMap_append]

/-- A span after those that fill a table fills what is added to the table. -/
theorem flatMap_indices_concat {spans : List Span} {size : Nat}
    (h : spans.flatMap Span.indices = List.range size) (length : Nat) :
    (spans ++ [(⟨size, length⟩ : Span)]).flatMap Span.indices = List.range (size + length) := by
  rw [List.flatMap_append, h, List.range_eq_range', List.range_eq_range', List.flatMap_singleton,
    Span.indices, ← List.range'_append_1, Nat.zero_add]

namespace Tiled

variable {a : Arena}

theorem empty : Arena.empty.Tiled := ⟨rfl, rfl⟩

/-- A node without a span leaves the tables as they are. -/
theorem addNode (h : a.Tiled) {n : Node} (block : n.blockSpan? = none)
    (bind : n.bindSpan? = none) : (a.addNode n).2.Tiled := by
  constructor
  · rw [blockSpans_addNode, List.filterMap_cons_none block, List.filterMap_nil, List.append_nil]
    exact h.blocks
  · rw [bindSpans_addNode, List.filterMap_cons_none bind, List.filterMap_nil, List.append_nil]
    exact h.binds

/-- The list of a block is added right before the block, so its span is the next one of its
table. -/
theorem addBlock (h : a.Tiled) (ids : List NodeId) :
    ((a.addStatements ids).2.addNode (.block (a.addStatements ids).1)).2.Tiled := by
  constructor
  · rw [blockSpans_addNode]
    show _ = List.range (a.statementLists ++ ids.toArray).size
    rw [Array.size_append, List.size_toArray]
    exact flatMap_indices_concat h.blocks ids.length
  · rw [bindSpans_addNode]
    show (_ ++ []).flatMap _ = _
    rw [List.append_nil]
    exact h.binds

/-- The same for the declarations of a `let`. -/
theorem addBind (h : a.Tiled) (ds : List Declaration) :
    ((a.addDeclarations ds).2.addNode (.bind (a.addDeclarations ds).1)).2.Tiled := by
  constructor
  · rw [blockSpans_addNode]
    show (_ ++ []).flatMap _ = _
    rw [List.append_nil]
    exact h.blocks
  · rw [bindSpans_addNode]
    show _ = List.range (a.declarations ++ ds.toArray).size
    rw [Array.size_append, List.size_toArray]
    exact flatMap_indices_concat h.binds ds.length

end Tiled

end Arena

/-! ### Laying out

What laying out does to the tables of lists and to the interner, by induction on the tree that is
placed. What it does to the nodes is `Program.wellFormed_of_ofTrees`. -/

namespace Layout

mutual

/-- The lists of a tree that is placed fill up what is added to the tables. -/
theorem place_tiled (x : Tree String) {s : Layout} (h : s.arena.Tiled) :
    (place x s).2.arena.Tiled := by
  match x with
  | .number _ | .boolean _ | .ident _ | .malformed _ => exact h.addNode rfl rfl
  | .unary _ x => exact (place_tiled x h).addNode rfl rfl
  | .function n x | .assign n x => -- interning a name leaves the tables alone
      exact (place_tiled x (s := (s.name n).2) h).addNode rfl rfl
  | .binary _ x y | .logical _ x y | .call x y =>
      exact (place_tiled y (place_tiled x h)).addNode rfl rfl
  | .conditional x y z =>
      exact (place_tiled z (place_tiled y (place_tiled x h))).addNode rfl rfl
  | .bind ds => exact (placeDeclarations_tiled ds h).addBind _
  | .block xs => exact (placeAll_tiled xs h).addBlock _

theorem placeAll_tiled (xs : List (Tree String)) {s : Layout} (h : s.arena.Tiled) :
    (placeAll xs s).2.arena.Tiled := by
  match xs with
  | [] => exact h
  | x :: xs => exact placeAll_tiled xs (place_tiled x h)

theorem placeDeclarations_tiled (ds : List (String × Tree String)) {s : Layout}
    (h : s.arena.Tiled) : (placeDeclarations ds s).2.arena.Tiled := by
  match ds with
  | [] => exact h
  | (n, x) :: ds => exact placeDeclarations_tiled ds (place_tiled x (s := (s.name n).2) h)

end

mutual

/-- The names of a tree that is placed are interned in the order in which they are written. -/
theorem place_interner (x : Tree String) (s : Layout) :
    (place x s).2.interner = s.interner.internAll x.names := by
  match x with
  | .number _ | .boolean _ | .ident _ | .malformed _ => rfl
  | .unary _ x => exact place_interner x s
  | .function p x | .assign p x => exact place_interner x (s.name p).2
  | .binary _ x y | .logical _ x y | .call x y => -- what is placed on the left is interned first
      rw [Tree.names, Interner.internAll_append, ← place_interner x s]
      exact place_interner y (place x s).2
  | .conditional x y z =>
      rw [Tree.names, Interner.internAll_append, Interner.internAll_append, ← place_interner x s,
        ← place_interner y (place x s).2]
      exact place_interner z _
  | .bind ds => exact placeDeclarations_interner ds s
  | .block xs => exact placeAll_interner xs s

theorem placeAll_interner (xs : List (Tree String)) (s : Layout) :
    (placeAll xs s).2.interner = s.interner.internAll (Tree.namesAll xs) := by
  match xs with
  | [] => rfl
  | x :: xs =>
      rw [Tree.namesAll, Interner.internAll_append, ← place_interner x s]
      exact placeAll_interner xs (place x s).2

theorem placeDeclarations_interner (ds : List (String × Tree String)) (s : Layout) :
    (placeDeclarations ds s).2.interner =
      s.interner.internAll (Tree.namesDeclarations ds) := by
  match ds with
  | [] => rfl
  | (n, x) :: ds =>
      rw [Tree.namesDeclarations, List.cons_append, Interner.internAll_cons,
        Interner.internAll_append]
      show _ = ((s.name n).2.interner.internAll x.names).internAll _
      rw [← place_interner x (s.name n).2]
      exact placeDeclarations_interner ds _

end

end Layout

/-! ### Programs -/

namespace Program

/-- What the program's nodes refer to, a reference at a time, and its statements. -/
def references (p : Program) : List NodeId :=
  p.statements?.getD [] ++ p.arena.ids.flatMap fun id => (p.arena.children? id).getD []

/-- The program is laid out in the order of its trees `us`, whose roots are `ids`. -/
structure Canonical (p : Program) (ids : List NodeId) (us : List (Tree Name)) : Prop where
  statements : p.statements? = some ids
  trees : p.trees? = some us
  /-- There are as many nodes as the trees have. -/
  count : p.arena.size = (Tree.postorderAll us).length
  /-- The k-th tree in postorder hangs at the k-th node. -/
  numbering : ∀ k, p.arena.tree? ⟨k⟩ = (Tree.postorderAll us)[k]?
  /-- Following the references meets the nodes in the order of their numbers. -/
  walk : p.arena.Walk ids p.arena.ids
  /-- Nodes refer to nodes before them. -/
  ordered : p.arena.Ordered
  /-- Every node is referred to once. -/
  referenced : p.references.Perm p.arena.ids
  /-- The lists of the blocks and of the program fill their table. -/
  lists : (p.arena.blockSpans ++ [p.body]).flatMap Span.indices =
    List.range p.arena.statementLists.size
  /-- The lists of the `let` nodes fill theirs. -/
  bindings : p.arena.bindSpans.flatMap Span.indices = List.range p.arena.declarations.size

/-- What is well formed and fills its tables is laid out in the order of its trees. -/
theorem WellFormed.canonical {p : Program} {t : Interner} {ids : List NodeId}
    {us : List (Tree Name)} (wf : p.WellFormed t ids) (trees : p.trees? = some us)
    (lists : (p.arena.blockSpans ++ [p.body]).flatMap Span.indices =
      List.range p.arena.statementLists.size)
    (bindings : p.arena.bindSpans.flatMap Span.indices = List.range p.arena.declarations.size) :
    p.Canonical ids us := by
  have read : List.Forall₂ (fun id u => p.arena.tree? id = some u) ids us := by
    obtain ⟨ids', body, read⟩ := Option.bind_eq_some_iff.mp trees
    cases wf.body.symm.trans body
    exact List.mapM_eq_some_iff_forall₂.mp read
  have row : (List.range p.arena.size).map (fun i => p.arena.tree? ⟨i⟩) =
      (Tree.postorderAll us).map some := by
    rw [List.range_eq_range']
    exact wf.order.map_tree? read
  have count : p.arena.size = (Tree.postorderAll us).length := by
    simpa using congrArg List.length row
  refine ⟨wf.body, trees, count, ?numbering, ?walk, wf.order.ordered, ?referenced, lists, bindings⟩
  case numbering =>
    intro k
    rcases Nat.lt_or_ge k p.arena.size with hk | hk
    · have entry := congrArg (·[k]?) row
      simp only [List.getElem?_map, List.getElem?_range hk, Option.map_some] at entry
      cases found : (Tree.postorderAll us)[k]? with
      | none => rw [found] at entry; cases entry
      | some u => rw [found] at entry; exact Option.some.inj entry
    · rw [List.getElem?_eq_none (count ▸ hk), Option.eq_none_iff_forall_ne_some]
      intro u hu
      obtain ⟨n, hn, -⟩ := Arena.layer_of_tree? hu
      exact absurd (Arena.size_of_node? hn) (Nat.not_lt.mpr hk)
  case walk =>
    rw [Arena.ids, List.range_eq_range']
    exact wf.order.walk
  case referenced =>
    rw [references, wf.body, Arena.ids, List.range_eq_range', List.flatMap_map]
    exact wf.order.references

/-- All names of the statements are interned, and nothing else. -/
theorem interner_ofTrees (statements : List (Tree String)) (t : Interner) :
    (Program.ofTrees statements t).2 = t.internAll (Tree.namesAll statements) :=
  Layout.placeAll_interner statements ⟨Arena.empty, t⟩

/-- Laying out keeps an interner proper, for it only interns. -/
theorem proper_ofTrees (statements : List (Tree String)) {t : Interner} (h : t.Proper) :
    (Program.ofTrees statements t).2.Proper := by
  rw [interner_ofTrees]
  exact h.internAll _

/-- Reading a program leaves a proper interner proper. -/
theorem proper_of_ofJson {doc : Json} {t t' : Interner} {p : Program} (ht : t.Proper)
    (h : Program.ofJson doc t = (.ok p, t')) : t'.Proper := by
  obtain ⟨ts, -, built⟩ := Program.exists_outcome_of_ofJson h
  have proper := proper_ofTrees ts ht
  rwa [built] at proper

/-- What is laid out stands where `Program.Canonical` says. -/
theorem canonical_ofTrees (statements : List (Tree String)) (t : Interner) {us : List (Tree Name)}
    (trees : (Program.ofTrees statements t).1.trees? = some us) :
    ∃ ids, (Program.ofTrees statements t).1.Canonical ids us := by
  obtain ⟨ids, wf⟩ := Program.wellFormed_of_ofTrees statements t
  have tiled := Layout.placeAll_tiled statements (s := ⟨Arena.empty, t⟩) Arena.Tiled.empty
  refine ⟨ids, wf.canonical trees ?_ tiled.binds⟩
  show _ = List.range (_ ++ List.toArray _).size
  rw [Array.size_append, List.size_toArray]
  exact Arena.flatMap_indices_concat tiled.blocks _

/-- **Laying out is canonical.** A document that is accepted becomes a program whose nodes are
numbered in postorder and whose lists fill their tables; the interner grows by the names of the
statements that it lacks, in the order in which they are written. An interner that is left behind by
a document that is refused still holds what it held, at the same places. -/
theorem laid_out_canonically (doc : Json) (t : Interner) :
    (∀ p t', Program.ofJson doc t = (.ok p, t') →
      ∃ ids us ts, p.Canonical ids us ∧ Tree.traverseAll t'.text? us = some ts ∧
        doc.DescribesProgram ts ∧
        t'.strings.toList =
          t.strings.toList ++ ((Tree.namesAll ts).filter (· ∉ t.strings)).eraseDups) ∧
      ∀ err t', Program.ofJson doc t = (.error err, t') →
        t.strings.toList <+: t'.strings.toList := by
  constructor
  · intro p t' h
    obtain ⟨ts, outcome, built⟩ := Program.exists_outcome_of_ofJson h
    obtain ⟨us, trees, texts⟩ := Program.trees?_ofTrees ts t
    obtain ⟨ids, canonical⟩ := canonical_ofTrees ts t trees
    have strings := Interner.toList_internAll t (Tree.namesAll ts)
    rw [← interner_ofTrees] at strings
    rw [built] at canonical texts strings
    exact ⟨ids, us, ts, canonical, texts, Json.outcome_program_eq_ok_iff.mp outcome, strings⟩
  · intro err t' h
    have outcome := Program.ofJson_eq_error_iff.mp (congrArg Prod.fst h)
    -- Of a document that is refused only the names are left.
    simp only [Program.ofJson, outcome] at h
    cases h
    exact Interner.prefix_internAll t _

end Program

end LexCell
