import LexCell.Proofs.Arena.ReadBack

/-!
# Reading back what was laid out

A tree that was placed is read back as it was, from the arena as it is then or as it is after any
number of further additions (`place_reads`): so the lists of inner blocks cannot get between those
of outer ones, although they go into the same tables. The induction is on the tree that is placed;
what is read back at its root is taken apart by `Arena.layer_of_tree?`. And so a program is written
as its statements were (`Program.render?_ofTrees`).
-/

namespace LexCell

namespace Layout

/-- The tables have become these, or more was added to them and they then were. -/
structure Grown (s : Layout) (a : Arena) (t : Interner) : Prop where
  arena : s.arena.Extends a
  interner : s.interner.Extends t

namespace Grown

variable {s s' : Layout} {a : Arena} {t : Interner}

/-- What grew from a later state of the tables grew from an earlier one. -/
theorem of_adds {ids : List NodeId} (h : s'.Grown a t) (adds : s.Adds ids s') : s.Grown a t :=
  ⟨adds.arena.trans h.arena, fun n text e => h.interner n text (adds.interner n text e)⟩

theorem of_node {n : Node} (h : (s.node n).2.Grown a t) : s.Grown a t :=
  ⟨(Arena.Extends.addNode s.arena n).trans h.arena, h.interner⟩

/-- A name that was interned has its text for good. -/
theorem text?_name {text : String} (h : (s.name text).2.Grown a t) :
    t.text? (s.name text).1 = some text :=
  h.interner _ _ (Interner.text?_intern s.interner text)

/-- What is read at a node that was added agrees with the node. -/
theorem layer {n : Node} {u : Tree Name} (h : (s.node n).2.Grown a t)
    (hu : a.tree? (s.node n).1 = some u) :
    n.Layer a (fun i v => a.tree? i = some v) u := by
  have found : (s.arena.addNode n).2.node? ⟨s.arena.size⟩ = some n := by
    rw [Arena.node?_addNode]
    exact if_pos rfl
  obtain ⟨m, hm, hl⟩ := Arena.layer_of_tree? hu
  have same : m = n := Option.some.inj (hm.symm.trans (h.arena.node found))
  exact same ▸ hl

/-- A list that was added is what its span covers for good. -/
theorem statements? {ids : List NodeId}
    (h : Grown { s with arena := (s.arena.addStatements ids).2 } a t) :
    a.statements? (s.arena.addStatements ids).1 = some ids :=
  h.arena.statements (Arena.statements?_addStatements s.arena ids)

theorem declarations? {ds : List Declaration}
    (h : Grown { s with arena := (s.arena.addDeclarations ds).2 } a t) :
    a.declarations? (s.arena.addDeclarations ds).1 = some ds :=
  h.arena.declarations (Arena.declarations?_addDeclarations s.arena ds)

theorem of_addStatements {ids : List NodeId}
    (h : Grown { s with arena := (s.arena.addStatements ids).2 } a t) : s.Grown a t :=
  h.of_adds (.addStatements s ids)

theorem of_addDeclarations {ds : List Declaration}
    (h : Grown { s with arena := (s.arena.addDeclarations ds).2 } a t) : s.Grown a t :=
  ⟨(Arena.Extends.addDeclarations s.arena ds).trans h.arena, h.interner⟩

end Grown

variable {a : Arena} {t : Interner}

mutual

/-- **A tree is read back as it was placed.** -/
theorem place_reads (x : Tree String) (s : Layout) {u : Tree Name}
    (h : (place x s).2.Grown a t) (hu : a.tree? (place x s).1 = some u) :
    u.traverse t.text? = some x := by
  match x with
  | .number n =>
      cases h.layer hu
      rfl
  | .boolean b =>
      cases h.layer hu
      rfl
  | .unary op x =>
      cases h.layer hu with
      | unary hx =>
          have hx := place_reads x s h.of_node hx
          rw [Tree.traverse, hx]
          rfl
  | .binary op x y =>
      cases h.layer hu with
      | binary hx hy => -- the left part was placed before the right one, so more was added since
          have hx := place_reads x s (h.of_node.of_adds (place_adds y _)) hx
          have hy := place_reads y _ h.of_node hy
          rw [Tree.traverse, hx, hy]
          rfl
  | .logical op x y =>
      cases h.layer hu with
      | logical hx hy =>
          have hx := place_reads x s (h.of_node.of_adds (place_adds y _)) hx
          have hy := place_reads y _ h.of_node hy
          rw [Tree.traverse, hx, hy]
          rfl
  | .conditional x y z =>
      cases h.layer hu with
      | conditional hx hy hz =>
          have grown := h.of_node.of_adds (place_adds z _)
          have hx := place_reads x s (grown.of_adds (place_adds y _)) hx
          have hy := place_reads y _ grown hy
          have hz := place_reads z _ h.of_node hz
          rw [Tree.traverse, hx, hy, hz]
          rfl
  | .ident n =>
      have layer := h.layer (n := .ident (s.name n).1) hu
      cases layer
      rw [Tree.traverse, h.of_node.text?_name]
      rfl
  | .bind ds =>
      have grown := h.of_node
      cases h.layer hu with
      | bind hd hes => -- the span of the node covers the declarations that were placed
          obtain rfl := Option.some.inj (hd.symm.trans grown.declarations?)
          have hes := placeDeclarations_reads ds s grown.of_addDeclarations hes
          rw [Tree.traverse, hes]
          rfl
  | .function p x =>
      have layer := h.layer (n := .function (s.name p).1 (place x (s.name p).2).1) hu
      cases layer with
      | function hx => -- the name is interned before the body is placed
          have hp := (h.of_node.of_adds (place_adds x _)).text?_name
          have hx := place_reads x _ h.of_node hx
          rw [Tree.traverse, hp, hx]
          rfl
  | .call x y =>
      cases h.layer hu with
      | call hx hy =>
          have hx := place_reads x s (h.of_node.of_adds (place_adds y _)) hx
          have hy := place_reads y _ h.of_node hy
          rw [Tree.traverse, hx, hy]
          rfl
  | .assign n x =>
      have layer := h.layer (n := .assign (s.name n).1 (place x (s.name n).2).1) hu
      cases layer with
      | assign hx =>
          have hn := (h.of_node.of_adds (place_adds x _)).text?_name
          have hx := place_reads x _ h.of_node hx
          rw [Tree.traverse, hn, hx]
          rfl
  | .block xs =>
      have grown := h.of_node
      cases h.layer hu with
      | block hd hus =>
          obtain rfl := Option.some.inj (hd.symm.trans grown.statements?)
          have hus := placeAll_reads xs s grown.of_addStatements hus
          rw [Tree.traverse, hus]
          rfl
  | .malformed n =>
      have layer := h.layer (n := .malformed (s.name n).1) hu
      cases layer
      rw [Tree.traverse, h.of_node.text?_name]
      rfl

theorem placeAll_reads (xs : List (Tree String)) (s : Layout) {us : List (Tree Name)}
    (h : (placeAll xs s).2.Grown a t)
    (hus : List.Forall₂ (fun i u => a.tree? i = some u) (placeAll xs s).1 us) :
    Tree.traverseAll t.text? us = some xs := by
  match xs with
  | [] =>
      cases hus
      rfl
  | x :: xs =>
      cases hus with
      | cons hu hus =>
          have hu := place_reads x s (h.of_adds (placeAll_adds xs _)) hu
          have hus := placeAll_reads xs _ h hus
          rw [Tree.traverseAll, hu, hus]
          rfl

theorem placeDeclarations_reads (ds : List (String × Tree String)) (s : Layout)
    {es : List (Name × Tree Name)} (h : (placeDeclarations ds s).2.Grown a t)
    (hes : List.Forall₂ (fun d e => d.name = e.1 ∧ a.tree? d.init = some e.2)
      (placeDeclarations ds s).1 es) :
    Tree.traverseDeclarations t.text? es = some ds := by
  match ds with
  | [] =>
      cases hes
      rfl
  | (n, x) :: ds =>
      match es, hes with
      | (m, u) :: es, .cons ⟨hm, hu⟩ hes =>
          have grown := h.of_adds (placeDeclarations_adds ds _).1
          have hm : (s.name n).1 = m := hm
          have hn : t.text? m = some n := by
            rw [← hm]
            exact (grown.of_adds (place_adds x _)).text?_name
          have hu := place_reads x _ grown hu
          have hes := placeDeclarations_reads ds _ h hes
          rw [Tree.traverseDeclarations, hn, hu, hes]
          rfl

end

end Layout

/-- **A program's statements are read back as they were laid out**: in their order, and all of
them. -/
theorem Program.trees?_ofTrees (statements : List (Tree String)) (t : Interner) :
    ∃ us, (Program.ofTrees statements t).1.trees? = some us ∧
      Tree.traverseAll (Program.ofTrees statements t).2.text? us = some statements := by
  obtain ⟨ids, wf⟩ := Program.wellFormed_of_ofTrees statements t
  have grown : (Layout.placeAll statements ⟨Arena.empty, t⟩).2.Grown
      (Program.ofTrees statements t).1.arena (Program.ofTrees statements t).2 :=
    ⟨.addStatements _ _, fun _ _ e => e⟩
  have body : (Program.ofTrees statements t).1.statements? =
      some (Layout.placeAll statements ⟨Arena.empty, t⟩).1 :=
    Arena.statements?_addStatements _ _
  obtain rfl := Option.some.inj (wf.body.symm.trans body)
  have tree (id : NodeId) (hid : id ∈ (Layout.placeAll statements ⟨Arena.empty, t⟩).1) :
      ∃ u, (Program.ofTrees statements t).1.arena.tree? id = some u :=
    wf.order.ordered.exists_tree? (wf.order.bounds hid).2
  -- Every statement has a tree, and by the lemma above it is the one that was placed.
  obtain ⟨us, hus⟩ := List.exists_forall₂ tree
  refine ⟨us, ?_, Layout.placeAll_reads statements _ grown hus⟩
  unfold Program.trees?
  rw [body]
  exact List.mapM_eq_some_iff_forall₂.mpr hus

/-! ### Written forms of programs

What is written is determined by the trees that are read and by the texts of their names. So a
program that was laid out is written as its statements are. -/

/-- A list of trees is traversed tree by tree. -/
theorem Tree.traverseAll_eq_some_iff {ν μ : Type} {f : ν → Option μ} {us : List (Tree ν)}
    {ts : List (Tree μ)} :
    Tree.traverseAll f us = some ts ↔ List.Forall₂ (fun u x => u.traverse f = some x) us ts := by
  induction us generalizing ts with
  | nil =>
      rw [Tree.traverseAll, List.forall₂_nil_left_iff]
      exact ⟨fun h => (Option.some.inj h).symm, fun h => h ▸ rfl⟩
  | cons u us ih =>
      rw [Tree.traverseAll, List.forall₂_cons_left_iff]
      constructor
      · intro h
        obtain ⟨x, hx, h⟩ := Option.bind_eq_some_iff.mp h
        obtain ⟨xs, hxs, h⟩ := Option.bind_eq_some_iff.mp h
        exact ⟨x, xs, hx, ih.mp hxs, (Option.some.inj h).symm⟩
      · rintro ⟨x, xs, hx, hxs, rfl⟩
        rw [hx, ih.mpr hxs]
        rfl

/-- Writing is reading the tree, putting the names in, and rendering. -/
theorem Arena.render?_of_tree? {a : Arena} {t : Interner} {id : NodeId} {u : Tree Name}
    {x : Tree String} (hu : a.tree? id = some u) (hx : u.traverse t.text? = some x) :
    a.render? t id = some x.render := by
  rw [Arena.render?, hu]
  show (u.traverse t.text?).bind _ = _
  rw [hx]
  rfl

theorem Arena.mapM_render? {a : Arena} {t : Interner} {ids : List NodeId} {us : List (Tree Name)}
    {ts : List (Tree String)} (read : ids.mapM a.tree? = some us)
    (texts : Tree.traverseAll t.text? us = some ts) :
    ids.mapM (a.render? t) = some (ts.map Tree.render) := by
  replace read := List.mapM_eq_some_iff_forall₂.mp read
  replace texts := Tree.traverseAll_eq_some_iff.mp texts
  refine List.mapM_eq_some_iff_forall₂.mpr (List.forall₂_map_right_iff.mpr ?_)
  induction read generalizing ts with
  | nil =>
      cases texts
      exact .nil
  | cons hu _ ih =>
      cases texts with
      | cons hx rest => exact .cons (render?_of_tree? hu hx) (ih rest)

/-- What is written of a program is what is written of its trees, names put in. -/
theorem Program.render?_of_trees? {p : Program} {t : Interner} {us : List (Tree Name)}
    {ts : List (Tree String)} (read : p.trees? = some us)
    (texts : Tree.traverseAll t.text? us = some ts) :
    p.render? t = some (Tree.renderLines ts) := by
  obtain ⟨ids, body, read⟩ := Option.bind_eq_some_iff.mp read
  unfold Program.render?
  rw [body]
  show (ids.mapM (p.arena.render? t)).bind _ = _
  rw [Arena.mapM_render? read texts]
  rfl

/-- A program is written as its statements are, names put in: `_` for the empty one. -/
theorem Program.render?_ofTrees (statements : List (Tree String)) (t : Interner) :
    (Program.ofTrees statements t).1.render? (Program.ofTrees statements t).2 =
      some (Tree.renderLines statements) := by
  obtain ⟨us, read, texts⟩ := Program.trees?_ofTrees statements t
  exact Program.render?_of_trees? read texts

end LexCell
