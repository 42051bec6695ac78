import LexCell.Proofs.Arena.Layout
import LexCell.Proofs.Correspondence

/-!
# Laying out with other names

Which names a tree gets depends on what the interner held before, and nothing else does: from two
interners the same trees are laid out alike, node by node, with names of the same texts
(`Program.ofTrees_alike`).
-/

namespace LexCell

def Name.SameText (t t' : Interner) (n m : Name) : Prop :=
  ∃ text, t.text? n = some text ∧ t'.text? m = some text

/-- Names of the same text keep it while the interners grow. -/
theorem Name.SameText.grow {t t' u u' : Interner} {n m : Name} (h : n.SameText t t' m)
    (ht : t.Extends u) (ht' : t'.Extends u') : n.SameText u u' m := by
  obtain ⟨text, hn, hm⟩ := h
  exact ⟨text, ht n text hn, ht' m text hm⟩

/-! ### Growing alike

Whatever is added to both, the tables stay alike. Indices and spans depend on the sizes of the
tables only, and these are the same. -/

theorem Node.Alike.mono {N N' : Name → Name → Prop} (sub : ∀ n m, N n m → N' n m) {n n' : Node}
    (h : n.Alike N n') : n.Alike N' n' := by
  cases h with
  | number n => exact .number n
  | boolean b => exact .boolean b
  | unary op x => exact .unary op x
  | binary op x y => exact .binary op x y
  | logical op x y => exact .logical op x y
  | conditional x y z => exact .conditional x y z
  | ident h => exact .ident (sub _ _ h)
  | bind span => exact .bind span
  | function x h => exact .function x (sub _ _ h)
  | call x y => exact .call x y
  | assign x h => exact .assign x (sub _ _ h)
  | block span => exact .block span
  | malformed h => exact .malformed (sub _ _ h)

theorem Node.Alike.of_eq {N : Name → Name → Prop} {n m m' : Node} (h : n.Alike N m)
    (e : m' = m) : n.Alike N m' :=
  e ▸ h

namespace Arena.Alike

variable {N : Name → Name → Prop} {a a' : Arena}

theorem mono {N' : Name → Name → Prop} (h : a.Alike N a') (sub : ∀ n m, N n m → N' n m) :
    a.Alike N' a' :=
  ⟨h.nodes.imp fun _ _ => Node.Alike.mono sub, h.statementLists,
    h.declarations.imp fun _ _ hd => ⟨sub _ _ hd.name, hd.init⟩⟩

theorem size_eq (h : a.Alike N a') : a'.nodes.size = a.nodes.size := h.nodes.length_eq.symm

end Arena.Alike

namespace Layout

/-- The tables differ in names only, and these have the same texts. -/
def Alike (s s' : Layout) : Prop :=
  s.arena.Alike (Name.SameText s.interner s'.interner) s'.arena

namespace Alike

variable {s s' : Layout}

/-- A node goes to the same index, for the arenas have equally many. -/
theorem node (h : s.Alike s') {n n' : Node}
    (hn : n.Alike (Name.SameText s.interner s'.interner) n') :
    (s'.node n').1 = (s.node n).1 ∧ (s.node n).2.Alike (s'.node n').2 := by
  refine ⟨congrArg NodeId.mk h.size_eq, ?_, h.statementLists, h.declarations⟩
  show List.Forall₂ _ (s.arena.nodes.push n).toList (s'.arena.nodes.push n').toList
  rw [Array.toList_push, Array.toList_push]
  exact List.rel_append h.nodes (.cons hn .nil)

/-- The names that a text gets may differ, but have this text. -/
theorem name (h : s.Alike s') (text : String) :
    (s.name text).1.SameText (s.name text).2.interner (s'.name text).2.interner (s'.name text).1 ∧
      (s.name text).2.Alike (s'.name text).2 := by
  refine ⟨⟨text, Interner.text?_intern _ text, Interner.text?_intern _ text⟩, h.mono ?_⟩
  exact fun n m hnm => hnm.grow (Interner.extends_intern _ text) (Interner.extends_intern _ text)

theorem addStatements (h : s.Alike s') {ids ids' : List NodeId} (hids : ids' = ids) :
    (s'.arena.addStatements ids').1 = (s.arena.addStatements ids).1 ∧
      Alike { s with arena := (s.arena.addStatements ids).2 }
        { s' with arena := (s'.arena.addStatements ids').2 } := by
  obtain ⟨nodes, lists, declarations⟩ := h
  subst hids
  refine ⟨?_, nodes, ?_, declarations⟩
  · simp only [Arena.addStatements, lists]
  · simp only [Arena.addStatements, lists]

theorem addDeclarations (h : s.Alike s') {ds ds' : List Declaration}
    (hds : List.Forall₂ (Declaration.Alike (Name.SameText s.interner s'.interner)) ds ds') :
    (s'.arena.addDeclarations ds').1 = (s.arena.addDeclarations ds).1 ∧
      Alike { s with arena := (s.arena.addDeclarations ds).2 }
        { s' with arena := (s'.arena.addDeclarations ds').2 } := by
  obtain ⟨nodes, lists, declarations⟩ := h
  have size : s'.arena.declarations.size = s.arena.declarations.size := declarations.length_eq.symm
  refine ⟨?_, nodes, lists, ?_⟩
  · simp only [Arena.addDeclarations, size, hds.length_eq]
  · simp only [Arena.addDeclarations, Array.toList_append]
    exact List.rel_append declarations hds

end Alike

/-! ### Placing trees

By induction on the tree: its parts have gone to the same places, so the nodes that are added for it
refer to the same indices. -/

mutual

/-- A tree goes to the same place in tables that are alike, and leaves them alike. -/
theorem place_alike (x : Tree String) {s s' : Layout} (h : s.Alike s') :
    (place x s').1 = (place x s).1 ∧ (place x s).2.Alike (place x s').2 := by
  match x with
  | .number n => exact h.node (.number n)
  | .boolean b => exact h.node (.boolean b)
  | .unary op x =>
      obtain ⟨hx, h⟩ := place_alike x h
      exact h.node (.of_eq (.unary op _) (congrArg _ hx))
  | .binary op x y =>
      obtain ⟨hx, h⟩ := place_alike x h
      obtain ⟨hy, h⟩ := place_alike y h
      exact h.node (.of_eq (.binary op _ _) (congrArg₂ _ hx hy))
  | .logical op x y =>
      obtain ⟨hx, h⟩ := place_alike x h
      obtain ⟨hy, h⟩ := place_alike y h
      exact h.node (.of_eq (.logical op _ _) (congrArg₂ _ hx hy))
  | .conditional x y z =>
      obtain ⟨hx, h⟩ := place_alike x h
      obtain ⟨hy, h⟩ := place_alike y h
      obtain ⟨hz, h⟩ := place_alike z h
      exact h.node (.of_eq (.conditional _ _ _) (congr (congrArg₂ _ hx hy) hz))
  | .ident n =>
      obtain ⟨hn, h⟩ := h.name n
      exact h.node (.ident hn)
  | .bind ds =>
      obtain ⟨hds, h⟩ := placeDeclarations_alike ds h
      obtain ⟨span, h⟩ := h.addDeclarations hds
      exact h.node (.of_eq (.bind _) (congrArg _ span))
  | .function n x =>
      obtain ⟨hn, h⟩ := h.name n
      obtain ⟨hx, h⟩ := place_alike x h
      -- The name was interned before the body was placed.
      have hn := hn.grow (place_adds x _).interner (place_adds x _).interner
      exact h.node (.of_eq (.function _ hn) (congrArg _ hx))
  | .call x y =>
      obtain ⟨hx, h⟩ := place_alike x h
      obtain ⟨hy, h⟩ := place_alike y h
      exact h.node (.of_eq (.call _ _) (congrArg₂ _ hx hy))
  | .assign n x =>
      obtain ⟨hn, h⟩ := h.name n
      obtain ⟨hx, h⟩ := place_alike x h
      have hn := hn.grow (place_adds x _).interner (place_adds x _).interner
      exact h.node (.of_eq (.assign _ hn) (congrArg _ hx))
  | .block xs =>
      obtain ⟨hxs, h⟩ := placeAll_alike xs h
      obtain ⟨span, h⟩ := h.addStatements hxs
      exact h.node (.of_eq (.block _) (congrArg _ span))
  | .malformed n =>
      obtain ⟨hn, h⟩ := h.name n
      exact h.node (.malformed hn)

theorem placeAll_alike (xs : List (Tree String)) {s s' : Layout} (h : s.Alike s') :
    (placeAll xs s').1 = (placeAll xs s).1 ∧ (placeAll xs s).2.Alike (placeAll xs s').2 := by
  match xs with
  | [] => exact ⟨rfl, h⟩
  | x :: xs =>
      obtain ⟨hx, h⟩ := place_alike x h
      obtain ⟨hxs, h⟩ := placeAll_alike xs h
      refine ⟨?_, h⟩
      show _ :: _ = _ :: _
      rw [hx, hxs]

theorem placeDeclarations_alike (ds : List (String × Tree String)) {s s' : Layout}
    (h : s.Alike s') :
    List.Forall₂ (Declaration.Alike (Name.SameText (placeDeclarations ds s).2.interner
        (placeDeclarations ds s').2.interner)) (placeDeclarations ds s).1
        (placeDeclarations ds s').1 ∧
      (placeDeclarations ds s).2.Alike (placeDeclarations ds s').2 := by
  match ds with
  | [] => exact ⟨.nil, h⟩
  | (n, x) :: ds =>
      obtain ⟨hn, h⟩ := h.name n
      obtain ⟨hx, h⟩ := place_alike x h
      obtain ⟨hds, h⟩ := placeDeclarations_alike ds h
      refine ⟨.cons ⟨?_, hx⟩ hds, h⟩
      have hn := hn.grow (place_adds x _).interner (place_adds x _).interner
      exact hn.grow (placeDeclarations_adds ds _).1.interner (placeDeclarations_adds ds _).1.interner

end

end Layout

/-! ### Programs -/

/-- The programs differ in names only, and these are related. -/
structure Program.Alike (N : Name → Name → Prop) (p p' : Program) : Prop where
  arena : p.arena.Alike N p'.arena
  body : p'.body = p.body

/-- **The same trees are laid out alike from any two interners.** -/
theorem Program.ofTrees_alike (statements : List (Tree String)) (t t' : Interner) :
    (Program.ofTrees statements t).1.Alike
      (Name.SameText (Program.ofTrees statements t).2 (Program.ofTrees statements t').2)
      (Program.ofTrees statements t').1 := by
  have start : Layout.Alike ⟨Arena.empty, t⟩ ⟨Arena.empty, t'⟩ := ⟨.nil, rfl, .nil⟩
  obtain ⟨hids, h⟩ := Layout.placeAll_alike statements start
  obtain ⟨body, h⟩ := h.addStatements hids
  exact ⟨h, body⟩

end LexCell
