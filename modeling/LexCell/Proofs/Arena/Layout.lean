import LexCell.Program
import LexCell.Proofs.Arena.Postorder

/-!
# What laying out keeps

`Layout.place` only ever adds: what could be read before reads the same after, a name keeps its
text, and the new tree takes up the new indices in postorder (`Layout.Adds`). So the trees of a
program that comes out of a document fill its arena from the first node to the last, and every
name in it has a text (`Program.WellFormed`, `Program.wellFormed_of_ofJson`).
-/

namespace LexCell

/-! ### Names in arenas

Names are put into nodes and declarations when they have been interned, and texts are never taken
away. So all names in the tables of an arena have texts. -/

def Interner.Knows (t : Interner) (n : Name) : Prop := ∃ text, t.text? n = some text

def Node.names : Node → List Name
  | .ident n | .function n _ | .assign n _ | .malformed n => [n]
  | _ => []

structure Arena.NamesIn (a : Arena) (t : Interner) : Prop where
  nodes : ∀ n ∈ a.nodes, ∀ x ∈ n.names, t.Knows x
  declarations : ∀ d ∈ a.declarations, t.Knows d.name

/-- Every text of the smaller table is that of the same name in the larger one. -/
def Interner.Extends (t t' : Interner) : Prop :=
  ∀ n text, t.text? n = some text → t'.text? n = some text

namespace Interner

/-- A name that is known stays known. -/
theorem Extends.knows {t t' : Interner} (h : t.Extends t') {n : Name} (k : t.Knows n) :
    t'.Knows n := by
  obtain ⟨text, e⟩ := k
  exact ⟨text, h n text e⟩

theorem extends_insert (t : Interner) (s : String) : t.Extends (t.insert s).2 := by
  intro n text e
  have hlt : n.index < t.size := (Array.getElem?_eq_some_iff.mp e).1
  rw [text?_insert, if_neg (by omega)]
  exact e

/-- Interning appends or does nothing. -/
theorem extends_intern (t : Interner) (s : String) : t.Extends (t.intern s).2 := by
  rw [intern_eq]
  unfold insertIfAbsent
  split
  · exact fun _ _ e => e
  · exact extends_insert t s

/-- The name that `intern` answers has the text that was given. -/
theorem text?_intern (t : Interner) (s : String) :
    (t.intern s).2.text? (t.intern s).1 = some s := by
  rw [intern_eq]
  unfold insertIfAbsent
  split
  · next n hn => exact text?_of_find? hn
  · rw [text?_insert]
    exact if_pos rfl

end Interner

namespace Arena.NamesIn

variable {a : Arena} {t : Interner}

theorem extend (h : a.NamesIn t) {t' : Interner} (e : t.Extends t') : a.NamesIn t' :=
  ⟨fun n hn x hx => e.knows (h.nodes n hn x hx), fun d hd => e.knows (h.declarations d hd)⟩

theorem addNode (h : a.NamesIn t) {n : Node} (hn : ∀ x ∈ n.names, t.Knows x) :
    (a.addNode n).2.NamesIn t := by
  refine ⟨?_, h.declarations⟩
  intro m hm
  rcases Array.mem_push.mp hm with hm | rfl
  · exact h.nodes m hm
  · exact hn

theorem addDeclarations (h : a.NamesIn t) {ds : List Declaration}
    (hd : ∀ d ∈ ds, t.Knows d.name) : (a.addDeclarations ds).2.NamesIn t := by
  refine ⟨h.nodes, ?_⟩
  intro d hmem
  rcases Array.mem_append.mp hmem with hmem | hmem
  · exact h.declarations d hmem
  · exact hd d (List.mem_toArray.mp hmem)

end Arena.NamesIn

/-! ### Adding trees

What a step of laying out does is put together by `Adds.append`; the index of a node is known when
its children are placed, and that closes a row (`Adds.node`). -/

namespace Layout

/-- From `s` to `s'` only trees were added: those below `ids`, in postorder. -/
structure Adds (s : Layout) (ids : List NodeId) (s' : Layout) : Prop where
  arena : s.arena.Extends s'.arena
  interner : s.interner.Extends s'.interner
  row : s'.arena.Postorder s.arena.size ids s'.arena.size
  names : s.arena.NamesIn s.interner → s'.arena.NamesIn s'.interner

namespace Adds

variable {s s₁ s₂ : Layout}

theorem refl (s : Layout) : s.Adds [] s := ⟨.refl _, fun _ _ e => e, .nil _, fun h => h⟩

/-- Two rows one after the other are a row. -/
theorem append {xs ys : List NodeId} (h : s.Adds xs s₁) (h' : s₁.Adds ys s₂) :
    s.Adds (xs ++ ys) s₂ :=
  ⟨h.arena.trans h'.arena, fun n text e => h'.interner n text (h.interner n text e),
    (h'.arena.postorder h.row).append h'.row, fun n => h'.names (h.names n)⟩

/-- Interning a name adds no node. -/
theorem name (s : Layout) (text : String) : s.Adds [] (s.name text).2 :=
  ⟨.refl _, Interner.extends_intern s.interner text, .nil _,
    fun h => h.extend (Interner.extends_intern s.interner text)⟩

/-- A node after its children. -/
theorem node {kids : List NodeId} {n : Node} (h : s.Adds kids s₁)
    (hk : n.children? s₁.arena = some kids) (hn : ∀ x ∈ n.names, s₁.interner.Knows x) :
    s.Adds [(s₁.node n).1] (s₁.node n).2 := by
  have grows : s₁.arena.Extends (s₁.node n).2.arena := .addNode s₁.arena n
  have found : (s₁.node n).2.arena.node? (s₁.node n).1 = some n := by
    show (s₁.arena.addNode n).2.node? ⟨s₁.arena.nodes.size⟩ = some n
    rw [Arena.node?_addNode]
    exact if_pos rfl
  have size : (s₁.node n).2.arena.size = s₁.arena.size + 1 := Array.size_push n
  have children : (s₁.node n).2.arena.children? (s₁.node n).1 = some kids := by
    rw [Arena.children?_of_node? found]
    exact grows.node_children? hk
  -- The new node stands after its children, at the end of the row.
  refine ⟨h.arena.trans grows, h.interner, ?_, fun names => (h.names names).addNode hn⟩
  rw [size]
  exact Arena.Postorder.single children (grows.postorder h.row)

theorem addStatements (s : Layout) (ids : List NodeId) :
    s.Adds [] { s with arena := (s.arena.addStatements ids).2 } :=
  ⟨.addStatements _ _, fun _ _ e => e, .nil _, fun h => ⟨h.nodes, h.declarations⟩⟩

theorem addDeclarations (s : Layout) {ds : List Declaration}
    (hd : ∀ d ∈ ds, s.interner.Knows d.name) :
    s.Adds [] { s with arena := (s.arena.addDeclarations ds).2 } :=
  ⟨.addDeclarations _ _, fun _ _ e => e, .nil _, fun h => h.addDeclarations hd⟩

end Adds

/-! ### Placing trees

By induction on the tree, for its parts are placed before it. -/

theorem knows_name (s : Layout) (text : String) :
    (s.name text).2.interner.Knows (s.name text).1 :=
  ⟨text, Interner.text?_intern s.interner text⟩

private theorem knows_of_mem_singleton {t : Interner} {n : Name} (h : t.Knows n) :
    ∀ x ∈ [n], t.Knows x := by
  intro x hx
  rw [List.mem_singleton.mp hx]
  exact h

mutual

/-- A tree that is placed takes up the new indices in postorder. -/
theorem place_adds (t : Tree String) (s : Layout) : s.Adds [(place t s).1] (place t s).2 := by
  match t with
  | .number _ => exact (Adds.refl s).node rfl nofun
  | .boolean _ => exact (Adds.refl s).node rfl nofun
  | .unary _ t => exact (place_adds t s).node rfl nofun
  | .binary _ l r =>
      have hl := place_adds l s
      have hr := place_adds r (place l s).2
      exact (hl.append hr).node rfl nofun
  | .logical _ l r =>
      have hl := place_adds l s
      have hr := place_adds r (place l s).2
      exact (hl.append hr).node rfl nofun
  | .conditional t c a =>
      have ht := place_adds t s
      have hc := place_adds c (place t s).2
      have ha := place_adds a (place c (place t s).2).2
      exact ((ht.append hc).append ha).node rfl nofun
  | .ident n => exact (Adds.name s n).node rfl (knows_of_mem_singleton (knows_name s n))
  | .bind ds =>
      obtain ⟨hds, hnames⟩ := placeDeclarations_adds ds s
      refine (hds.append (Adds.addDeclarations _ hnames)).node ?_ nofun
      rw [List.append_nil]
      -- The children of a `let` are the initial values that its span covers.
      exact Option.map_eq_some_iff.mpr ⟨_, Arena.declarations?_addDeclarations _ _, rfl⟩
  | .function p b =>
      have hp := Adds.name s p
      have hb := place_adds b (s.name p).2
      -- The parameter is known before the body is placed, and stays known.
      exact (hp.append hb).node rfl
        (knows_of_mem_singleton (hb.interner.knows (knows_name s p)))
  | .call c a =>
      have hc := place_adds c s
      have ha := place_adds a (place c s).2
      exact (hc.append ha).node rfl nofun
  | .assign n v =>
      have hn := Adds.name s n
      have hv := place_adds v (s.name n).2
      exact (hn.append hv).node rfl
        (knows_of_mem_singleton (hv.interner.knows (knows_name s n)))
  | .block ss =>
      refine ((placeAll_adds ss s).append (Adds.addStatements _ _)).node ?_ nofun
      rw [List.append_nil]
      exact Arena.statements?_addStatements _ _
  | .malformed n => exact (Adds.name s n).node rfl (knows_of_mem_singleton (knows_name s n))

theorem placeAll_adds (ts : List (Tree String)) (s : Layout) :
    s.Adds (placeAll ts s).1 (placeAll ts s).2 := by
  match ts with
  | [] => exact Adds.refl s
  | t :: ts => exact (place_adds t s).append (placeAll_adds ts (place t s).2)

theorem placeDeclarations_adds (ds : List (String × Tree String)) (s : Layout) :
    s.Adds ((placeDeclarations ds s).1.map Declaration.init) (placeDeclarations ds s).2 ∧
      ∀ d ∈ (placeDeclarations ds s).1, (placeDeclarations ds s).2.interner.Knows d.name := by
  match ds with
  | [] => exact ⟨Adds.refl s, nofun⟩
  | (n, t) :: ds =>
      have hn := Adds.name s n
      have ht := place_adds t (s.name n).2
      obtain ⟨hds, hnames⟩ := placeDeclarations_adds ds (place t (s.name n).2).2
      refine ⟨(hn.append ht).append hds, ?_⟩
      intro d hd
      rcases List.mem_cons.mp hd with rfl | hd
      · exact hds.interner.knows (ht.interner.knows (knows_name s n))
      · exact hnames d hd

end

end Layout

/-! ### Programs -/

/-- The trees of the statements `ids` fill the arena from the first node to the last, and every
name has a text. -/
structure Program.WellFormed (p : Program) (t : Interner) (ids : List NodeId) : Prop where
  body : p.statements? = some ids
  order : p.arena.Postorder 0 ids p.arena.size
  names : p.arena.NamesIn t

/-- Whatever trees are laid out, the program is well formed. -/
theorem Program.wellFormed_of_ofTrees (statements : List (Tree String)) (t : Interner) :
    ∃ ids, (Program.ofTrees statements t).1.WellFormed (Program.ofTrees statements t).2 ids := by
  have h := Layout.placeAll_adds statements ⟨Arena.empty, t⟩
  refine ⟨_, Arena.statements?_addStatements _ _, ?_, ?_⟩
  · -- the list of the program itself comes last, and adds no node
    exact (Arena.Extends.addStatements _ _).postorder h.row
  · have names := h.names ⟨nofun, nofun⟩
    exact ⟨names.nodes, names.declarations⟩

/-- **What comes out of a document is well formed.** -/
theorem Program.wellFormed_of_ofJson {doc : Json} {t t' : Interner} {p : Program}
    (h : Program.ofJson doc t = (.ok p, t')) : ∃ ids, p.WellFormed t' ids := by
  unfold Program.ofJson at h
  dsimp only at h
  split at h
  · next statements _ =>
    cases h
    exact Program.wellFormed_of_ofTrees statements t
  · cases h

theorem Program.wellFormed_of_ofText {detail source : String} {t t' : Interner} {p : Program}
    (h : Program.ofText detail source t = (.ok p, t')) : ∃ ids, p.WellFormed t' ids := by
  unfold Program.ofText at h
  split at h
  · cases h
  · split at h
    · next hp =>
      cases h
      exact Program.wellFormed_of_ofJson hp
    · cases h

/-! ### A small program

The program `let f = x => x; f(1)`, for trying statements about all programs on. -/

def Json.sample : Json :=
  .object [("type", .string "Program"), ("body", .array [
    .object [("type", .string "VariableDeclaration"), ("declarations", .array [
      .object [("type", .string "VariableDeclarator"),
        ("id", .object [("type", .string "Identifier"), ("name", .string "f")]),
        ("init", .object [("type", .string "ArrowFunctionExpression"),
          ("params", .array [.object [("type", .string "Identifier"), ("name", .string "x")]]),
          ("body", .object [("type", .string "Identifier"), ("name", .string "x")])])]])],
    .object [("type", .string "ExpressionStatement"),
      ("expression", .object [("type", .string "CallExpression"),
        ("callee", .object [("type", .string "Identifier"), ("name", .string "f")]),
        ("arguments", .array [
          .object [("type", .string "Literal"), ("value", .number (.integer 1))]])])]])]

def Program.sample : Program where
  arena := {
    nodes := #[.ident ⟨2⟩, .function ⟨2⟩ ⟨0⟩, .bind ⟨0, 1⟩, .ident ⟨1⟩, .number 1, .call ⟨3⟩ ⟨4⟩]
    statementLists := #[⟨2⟩, ⟨5⟩]
    declarations := #[⟨⟨1⟩, ⟨1⟩⟩] }
  body := ⟨0, 2⟩

def Interner.sample : Interner := ⟨#["", "f", "x"]⟩

theorem Program.ofJson_sample :
    Program.ofJson Json.sample Interner.initial = (.ok Program.sample, Interner.sample) := by
  decide +kernel

end LexCell
