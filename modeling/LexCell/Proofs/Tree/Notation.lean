import LexCell.Proofs.Arena.Canonical
import LexCell.Proofs.Decimal
import LexCell.Proofs.Sexp

/-!
# Trees can be told from what is written of them

What is written of a tree are the characters of a form (`Tree.sexp`), the form is read back
(`Tree.tree?_sexp`), and where it ends can be told from its characters: so no two trees are written
alike (`Tree.eq_of_render`). This needs names that keep their shape. A name with a delimiter in it
could be any part of a form, and the name `_` is written as the empty one is.

Heads say which kind of tree it is. Unary, arithmetic and logical operators share symbols, but not
heads.
-/

namespace LexCell

/-! ### Reading forms -/

/-- The name that is written so. -/
def ofLabel (label : String) : String := if label = "_" then "" else label

def truth? : String → Option Bool
  | "true" => some true
  | "false" => some false
  | _ => none

mutual

def Sexp.tree? : Sexp → Option (Tree String)
  | .word n => some (.ident (ofLabel n))
  | .form .round "number" [.word n] => do some (.number (← ofDecimal? n))
  | .form .round "boolean" [.word b] => do some (.boolean (← truth? b))
  | .form .round "unary" [.word op, t] => do some (.unary (← UnaryOp.ofSymbol? op) (← tree? t))
  -- The heads of the two families are read alike; the operator says the rest.
  | .form .round "arithmetic" [.word op, l, r]
  | .form .round "relational" [.word op, l, r] => do
      some (.binary (← BinaryOp.ofSymbol? op) (← tree? l) (← tree? r))
  | .form .round "logical" [.word op, l, r] => do
      some (.logical (← LogicalOp.ofSymbol? op) (← tree? l) (← tree? r))
  | .form .round "conditional" [t, c, a] => do
      some (.conditional (← tree? t) (← tree? c) (← tree? a))
  | .form .round "let" entries => do some (.bind (← declarations? entries))
  | .form .round "function" [.word p, b] => do some (.function (ofLabel p) (← tree? b))
  | .form .round "call" [c, a] => do some (.call (← tree? c) (← tree? a))
  | .form .round "assign" [.word n, v] => do some (.assign (ofLabel n) (← tree? v))
  | .form .round "block" ss => do some (.block (← trees? ss))
  | .form .round "malformed" [.word n] => some (.malformed (ofLabel n))
  | _ => none

def Sexp.trees? : List Sexp → Option (List (Tree String))
  | [] => some []
  | s :: ss => do some ((← tree? s) :: (← trees? ss))

def Sexp.declarations? : List Sexp → Option (List (String × Tree String))
  | [] => some []
  | .form .square n [t] :: ds => do some ((ofLabel n, ← tree? t) :: (← declarations? ds))
  | _ => none

end

namespace Tree

/-! ### Writing forms -/

mutual

def sexp : Tree String → Sexp
  | number n => .form .round "number" [.word (decimal n)]
  | boolean b => .form .round "boolean" [.word (truth b)]
  | unary op t => .form .round "unary" [.word op.symbol, sexp t]
  | binary op l r => .form .round op.family.label [.word op.symbol, sexp l, sexp r]
  | logical op l r => .form .round "logical" [.word op.symbol, sexp l, sexp r]
  | conditional t c a => .form .round "conditional" [sexp t, sexp c, sexp a]
  | ident n => .word (label n)
  | bind ds => .form .round "let" (sexpDeclarations ds)
  | function p b => .form .round "function" [.word (label p), sexp b]
  | call c a => .form .round "call" [sexp c, sexp a]
  | assign n v => .form .round "assign" [.word (label n), sexp v]
  | block ss => .form .round "block" (sexpAll ss)
  | malformed n => .form .round "malformed" [.word (label n)]

def sexpAll : List (Tree String) → List Sexp
  | [] => []
  | t :: ts => sexp t :: sexpAll ts

def sexpDeclarations : List (String × Tree String) → List Sexp
  | [] => []
  | (n, t) :: ds => .form .square (label n) [sexp t] :: sexpDeclarations ds

end

mutual

theorem render_toList (t : Tree String) : t.render.toList = t.sexp.chars := by
  unfold render sexp
  match t with
  | .number n | .boolean b | .ident n | .malformed n => simp
  | .unary op t | .function p t | .assign n t => simp [render_toList t]
  | .binary op l r | .logical op l r | .call l r => simp [render_toList l, render_toList r]
  | .conditional t c a => simp [render_toList t, render_toList c, render_toList a]
  | .bind ds => simp [renderDeclarations_toList ds]
  | .block ss => simp [renderAll_toList ss]

theorem renderAll_toList (ts : List (Tree String)) :
    (renderAll ts).toList = Sexp.charsAll (sexpAll ts) := by
  cases ts with
  | nil => rfl
  | cons t ts => simp [renderAll, sexpAll, render_toList t, renderAll_toList ts]

theorem renderDeclarations_toList (ds : List (String × Tree String)) :
    (renderDeclarations ds).toList = Sexp.charsAll (sexpDeclarations ds) := by
  match ds with
  | [] => rfl
  | (n, t) :: ds =>
      simp [renderDeclarations, sexpDeclarations, render_toList t, renderDeclarations_toList ds]

end

/-! ### Names

A name is written as a word by itself, so it must be one; the empty name is written as `_`, which
then is no name. -/

/-- The text of a name that keeps its shape when it is written. -/
def CleanName (n : String) : Prop := n ≠ "_" ∧ ∀ c ∈ n.toList, c ∉ delimiters

instance (n : String) : Decidable (CleanName n) := inferInstanceAs (Decidable (_ ∧ _))

def Clean (t : Tree String) : Prop := ∀ n ∈ t.names, CleanName n

instance (t : Tree String) : Decidable t.Clean :=
  List.decidableBAll (fun n => CleanName n) t.names

theorem CleanName.ofLabel_label {n : String} (h : CleanName n) : ofLabel (label n) = n := by
  unfold label ofLabel
  split
  · next empty => rw [if_pos rfl, empty]
  · rw [if_neg h.1]

theorem CleanName.isWord_label {n : String} (h : CleanName n) : IsWord (label n) := by
  unfold label
  split
  · decide
  · next nonempty => exact ⟨nonempty, h.2⟩

/-! ### Reading back -/

/-- A binary form is read in the same way under either head. -/
theorem tree?_family (f : BinaryOp.Family) (op : BinaryOp) (l r : Sexp) :
    Sexp.tree? (.form .round f.label [.word op.symbol, l, r]) =
      (do some (.binary op (← l.tree?) (← r.tree?))) := by
  cases f <;> simp [Sexp.tree?, BinaryOp.Family.label]

mutual

/-- **A form is read as the tree it was written for.** -/
theorem tree?_sexp (t : Tree String) (h : ∀ n ∈ t.names, CleanName n) : t.sexp.tree? = some t := by
  match t with
  | .number n => simp [sexp, Sexp.tree?, ofDecimal?_decimal]
  | .boolean b => cases b <;> simp [sexp, Sexp.tree?, truth, truth?]
  | .ident n => simp [sexp, Sexp.tree?, (h n (by simp [names])).ofLabel_label]
  | .unary op t => simp [sexp, Sexp.tree?, tree?_sexp t h]
  | .binary op l r =>
      simp only [names, List.forall_mem_append] at h
      simp [sexp, tree?_family, tree?_sexp l h.1, tree?_sexp r h.2]
  | .logical op l r =>
      simp only [names, List.forall_mem_append] at h
      simp [sexp, Sexp.tree?, tree?_sexp l h.1, tree?_sexp r h.2]
  | .call l r =>
      simp only [names, List.forall_mem_append] at h
      simp [sexp, Sexp.tree?, tree?_sexp l h.1, tree?_sexp r h.2]
  | .conditional t c a =>
      simp only [names, List.forall_mem_append] at h
      simp [sexp, Sexp.tree?, tree?_sexp t h.1.1, tree?_sexp c h.1.2, tree?_sexp a h.2]
  | .function p t =>
      simp only [names, List.forall_mem_cons] at h
      simp [sexp, Sexp.tree?, tree?_sexp t h.2, h.1.ofLabel_label]
  | .assign p t =>
      simp only [names, List.forall_mem_cons] at h
      simp [sexp, Sexp.tree?, tree?_sexp t h.2, h.1.ofLabel_label]
  | .bind ds => simp [sexp, Sexp.tree?, declarations?_sexp ds h]
  | .block ss => simp [sexp, Sexp.tree?, trees?_sexp ss h]
  | .malformed n => simp [sexp, Sexp.tree?, (h n (by simp [names])).ofLabel_label]

theorem trees?_sexp (ts : List (Tree String)) (h : ∀ n ∈ namesAll ts, CleanName n) :
    Sexp.trees? (sexpAll ts) = some ts := by
  match ts with
  | [] => rfl
  | t :: ts =>
      simp only [namesAll, List.forall_mem_append] at h
      simp [sexpAll, Sexp.trees?, tree?_sexp t h.1, trees?_sexp ts h.2]

theorem declarations?_sexp (ds : List (String × Tree String))
    (h : ∀ n ∈ namesDeclarations ds, CleanName n) :
    Sexp.declarations? (sexpDeclarations ds) = some ds := by
  match ds with
  | [] => rfl
  | (n, t) :: ds =>
      simp only [namesDeclarations, List.forall_mem_append, List.cons_append,
        List.forall_mem_cons] at h
      simp [sexpDeclarations, Sexp.declarations?, tree?_sexp t h.2.1, declarations?_sexp ds h.2.2,
        h.1.ofLabel_label]

end

/-! ### The words of a form -/

/-- No digit is a delimiter, nor is a sign. -/
theorem isWord_of_writes {text : String} {n : Int} (h : Writes text.toList n) : IsWord text := by
  have digit {c : Char} (hc : c.isDigit) : c ∉ delimiters := by
    have none : delimiters.all (fun d => !d.isDigit) := by decide
    intro mem
    have other := List.all_eq_true.mp none c mem
    rw [hc] at other
    cases other
  -- A number has at least one digit.
  have nonempty : text.toList ≠ [] := by
    intro empty
    rw [empty] at h
    cases h with
    | plain nonempty => exact nonempty rfl
  refine ⟨mt String.toList_eq_nil_iff.mpr nonempty, ?_⟩
  generalize text.toList = cs at h
  cases h with
  | plain _ digits => exact fun c hc => digit (digits c hc)
  | plus _ digits | minus _ digits =>
      exact List.forall_mem_cons.mpr ⟨by decide, fun c hc => digit (digits c hc)⟩

theorem isWord_truth (b : Bool) : IsWord (truth b) := by
  cases b <;> decide

theorem isWord_unary (op : UnaryOp) : IsWord op.symbol := by
  cases op <;> decide

theorem isWord_binary (op : BinaryOp) : IsWord op.symbol := by
  cases op <;> decide

theorem isWord_family (f : BinaryOp.Family) : IsWord f.label := by
  cases f <;> decide

theorem isWord_logical (op : LogicalOp) : IsWord op.symbol := by
  cases op <;> decide

mutual

theorem proper_sexp (t : Tree String) (h : ∀ n ∈ t.names, CleanName n) : t.sexp.Proper := by
  match t with
  | .number n => exact ⟨by decide, isWord_of_writes (decimal_writes n), trivial⟩
  | .boolean b => exact ⟨by decide, isWord_truth b, trivial⟩
  | .ident n => exact (h n (by simp [names])).isWord_label
  | .malformed n => exact ⟨by decide, (h n (by simp [names])).isWord_label, trivial⟩
  | .unary op t => exact ⟨by decide, isWord_unary op, proper_sexp t h, trivial⟩
  | .binary op l r =>
      simp only [names, List.forall_mem_append] at h
      exact ⟨isWord_family _, isWord_binary op, proper_sexp l h.1, proper_sexp r h.2, trivial⟩
  | .logical op l r =>
      simp only [names, List.forall_mem_append] at h
      exact ⟨by decide, isWord_logical op, proper_sexp l h.1, proper_sexp r h.2, trivial⟩
  | .call l r =>
      simp only [names, List.forall_mem_append] at h
      exact ⟨by decide, proper_sexp l h.1, proper_sexp r h.2, trivial⟩
  | .conditional t c a =>
      simp only [names, List.forall_mem_append] at h
      exact ⟨by decide, proper_sexp t h.1.1, proper_sexp c h.1.2, proper_sexp a h.2, trivial⟩
  | .function n t | .assign n t =>
      simp only [names, List.forall_mem_cons] at h
      exact ⟨by decide, h.1.isWord_label, proper_sexp t h.2, trivial⟩
  | .bind ds => exact ⟨by decide, proper_sexpDeclarations ds h⟩
  | .block ss => exact ⟨by decide, proper_sexpAll ss h⟩

theorem proper_sexpAll (ts : List (Tree String)) (h : ∀ n ∈ namesAll ts, CleanName n) :
    Sexp.ProperAll (sexpAll ts) := by
  match ts with
  | [] => trivial
  | t :: ts =>
      simp only [namesAll, List.forall_mem_append] at h
      exact ⟨proper_sexp t h.1, proper_sexpAll ts h.2⟩

theorem proper_sexpDeclarations (ds : List (String × Tree String))
    (h : ∀ n ∈ namesDeclarations ds, CleanName n) : Sexp.ProperAll (sexpDeclarations ds) := by
  match ds with
  | [] => trivial
  | (n, t) :: ds =>
      simp only [namesDeclarations, List.forall_mem_append, List.cons_append,
        List.forall_mem_cons] at h
      exact ⟨⟨h.1.isWord_label, proper_sexp t h.2.1, trivial⟩, proper_sexpDeclarations ds h.2.2⟩

end

/-! ### No two trees are written alike -/

/-- Where a tree ends can be told, and which one it is. -/
theorem render_append_inj {x y : Tree String} (hx : x.Clean) (hy : y.Clean) {r r' : List Char}
    (hr : WordEnds r) (hr' : WordEnds r')
    (h : x.render.toList ++ r = y.render.toList ++ r') : x = y ∧ r = r' := by
  rw [render_toList, render_toList] at h
  obtain ⟨same, rest⟩ := Sexp.chars_append_inj _ (proper_sexp x hx) (proper_sexp y hy) hr hr' h
  -- The two forms are the same, and a form is read as one tree.
  have read : some x = some y := by
    rw [← tree?_sexp x hx, ← tree?_sexp y hy, same]
  exact ⟨Option.some.inj read, rest⟩

theorem eq_of_render {x y : Tree String} (hx : x.Clean) (hy : y.Clean) (h : x.render = y.render) :
    x = y := by
  refine (render_append_inj hx hy .nil .nil ?_).1
  rw [h]

/-- What is written of a tree is not empty, whatever its names are. -/
theorem chars_render_ne_nil {x : Tree String} (hx : x.Clean) : x.render.toList ≠ [] := by
  rw [render_toList]
  exact Sexp.chars_ne_nil (proper_sexp x hx)

/-- Lines with a line break before each. -/
def laterLines (xs : List (Tree String)) : List Char :=
  xs.flatMap fun x => '\n' :: x.render.toList

@[simp] theorem laterLines_cons (x : Tree String) (xs : List (Tree String)) :
    laterLines (x :: xs) = '\n' :: (x.render.toList ++ laterLines xs) := by
  simp [laterLines]

theorem wordEnds_laterLines (xs : List (Tree String)) : WordEnds (laterLines xs) := by
  cases xs with
  | nil => exact .nil
  | cons x xs =>
      rw [laterLines_cons]
      exact .cons (by decide) _

theorem laterLines_inj {xs ys : List (Tree String)} (hxs : ∀ x ∈ xs, x.Clean)
    (hys : ∀ y ∈ ys, y.Clean) (h : laterLines xs = laterLines ys) : xs = ys := by
  induction xs generalizing ys with
  | nil =>
      cases ys with
      | nil => rfl
      | cons y ys => cases h
  | cons x xs ih =>
      cases ys with
      | nil => cases h
      | cons y ys =>
          rw [laterLines_cons, laterLines_cons] at h
          rw [List.forall_mem_cons] at hxs hys
          -- A line ends before a line break or at the end of the text, which ends any word.
          obtain ⟨rfl, rest⟩ := render_append_inj hxs.1 hys.1 (wordEnds_laterLines xs)
            (wordEnds_laterLines ys) (List.cons.inj h).2
          rw [ih hxs.2 hys.2 rest]

theorem renderLines_toList (x : Tree String) (xs : List (Tree String)) :
    (renderLines (x :: xs)).toList = x.render.toList ++ laterLines xs := by
  rw [renderLines, String.toList_intercalate]
  induction xs generalizing x with
  | nil => simp [laterLines]
  -- Only the break between the first two lines has to be brought out.
  | cons y ys ih => simp_all [List.intercalate]

theorem renderLines_cons_ne_empty {x : Tree String} (hx : x.Clean) (xs : List (Tree String)) :
    renderLines (x :: xs) ≠ "" := by
  intro empty
  have chars := renderLines_toList x xs
  rw [empty] at chars
  exact chars_render_ne_nil hx (List.append_eq_nil_iff.mp chars.symm).1

/-- **A list of trees can be told from its lines.** -/
theorem eq_of_renderLines {xs ys : List (Tree String)} (hxs : ∀ x ∈ xs, x.Clean)
    (hys : ∀ y ∈ ys, y.Clean) (h : renderLines xs = renderLines ys) : xs = ys := by
  match xs, ys with
  | [], [] => rfl
  | x :: xs, [] => exact absurd h (renderLines_cons_ne_empty (List.forall_mem_cons.mp hxs).1 xs)
  | [], y :: ys =>
      exact absurd h.symm (renderLines_cons_ne_empty (List.forall_mem_cons.mp hys).1 ys)
  | x :: xs, y :: ys =>
      have chars := congrArg String.toList h
      rw [renderLines_toList, renderLines_toList] at chars
      rw [List.forall_mem_cons] at hxs hys
      obtain ⟨rfl, rest⟩ := render_append_inj hxs.1 hys.1 (wordEnds_laterLines xs)
        (wordEnds_laterLines ys) chars
      rw [laterLines_inj hxs.2 hys.2 rest]

end Tree

/-! ### Programs -/

/-- The tree below a node, with the texts of its names. -/
def Arena.textTree? (a : Arena) (t : Interner) (id : NodeId) : Option (Tree String) := do
  (← a.tree? id).traverse t.text?

/-- The trees of a program's statements, with the texts of their names. -/
def Program.textTrees? (p : Program) (t : Interner) : Option (List (Tree String)) := do
  Tree.traverseAll t.text? (← p.trees?)

theorem Arena.render?_of_textTree? {a : Arena} {t : Interner} {id : NodeId} {x : Tree String}
    (h : a.textTree? t id = some x) : a.render? t id = some x.render := by
  obtain ⟨u, hu, hx⟩ := Option.bind_eq_some_iff.mp h
  exact Arena.render?_of_tree? hu hx

theorem Program.render?_of_textTrees? {p : Program} {t : Interner} {xs : List (Tree String)}
    (h : p.textTrees? t = some xs) : p.render? t = some (Tree.renderLines xs) := by
  obtain ⟨us, read, texts⟩ := Option.bind_eq_some_iff.mp h
  exact Program.render?_of_trees? read texts

/-- Every node of a program that was laid out is the root of a tree. -/
theorem Program.WellFormed.exists_textTree? {p : Program} {t : Interner} {ids : List NodeId}
    (h : p.WellFormed t ids) {id : NodeId} (hid : id.index < p.arena.size) :
    ∃ x, p.arena.textTree? t id = some x := by
  obtain ⟨u, hu⟩ := h.order.ordered.exists_tree? hid
  obtain ⟨x, hx⟩ := Arena.exists_traverse h.names hu
  exact ⟨x, Option.bind_eq_some_iff.mpr ⟨u, hu, hx⟩⟩

/-- The statements of the program are those that the document describes. -/
theorem Program.exists_textTrees? {doc : Json} {t₀ t : Interner} {p : Program}
    (h : Program.ofJson doc t₀ = (.ok p, t)) :
    ∃ ts, doc.program.outcome = .ok ts ∧ p.textTrees? t = some ts := by
  obtain ⟨ts, outcome, built⟩ := Program.exists_outcome_of_ofJson h
  obtain ⟨us, read, texts⟩ := Program.trees?_ofTrees ts t₀
  rw [built] at read texts
  exact ⟨ts, outcome, Option.bind_eq_some_iff.mpr ⟨us, read, texts⟩⟩

/-- **What is written of a program says what its statements are, and what is written of a node which
tree it is the root of.** Everything that a document describes can be written. Programs whose names
keep their shape have the same statements, down to the texts of the names, if the same is written of
them, whichever interners they were laid out with; and so have nodes of them the same trees. -/
theorem Program.written_unambiguously {doc doc' : Json} {t₀ t₀' t t' : Interner} {p p' : Program}
    (h : Program.ofJson doc t₀ = (.ok p, t)) (h' : Program.ofJson doc' t₀' = (.ok p', t')) :
    (∃ xs xs' text text', p.textTrees? t = some xs ∧ p'.textTrees? t' = some xs' ∧
      p.render? t = some text ∧ p'.render? t' = some text' ∧
      ((∀ x ∈ xs, x.Clean) → (∀ x ∈ xs', x.Clean) → text = text' → xs = xs')) ∧
    ∀ id id', id.index < p.arena.size → id'.index < p'.arena.size →
      ∃ x x' text text', p.arena.textTree? t id = some x ∧ p'.arena.textTree? t' id' = some x' ∧
        p.arena.render? t id = some text ∧ p'.arena.render? t' id' = some text' ∧
        (x.Clean → x'.Clean → text = text' → x = x') := by
  constructor
  · obtain ⟨xs, -, hxs⟩ := Program.exists_textTrees? h
    obtain ⟨xs', -, hxs'⟩ := Program.exists_textTrees? h'
    exact ⟨xs, xs', _, _, hxs, hxs', Program.render?_of_textTrees? hxs,
      Program.render?_of_textTrees? hxs', Tree.eq_of_renderLines⟩
  · intro id id' hid hid'
    obtain ⟨ids, wf⟩ := Program.wellFormed_of_ofJson h
    obtain ⟨ids', wf'⟩ := Program.wellFormed_of_ofJson h'
    obtain ⟨x, hx⟩ := wf.exists_textTree? hid
    obtain ⟨x', hx'⟩ := wf'.exists_textTree? hid'
    exact ⟨x, x', _, _, hx, hx', Arena.render?_of_textTree? hx, Arena.render?_of_textTree? hx',
      Tree.eq_of_render⟩

/-- The sample program, laid out where the name of its parameter is known already. -/
def Program.renumbered : Program where
  arena := {
    nodes := #[.ident ⟨1⟩, .function ⟨1⟩ ⟨0⟩, .bind ⟨0, 1⟩, .ident ⟨2⟩, .number 1, .call ⟨3⟩ ⟨4⟩]
    statementLists := #[⟨2⟩, ⟨5⟩]
    declarations := #[⟨⟨2⟩, ⟨1⟩⟩] }
  body := ⟨0, 2⟩

theorem Program.ofJson_renumbered :
    Program.ofJson Json.sample ⟨#["", "x"]⟩ = (.ok Program.renumbered, ⟨#["", "x", "f"]⟩) := by
  decide +kernel

/-- The sample program is other nodes where its names have other numbers, but the same is
written. -/
theorem Program.renumbered_written_unambiguously :
    Program.renumbered ≠ Program.sample ∧
      Program.renumbered.render? ⟨#["", "x", "f"]⟩ = Program.sample.render? Interner.sample ∧
      Program.renumbered.textTrees? ⟨#["", "x", "f"]⟩ =
        Program.sample.textTrees? Interner.sample := by
  have same : Program.renumbered.render? ⟨#["", "x", "f"]⟩ =
      Program.sample.render? Interner.sample := by
    decide +kernel
  refine ⟨by decide +kernel, same, ?_⟩
  obtain ⟨⟨xs, xs', text, text', hxs, hxs', written, written', unambiguous⟩, -⟩ :=
    Program.written_unambiguously Program.ofJson_renumbered Program.ofJson_sample
  have clean : ∀ xs ∈ Program.renumbered.textTrees? ⟨#["", "x", "f"]⟩, ∀ x ∈ xs, x.Clean := by
    decide +kernel
  have clean' : ∀ xs ∈ Program.sample.textTrees? Interner.sample, ∀ x ∈ xs, x.Clean := by
    decide +kernel
  rw [written, written'] at same
  rw [hxs, hxs', unambiguous (clean xs hxs) (clean' xs' hxs') (Option.some.inj same)]

end LexCell
