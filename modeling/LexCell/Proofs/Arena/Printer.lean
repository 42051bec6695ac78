import LexCell.Arena.Printer
import LexCell.Proofs.Arena.Canonical

/-!
# Printing from an arena writes the tree

`Arena.print?` writes a node while it follows the references below it. `Arena.render?` reads the
tree there first, looks the names up and writes the tree. Both give the same text, or none
(`Arena.print?_eq_render?`), where the interner is proper: the printer writes `_` for the empty
name, the tree for the empty text.

The proof goes level by level. Reading a part and writing it are two steps, and the printer takes
them one part after the other; what has to be seen for each kind of node is that reading all parts
first and writing them then comes to the same.
-/

/-! ### Lists that may be incomplete -/

namespace List

variable {α β γ : Type}

/-- What is done with every entry that is found may be done at the end. -/
theorem mapM_map_option (f : α → Option β) (g : β → γ) (xs : List α) :
    xs.mapM (fun x => (f x).map g) = (xs.mapM f).map (map g) := by
  induction xs with
  | nil => rfl
  | cons x xs ih =>
      rw [mapM_cons, mapM_cons, ih]
      cases f x <;> cases xs.mapM f <;> rfl

/-- Two steps for each entry come to the same as the first step for all and then the second. -/
theorem mapM_bind_option (f : α → Option β) (g : β → Option γ) (xs : List α) :
    xs.mapM (fun x => (f x).bind g) = (xs.mapM f).bind fun ys => ys.mapM g := by
  induction xs with
  | nil => rfl
  | cons x xs ih =>
      rw [mapM_cons, mapM_cons, ih]
      cases f x with
      | none => rfl
      | some y =>
          cases xs.mapM f with
          | some ys => exact mapM_cons (a := y) (l := ys) (f := g) |>.symm
          -- The first step fails further on, so it does not matter what the second one does here.
          | none => cases hy : g y <;> simp [hy]

end List

namespace LexCell

/-! ### Trees that are written with the names of a table

One equation for each kind of tree: its written form in terms of those of its parts. -/

namespace Tree

variable {t : Interner}

/-- The written form of a tree, if the table has all its names. -/
def written? (t : Interner) (u : Tree Name) : Option String := (u.traverse t.text?).map render

/-- The printer's word for a name is the tree's word for its text. -/
theorem label?_eq (h : t.Proper) (n : Name) : t.label? n = (t.text? n).map label := by
  unfold Interner.label?
  by_cases empty : n = .empty
  · rw [if_pos empty, empty, h.empty]
    rfl
  · rw [if_neg empty]
    cases text : t.text? n with
    | none => rfl
    | some s => -- in a proper interner only the empty name has the empty text
        have named : s ≠ "" := fun same => empty (h.text?_eq_empty_iff.mp (same ▸ text))
        rw [Option.map_some, label, if_neg named]

theorem written?_ident (h : t.Proper) (n : Name) : written? t (.ident n) = t.label? n := by
  rw [written?, traverse, label?_eq h]
  cases t.text? n <;> rfl

theorem written?_malformed (h : t.Proper) (n : Name) :
    written? t (.malformed n) = (do some ("(malformed " ++ (← t.label? n) ++ ")")) := by
  rw [written?, traverse, label?_eq h]
  cases t.text? n <;> rfl

theorem written?_unary (op : UnaryOp) (u : Tree Name) :
    written? t (.unary op u) =
      (do some ("(unary " ++ op.symbol ++ " " ++ (← written? t u) ++ ")")) := by
  unfold written?
  rw [traverse]
  cases u.traverse t.text? <;> rfl

theorem written?_binary (op : BinaryOp) (u v : Tree Name) :
    written? t (.binary op u v) =
      (do some ("(" ++ op.family.label ++ " " ++ op.symbol ++ " " ++ (← written? t u) ++ " " ++
        (← written? t v) ++ ")")) := by
  unfold written?
  rw [traverse]
  cases u.traverse t.text? <;> cases v.traverse t.text? <;> rfl

theorem written?_logical (op : LogicalOp) (u v : Tree Name) :
    written? t (.logical op u v) =
      (do some ("(logical " ++ op.symbol ++ " " ++ (← written? t u) ++ " " ++
        (← written? t v) ++ ")")) := by
  unfold written?
  rw [traverse]
  cases u.traverse t.text? <;> cases v.traverse t.text? <;> rfl

theorem written?_call (u v : Tree Name) :
    written? t (.call u v) =
      (do some ("(call " ++ (← written? t u) ++ " " ++ (← written? t v) ++ ")")) := by
  unfold written?
  rw [traverse]
  cases u.traverse t.text? <;> cases v.traverse t.text? <;> rfl

theorem written?_conditional (u v w : Tree Name) :
    written? t (.conditional u v w) =
      (do some ("(conditional " ++ (← written? t u) ++ " " ++ (← written? t v) ++ " " ++
        (← written? t w) ++ ")")) := by
  unfold written?
  rw [traverse]
  cases u.traverse t.text? <;> cases v.traverse t.text? <;> cases w.traverse t.text? <;> rfl

theorem written?_function (h : t.Proper) (p : Name) (u : Tree Name) :
    written? t (.function p u) =
      (do some ("(function " ++ (← t.label? p) ++ " " ++ (← written? t u) ++ ")")) := by
  rw [label?_eq h, written?, written?, traverse]
  cases t.text? p <;> cases u.traverse t.text? <;> rfl

theorem written?_assign (h : t.Proper) (n : Name) (u : Tree Name) :
    written? t (.assign n u) =
      (do some ("(assign " ++ (← t.label? n) ++ " " ++ (← written? t u) ++ ")")) := by
  rw [label?_eq h, written?, written?, traverse]
  cases t.text? n <;> cases u.traverse t.text? <;> rfl

/-! Lists of parts are written part by part. -/

/-- The lists are instances of what `List.mapM` does, so that its lemmas apply. -/
theorem traverseAll_eq_mapM {ν μ : Type} (f : ν → Option μ) (us : List (Tree ν)) :
    traverseAll f us = us.mapM (traverse f) := by
  induction us with
  | nil => rfl
  | cons u us ih =>
      rw [traverseAll, List.mapM_cons, ih]
      rfl

theorem traverseDeclarations_eq_mapM {ν μ : Type} (f : ν → Option μ) (ds : List (ν × Tree ν)) :
    traverseDeclarations f ds = ds.mapM fun d => (do some (← f d.1, ← traverse f d.2)) := by
  induction ds with
  | nil => rfl
  | cons d ds ih =>
      obtain ⟨n, u⟩ := d
      rw [traverseDeclarations, List.mapM_cons, ih]
      cases f n <;> cases traverse f u <;> rfl

theorem renderAll_eq_join (xs : List (Tree String)) :
    renderAll xs = String.join (xs.map fun x => " " ++ x.render) := by
  induction xs with
  | nil => rfl
  | cons x xs ih => rw [renderAll, ih, List.map_cons, String.join_cons]

theorem renderDeclarations_eq_join (ds : List (String × Tree String)) :
    renderDeclarations ds =
      String.join (ds.map fun d => " [" ++ label d.1 ++ " " ++ d.2.render ++ "]") := by
  induction ds with
  | nil => rfl
  | cons d ds ih => rw [renderDeclarations, ih, List.map_cons, String.join_cons]

/-- Each part of a block is written with the blank before it. -/
theorem written?_block (us : List (Tree Name)) :
    written? t (.block us) =
      (do some ("(block" ++ String.join (← us.mapM fun u => do some (" " ++ (← written? t u))) ++
        ")")) := by
  have part (u : Tree Name) : (do some (" " ++ (← written? t u))) =
      (u.traverse t.text?).map fun x => " " ++ x.render := by
    rw [written?]
    cases u.traverse t.text? <;> rfl
  simp only [part]
  rw [List.mapM_map_option, written?, traverse, traverseAll_eq_mapM]
  cases us.mapM (traverse t.text?) with
  | none => rfl
  | some xs =>
      show some ("(block" ++ renderAll xs ++ ")") = _
      rw [renderAll_eq_join]
      rfl

def writtenDeclaration? (t : Interner) (d : Name × Tree Name) : Option String := do
  some (" [" ++ (← t.label? d.1) ++ " " ++ (← written? t d.2) ++ "]")

theorem written?_bind (h : t.Proper) (ds : List (Name × Tree Name)) :
    written? t (.bind ds) =
      (do some ("(let" ++ String.join (← ds.mapM (writtenDeclaration? t)) ++ ")")) := by
  have part : writtenDeclaration? t =
      fun d => (do some (← t.text? d.1, ← traverse t.text? d.2)).map
        fun d : String × Tree String => " [" ++ label d.1 ++ " " ++ d.2.render ++ "]" := by
    funext d
    rw [writtenDeclaration?, label?_eq h, written?]
    cases t.text? d.1 <;> cases traverse t.text? d.2 <;> rfl
  rw [part, List.mapM_map_option, written?, traverse, traverseDeclarations_eq_mapM]
  cases ds.mapM fun d => (do some (← t.text? d.1, ← traverse t.text? d.2)) with
  | none => rfl
  | some es =>
      show some ("(let" ++ renderDeclarations es ++ ")") = _
      rw [renderDeclarations_eq_join]
      rfl

end Tree

/-! ### Reading first, or writing at once

If a part cannot be read, both ways give nothing, but at different times: the one has written the
parts before it by then, and the other has not. -/

namespace Arena

open LexCell.Tree (written? writtenDeclaration?)

section Parts

/- `tree` reads the tree of a part and `write` is what is done with a tree. -/
variable {tree : NodeId → Option (Tree Name)} {write : Tree Name → Option String}

private theorem print_one {f : Tree Name → Tree Name} {g : String → String}
    (h : ∀ u, write (f u) = (do some (g (← write u)))) (x : NodeId) :
    (do some (g (← (tree x).bind write))) = (do some (f (← tree x))).bind write := by
  cases tree x with
  | none => rfl
  | some u => exact (h u).symm

/-- A name in front of a part may as well be looked up after the part was read. -/
private theorem print_named {label : Option String} {f : Tree Name → Tree Name}
    {g : String → String → String}
    (h : ∀ u, write (f u) = (do some (g (← label) (← write u)))) (x : NodeId) :
    (do some (g (← label) (← (tree x).bind write))) = (do some (f (← tree x))).bind write := by
  cases tree x with
  | none => cases label <;> rfl
  | some u => exact (h u).symm

/-- Two parts are printed one after the other, or both are read before the first is written. -/
private theorem print_two {f : Tree Name → Tree Name → Tree Name} {g : String → String → String}
    (h : ∀ u v, write (f u v) = (do some (g (← write u) (← write v)))) (x y : NodeId) :
    (do some (g (← (tree x).bind write) (← (tree y).bind write))) =
      (do some (f (← tree x) (← tree y))).bind write := by
  cases tree x with
  | none => rfl
  | some u =>
      cases tree y with
      | some v => exact (h u v).symm
      -- Whether or not the first part can be written, nothing comes out.
      | none => cases hu : write u <;> simp [hu]

private theorem print_three {f : Tree Name → Tree Name → Tree Name → Tree Name}
    {g : String → String → String → String}
    (h : ∀ u v k, write (f u v k) = (do some (g (← write u) (← write v) (← write k))))
    (x y z : NodeId) :
    (do some (g (← (tree x).bind write) (← (tree y).bind write) (← (tree z).bind write))) =
      (do some (f (← tree x) (← tree y) (← tree z))).bind write := by
  cases tree x with
  | none => rfl
  | some u =>
      cases tree y with
      | none => cases hu : write u <;> simp [hu]
      | some v =>
          cases tree z with
          | none => cases hu : write u <;> cases hv : write v <;> simp [hu, hv]
          | some k => exact (h u v k).symm

/-- The same for a list of parts. -/
private theorem print_list {ι β : Type} {read : ι → Option β} {f : List β → Tree Name}
    {g : List String → String} {write' : β → Option String}
    (h : ∀ us, write (f us) = (do some (g (← us.mapM write')))) (xs : List ι) :
    (do some (g (← xs.mapM fun x => (read x).bind write'))) =
      (do some (f (← xs.mapM read))).bind write := by
  rw [List.mapM_bind_option]
  cases xs.mapM read with
  | none => rfl
  | some us => exact (h us).symm

/-- The printer writes the two last parts of a node in a step of their own. -/
private theorem printPair?_append (print? : NodeId → Option String) (s : String) (x y : NodeId) :
    (do some (s ++ (← printPair? print? x y))) =
      (do some (s ++ (← print? x) ++ " " ++ (← print? y) ++ ")")) := by
  unfold printPair?
  cases print? x <;> cases print? y <;> simp [String.append_assoc]

end Parts

section Nodes

variable {a : Arena} {t : Interner} {tree : NodeId → Option (Tree Name)}

private theorem print_block (span : Span) :
    (do
      let ids ← a.statements? span
      let parts ← ids.mapM fun x => do some (" " ++ (← (tree x).bind (written? t)))
      some ("(block" ++ String.join parts ++ ")")) =
    (do
      let ids ← a.statements? span
      some (Tree.block (← ids.mapM tree))).bind (written? t) := by
  cases a.statements? span with
  | none => rfl
  | some ids =>
      have part (x : NodeId) : (do some (" " ++ (← (tree x).bind (written? t)))) =
          (tree x).bind fun u => (do some (" " ++ (← written? t u))) :=
        Option.bind_assoc ..
      simp only [part]
      exact print_list Tree.written?_block ids

private theorem print_bind (ht : t.Proper) (span : Span) :
    (do
      let ds ← a.declarations? span
      let parts ← ds.mapM fun d : Declaration => do
        some (" [" ++ (← t.label? d.name) ++ " " ++ (← (tree d.init).bind (written? t)) ++ "]")
      some ("(let" ++ String.join parts ++ ")")) =
    (do
      let ds ← a.declarations? span
      let es ← ds.mapM fun d : Declaration => do some (d.name, ← tree d.init)
      some (Tree.bind es)).bind (written? t) := by
  cases a.declarations? span with
  | none => rfl
  | some ds => -- a declaration is a name and a part
      have part (d : Declaration) : (do
            some (" [" ++ (← t.label? d.name) ++ " " ++ (← (tree d.init).bind (written? t)) ++ "]")) =
          (do some (d.name, ← tree d.init)).bind (writtenDeclaration? t) := by
        cases tree d.init with
        | none => cases t.label? d.name <;> rfl
        | some u => rfl
      simp only [part]
      exact print_list (Tree.written?_bind ht) ds

end Nodes

/-- **What is printed level by level is the written tree.** -/
theorem printWithin?_eq {a : Arena} {t : Interner} (ht : t.Proper) (depth : Nat) (id : NodeId) :
    a.printWithin? t depth id = (a.treeWithin? depth id).bind (written? t) := by
  induction depth generalizing id with
  | zero => rfl
  | succ depth ih =>
      rw [printWithin?, treeWithin?]
      cases a.node? id with
      | none => rfl
      | some n =>
          have below : a.printWithin? t depth = fun x => (a.treeWithin? depth x).bind (written? t) :=
            funext ih
          rw [below]
          generalize a.treeWithin? depth = tree
          cases n with
          | number | boolean => rfl
          | ident n => exact (Tree.written?_ident ht n).symm
          | malformed n => exact (Tree.written?_malformed ht n).symm
          | unary op x => exact print_one (Tree.written?_unary op) x
          | function p x => exact print_named (Tree.written?_function ht p) x
          | assign n x => exact print_named (Tree.written?_assign ht n) x
          | binary op x y =>
              exact (printPair?_append _ _ x y).trans (print_two (Tree.written?_binary op) x y)
          | logical op x y =>
              exact (printPair?_append _ _ x y).trans (print_two (Tree.written?_logical op) x y)
          | call x y =>
              exact (printPair?_append _ _ x y).trans (print_two Tree.written?_call x y)
          | conditional x y z =>
              refine Eq.trans ?_ (print_three Tree.written?_conditional x y z)
              exact Option.bind_congr fun s _ => printPair?_append _ ("(conditional " ++ s ++ " ") y z
          | block span => exact print_block span
          | bind span => exact print_bind ht span

/-- **A node is printed as it is rendered.** -/
theorem print?_eq_render? {t : Interner} (ht : t.Proper) (a : Arena) (id : NodeId) :
    a.print? t id = a.render? t id := by
  rw [print?, printWithin?_eq ht, render?, tree?]
  cases a.treeWithin? a.size id with
  | none => rfl
  | some u => exact Option.map_eq_bind

end Arena

/-- The statements of a program are printed as they are rendered, line by line. -/
theorem Program.print?_eq_render? {t : Interner} (ht : t.Proper) (p : Program) :
    p.print? t = p.render? t := by
  have lines : p.arena.print? t = p.arena.render? t := funext (Arena.print?_eq_render? ht p.arena)
  rw [print?, render?, lines]

/-- **A program that was read prints as the document describes it**, whatever was interned before,
and each of its nodes as it is rendered. -/
theorem Program.prints_as_described {doc : Json} {t t' : Interner} {p : Program} (ht : t.Proper)
    (h : Program.ofJson doc t = (.ok p, t')) :
    (∃ ts, doc.DescribesProgram ts ∧ p.print? t' = some (Tree.renderLines ts)) ∧
      ∀ id, p.arena.print? t' id = p.arena.render? t' id := by
  have proper := Program.proper_of_ofJson ht h
  refine ⟨?_, Arena.print?_eq_render? proper p.arena⟩
  obtain ⟨ts, outcome, built⟩ := Program.exists_outcome_of_ofJson h
  have written := Program.render?_ofTrees ts t
  rw [built] at written
  exact ⟨ts, Json.outcome_program_eq_ok_iff.mp outcome,
    (Program.print?_eq_render? proper p).trans written⟩

end LexCell
