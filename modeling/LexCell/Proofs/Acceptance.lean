import LexCell.Proofs.Arena.Faithful
import LexCell.Proofs.Grammar.Complete

/-!
# Which documents are programs

A document becomes a program exactly if it is in the grammar; the program, read back, is what the
document describes; and the error of any other document is its first violation. Reading and laying
out are taken together here: what reading accepts is `Json.outcome_program_eq_ok_iff`, what is read
back is `Program.trees?_ofTrees`.
-/

namespace LexCell

/-- What is read is laid out, whatever names are known already. -/
theorem Program.ofJson_of_outcome {doc : Json} {t : Interner} {ts : List (Tree String)}
    (h : doc.program.outcome = .ok ts) :
    Program.ofJson doc t = (.ok (Program.ofTrees ts t).1, (Program.ofTrees ts t).2) := by
  simp only [Program.ofJson, h]

/-- A program can only come from trees that were read. -/
theorem Program.exists_outcome_of_ofJson {doc : Json} {t t' : Interner} {p : Program}
    (h : Program.ofJson doc t = (.ok p, t')) :
    ∃ ts, doc.program.outcome = .ok ts ∧ Program.ofTrees ts t = (p, t') := by
  cases outcome : doc.program.outcome with
  | ok ts =>
      rw [Program.ofJson_of_outcome outcome] at h
      cases h
      exact ⟨ts, rfl, rfl⟩
  | error err =>
      simp only [Program.ofJson, outcome] at h
      cases h

theorem Program.ofJson_eq_error_iff {doc : Json} {t : Interner} {err : DocumentError} :
    (Program.ofJson doc t).1 = .error err ↔ doc.program.outcome = .error err := by
  cases outcome : doc.program.outcome with
  | ok ts => simp [Program.ofJson_of_outcome outcome]
  | error err => simp [Program.ofJson, outcome]

/-- **Exactly the grammar is accepted, and the tree of the document is built.** Whatever names are
known already, a document in the grammar becomes a program and no other does. What is read back from
the tables, names put in, is the one list of statements that the document describes. A document
outside the grammar is refused with its first violation. -/
theorem Program.ofJson_iff_grammar (doc : Json) (t : Interner) :
    ((∃ p, (Program.ofJson doc t).1 = .ok p) ↔ ∃ ts, doc.DescribesProgram ts) ∧
      (∀ p t', Program.ofJson doc t = (.ok p, t') →
        ∃ us ts, p.trees? = some us ∧ Tree.traverseAll t'.text? us = some ts ∧
          doc.DescribesProgram ts ∧ ∀ ts', doc.DescribesProgram ts' → ts' = ts) ∧
      ∀ err, (Program.ofJson doc t).1 = .error err ↔ doc.ViolatesProgram err := by
  refine ⟨⟨?_, ?_⟩, ?_, ?_⟩
  · -- accepted, so described
    rintro ⟨p, h⟩
    obtain ⟨ts, outcome, -⟩ := Program.exists_outcome_of_ofJson (Prod.ext h rfl)
    exact ⟨ts, Json.outcome_program_eq_ok_iff.mp outcome⟩
  · rintro ⟨ts, h⟩
    rw [Program.ofJson_of_outcome (Json.outcome_program_eq_ok_iff.mpr h)]
    exact ⟨_, rfl⟩
  · -- the tree is the only one described, for reading gives only one
    intro p t' h
    obtain ⟨ts, outcome, built⟩ := Program.exists_outcome_of_ofJson h
    obtain ⟨us, hus, texts⟩ := Program.trees?_ofTrees ts t
    rw [built] at hus texts
    refine ⟨us, ts, hus, texts, Json.outcome_program_eq_ok_iff.mp outcome, ?_⟩
    intro ts' h'
    have outcome' := Json.outcome_program_eq_ok_iff.mpr h'
    exact Except.ok.inj (outcome'.symm.trans outcome)
  · intro err
    exact Program.ofJson_eq_error_iff.trans Json.outcome_program_eq_error_iff

end LexCell
