import LexCell.Proofs.Faults
import LexCell.Proofs.History

/-!
# The words of a foreign table

An error about a name has a word for it: the text that the table at hand holds at the index of the
name, or the number of the name if it holds nothing there. With a table that is not the program's
own the run is the same and only these words may be others (`Program.foreign_words`). Such a word is
the program's own text or the number exactly if the table holds no other string at this index.
Nothing sees to that: a table with a string of its own there gives that string
(`Program.foreign_word_is_unrelated`).
-/

namespace LexCell

/-- The number under which errors speak of a name without a text. -/
def Name.numbered (n : Name) : String := "#" ++ toString n.index

namespace EvalError.Cause

/-- The word for an identifier or a token. -/
def word? : Cause → Option String
  | unboundIdentifier word | unknownOperator word => some word
  | _ => none

/-- The causes are the same but for the word. -/
inductive Reworded (own word : String) : Cause → Cause → Prop where
  | unbound : Reworded own word (.unboundIdentifier own) (.unboundIdentifier word)
  | unknown : Reworded own word (.unknownOperator own) (.unknownOperator word)

end EvalError.Cause

open EvalError (Cause)

/-- The word for a name is a given text or the number exactly if the table holds nothing else. -/
theorem Interner.textOrNumber_eq_iff (t : Interner) (n : Name) (own : String) :
    t.textOrNumber n = own ∨ t.textOrNumber n = n.numbered ↔
      ∀ s, t.text? n = some s → s = own ∨ s = n.numbered := by
  unfold textOrNumber
  cases t.text? n with
  | none =>
      apply iff_of_true
      · exact .inr rfl
      · exact nofun
  | some s => simp

/-- An error with a word is about the name of its node, in the words of the table. -/
theorem Context.Faults.word {ctx : Context} {id : NodeId} {env : Environment} {h h' : Heap}
    {c : Cause} {word : String} (faults : ctx.Faults id env h c h') (hw : c.word? = some word) :
    ∃ node n, ctx.arena.node? id = some node ∧ node.names = [n] ∧
      word = ctx.interner.textOrNumber n := by
  -- Errors about kinds and divisors have no word.
  cases faults with
  | ident hn | assign hn | malformed hn =>
      cases hw
      exact ⟨_, _, hn, rfl, rfl⟩
  | _ => cases hw

/-- What is retold has the same node, and the same cause but for the word. -/
theorem Stop.Retold.exists_error {t t' : Interner} {e' : EvalError} {stop : Stop}
    (h : Stop.Retold t' t (.error e') stop) :
    ∃ e, stop = .error e ∧ e'.node = e.node ∧
      ((e'.cause.word? = none ∧ e' = e) ∨
        ∃ own word, Cause.Reworded own word e.cause e'.cause) := by
  cases h with
  -- The same error; if it has a word then the words are the same.
  | same =>
      refine ⟨e', rfl, rfl, ?_⟩
      cases hc : e'.cause with
      | unboundIdentifier word => exact .inr ⟨word, word, .unbound⟩
      | unknownOperator word => exact .inr ⟨word, word, .unknown⟩
      | _ => exact .inl ⟨rfl, rfl⟩
  | unbound n id => exact ⟨_, rfl, rfl, .inr ⟨_, _, .unbound⟩⟩
  | unknown n id => exact ⟨_, rfl, rfl, .inr ⟨_, _, .unknown⟩⟩

/-- The causes have the two words. -/
theorem EvalError.Cause.Reworded.words {own word : String} {c c' : Cause}
    (h : Reworded own word c c') : c.word? = some own ∧ c'.word? = some word := by
  cases h <;> exact ⟨rfl, rfl⟩

namespace Program

variable {p : Program} {t : Interner} {ids : List NodeId} {fuel : Nat} {e : EvalError} {f : Frame}

/-- An error of a run with a word is about a name at its node. -/
theorem exists_word (body : p.statements? = some ids) (run : p.run t fuel = some (.error (.error e), f))
    {word : String} (hw : e.cause.word? = some word) :
    ∃ id node n, e.node = some id ∧ p.arena.node? id = some node ∧ node.names = [n] ∧
      word = t.textOrNumber n := by
  rw [run_eq body] at run
  obtain ⟨id, env, k, h, named, -, faults, -⟩ :=
    Context.statements_faultIn (fun e k => Context.eval_faultIn e k) run (k := [])
  obtain ⟨node, n, hn, names, words⟩ := faults.word hw
  exact ⟨id, node, n, named, hn, names, words⟩

/-- In the program's own table the word for a name is its text. -/
theorem WellFormed.text?_of_names (wf : p.WellFormed t ids) {id : NodeId} {node : Node} {n : Name}
    (hn : p.arena.node? id = some node) (names : node.names = [n]) :
    t.text? n = some (t.textOrNumber n) := by
  have known : t.Knows n :=
    wf.names.nodes node (Array.mem_of_getElem? hn) n (names ▸ List.mem_singleton_self n)
  obtain ⟨own, text⟩ := known
  rw [Interner.textOrNumber, text]
  rfl

/-- **With a foreign table only the words for names may be others.** An error of a run with any
table is that of the run with the program's own table, at the same node; it is the same but for the
word that it has for the name there. This word is the text that the program has for the name, or the
number of the name, exactly if the table holds no other string at its index. -/
theorem foreign_words {doc : Json} {history : List String} {p : Program} {t : Interner}
    (laidOut : Program.ofJson doc (Interner.initial.internAll history) = (.ok p, t))
    (t' : Interner) {fuel : Nat} {e' : EvalError} {f : Frame}
    (run' : p.run t' fuel = some (.error (.error e'), f)) :
    ∃ e, p.run t fuel = some (.error (.error e), f) ∧ e'.node = e.node ∧
      ((e'.cause.word? = none ∧ e' = e) ∨
        ∃ id node n own word, e'.node = some id ∧ p.arena.node? id = some node ∧ node.names = [n] ∧
          t.text? n = some own ∧ word = t'.textOrNumber n ∧
          Cause.Reworded own word e.cause e'.cause ∧
          (word = own ∨ word = n.numbered ↔
            ∀ s, t'.text? n = some s → s = own ∨ s = n.numbered)) := by
  obtain ⟨ids, wf⟩ := Program.wellFormed_of_ofJson laidOut
  obtain ⟨stop, retold, run⟩ := ((p.run_follows t' t fuel).error run').resolve_left id
  obtain ⟨e, rfl, same, cause⟩ := retold.exists_error
  refine ⟨e, run, same, ?_⟩
  -- An error without a word is the same in both runs.
  rcases cause with unworded | ⟨own, word, reworded⟩
  · exact .inl unworded
  · obtain ⟨own?, word?⟩ := reworded.words
    -- Each run finds its own word for the name at its own node.
    obtain ⟨id, node, n, named, hn, names, rfl⟩ := exists_word wf.body run own?
    obtain ⟨id', node', n', named', hn', names', rfl⟩ := exists_word wf.body run' word?
    -- Both errors are at one node, so they are about one name.
    cases named'.symm.trans (same.trans named)
    cases hn.symm.trans hn'
    cases names.symm.trans names'
    exact .inr ⟨id, node, n, _, _, named', hn, names, wf.text?_of_names hn names, rfl, reworded,
      t'.textOrNumber_eq_iff n _⟩

end Program

/-! ### A table with a string of its own

The condition on the table is not guaranteed by anything: a table with another history may hold
anything at an index that the program uses. -/

def Json.variableAlone (name : String) : Json :=
  .object [("type", .string "Program"), ("body", .array [
    .object [("type", .string "Identifier"), ("name", .string name)]])]

namespace Program

def variableAlone : Program where
  arena := { nodes := #[.ident ⟨1⟩], statementLists := #[⟨0⟩] }
  body := ⟨0, 1⟩

/-- With the initial table the error about `zzz` has the number of the name, which is not its
text. -/
theorem variableAlone_is_numbered :
    ∃ e own word, variableAlone.run ⟨#["", "zzz"]⟩ 1 = some (.error (.error e), Frame.initial) ∧
      Cause.Reworded own word e.cause (.unboundIdentifier "#1") ∧ word ≠ own := by
  have laidOut : Program.ofJson (Json.variableAlone "zzz") (Interner.initial.internAll []) =
      (.ok variableAlone, ⟨#["", "zzz"]⟩) := by decide +kernel
  have run : variableAlone.run Interner.initial 1 =
      some (.error (.error ⟨.unboundIdentifier "#1", some ⟨0⟩⟩), Frame.initial) := by
    decide +kernel
  obtain ⟨e, own, -, ⟨unworded, -⟩ | ⟨id, node, n, text, word, named, hn, names, texts, words,
    reworded, -⟩⟩ := foreign_words laidOut Interner.initial run
  · cases unworded
  · refine ⟨e, text, word, own, reworded, ?_⟩
    cases named
    cases hn
    cases names
    cases texts
    rw [words]
    decide

/-- **A foreign word may be an unrelated string.** The identifier `zzz` has the index at which a
foreign table holds `a`, and the error says that `a` is unbound: neither the text that the program
has for the name nor its number. -/
theorem foreign_word_is_unrelated :
    Program.ofJson (Json.variableAlone "zzz") Interner.initial =
        (.ok variableAlone, ⟨#["", "zzz"]⟩) ∧
      variableAlone.arena.node? ⟨0⟩ = some (.ident ⟨1⟩) ∧
      Interner.text? ⟨#["", "zzz"]⟩ ⟨1⟩ = some "zzz" ∧
      variableAlone.run (Interner.initial.internAll ["a"]) 1 =
        some (.error (.error ⟨.unboundIdentifier "a", some ⟨0⟩⟩), Frame.initial) ∧
      "a" ≠ "zzz" ∧ "a" ≠ Name.numbered ⟨1⟩ := by
  refine ⟨?_, ?_, ?_, ?_, ?_, ?_⟩ <;> decide +kernel

end Program

end LexCell
