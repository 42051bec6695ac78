import LexCell.Proofs.Machine.Adequacy
import LexCell.Proofs.Machine.InRange
import LexCell.Report

/-!
# No use of the command ends in a fault

A report ends in a fault where a reference dangles: in the run, in the listing of the program, or
in the note on the node at fault. None of the three happens. Three facts come together: the arena
of a program that was read is closed and its names have texts (`Program.wellFormed_of_ofText`), so
all of it has a written form (`Program.WellFormed.exists_render?`), and every moment of its run is
in range (`inRange_of_run`).
-/

namespace LexCell

/-- Nothing dangles that a run of the program, its listing or a note on one of its nodes follows;
`ids` are its statements. -/
structure Program.Safe (p : Program) (t : Interner) (ids : List NodeId) : Prop where
  body : p.statements? = some ids
  /-- Every reference of every node is one into the tables. -/
  closed : p.arena.Closed
  /-- Every name in the tables has a text. -/
  names : p.arena.NamesIn t
  listing : ∃ text, p.render? t = some text
  note : ∀ id : NodeId, id.index < p.arena.size → ∃ text, p.arena.render? t id = some text
  /-- Every moment of the run is in range, also if the run never ends. -/
  moments : ∀ {births m}, Context.Run ⟨p.arena, t⟩ (Frame.initial.start ids) births m →
    m.InRange p.arena
  /-- What the evaluator answers is the last of these moments. -/
  ends : ∀ {fuel r f}, p.run t fuel = some (r, f) →
    ∃ births, Context.Run ⟨p.arena, t⟩ (Frame.initial.start ids) births (f.finish r)

/-- What the evaluator answers for a program is where the moves of its statements end. -/
theorem Program.reaches_of_run {p : Program} {t : Interner} {ids : List NodeId}
    (body : p.statements? = some ids) {fuel : Nat} {r : Except Stop Value} {f : Frame}
    (e : p.run t fuel = some (r, f)) :
    Context.Reaches ⟨p.arena, t⟩ (Frame.initial.start ids) (f.finish r) := by
  rw [Program.run_eq body] at e
  exact Context.reaches_finish_iff.mpr ⟨fuel, e⟩

/-- **A well-formed program is safe.** -/
theorem Program.WellFormed.safe {p : Program} {t : Interner} {ids : List NodeId}
    (h : p.WellFormed t ids) : p.Safe t ids := by
  have ordered : p.arena.Ordered := h.order.ordered
  refine ⟨h.body, ordered.closed, h.names, h.exists_render?,
    fun id hid => ordered.exists_render? h.names hid, ?_, ?_⟩
  · intro births m hr
    -- Nothing is visible at the start and there is no cell, so only the statements count.
    have start : (Frame.initial.start ids).Obeys (.inRange ⟨p.arena, t⟩ ordered.closed) [] := by
      refine Frame.start_obeys ⟨?_, Environment.Below.empty⟩ nofun rfl
      exact fun id hid => (h.order.bounds hid).2
    exact inRange_of_run start not_false (fun _ => nofun) hr
  · intro fuel r f e
    exact (Program.reaches_of_run h.body e).run

namespace Program.Safe

variable {p : Program} {t : Interner} {ids : List NodeId}

theorem ne_dangling (h : p.Safe t ids) {fuel : Nat} {r : Except Stop Value} {f : Frame}
    (e : p.run t fuel = some (r, f)) : r ≠ .error .dangling := by
  rintro rfl
  obtain ⟨births, hr⟩ := h.ends e
  exact (h.moments hr).focus trivial

/-- The node at fault has a written form. -/
theorem exists_siteNote? (h : p.Safe t ids) {fuel : Nat} {e : EvalError} {f : Frame}
    (he : p.run t fuel = some (.error (.error e), f)) :
    ∃ note, Report.siteNote? p t e = some note := by
  obtain ⟨births, hr⟩ := h.ends he
  unfold Report.siteNote?
  rcases hs : e.node with _ | id
  · exact ⟨"", rfl⟩
  · -- the site of an error is among those of the last moment, and these are in range
    have site : id ∈ (f.finish (.error (.error e))).sites :=
      List.mem_append_left _ (Option.mem_toList.mpr hs)
    obtain ⟨text, ht⟩ := h.note id ((h.moments hr).sites id site)
    dsimp only
    rw [ht]
    exact ⟨_, rfl⟩

theorem exists_listing? (h : p.Safe t ids) (options : Options) :
    ∃ listing, Report.listing? options p t = some listing := by
  unfold Report.listing?
  split
  · obtain ⟨text, ht⟩ := h.listing
    rw [ht]
    exact ⟨_, rfl⟩
  · exact ⟨"", rfl⟩

end Program.Safe

namespace Report

private theorem exit_ofOutcome_ne_fault {p : Program} {t : Interner} {ids : List NodeId}
    (h : p.Safe t ids) {fuel : Nat} {r : Except Stop Value} {f : Frame}
    (e : p.run t fuel = some (r, f)) (options : Options) (listing : String) :
    (ofOutcome options p t listing r).exit ≠ .fault := by
  unfold ofOutcome
  -- A run ends with an error, at a reference that dangles, or with a value.
  rcases r with (e' | _) | v
  · obtain ⟨note, hn⟩ := h.exists_siteNote? e
    dsimp only
    rw [hn]
    exact nofun
  · exact absurd rfl (h.ne_dangling e)
  · exact nofun

/-- **No use of the command ends in a fault**, and nothing dangles on the way. -/
theorem ofSource_safe (words : String → String) (source : String) (options : Options) :
    (∀ fuel report, ofSource words source options fuel = some report → report.exit ≠ .fault) ∧
      ∀ p t, Program.ofText (words source) source Interner.initial = (.ok p, t) →
        ∃ ids, p.Safe t ids := by
  have safe (p : Program) (t : Interner)
      (h : Program.ofText (words source) source Interner.initial = (.ok p, t)) :
      ∃ ids, p.Safe t ids := by
    obtain ⟨ids, wf⟩ := Program.wellFormed_of_ofText h
    exact ⟨ids, wf.safe⟩
  refine ⟨?_, safe⟩
  intro fuel report hreport
  unfold ofSource at hreport
  split at hreport
  · next e t _ =>
    cases hreport
    cases e <;> exact nofun
  · next p t hp =>
    obtain ⟨ids, h⟩ := safe p t hp
    obtain ⟨listing, hl⟩ := h.exists_listing? options
    rw [hl] at hreport
    obtain ⟨⟨r, f⟩, he, rfl⟩ := Option.map_eq_some_iff.mp hreport
    exact exit_ofOutcome_ne_fault h he options listing

end Report

end LexCell
