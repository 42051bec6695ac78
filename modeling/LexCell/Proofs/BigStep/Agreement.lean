import LexCell.Proofs.BigStep.Answers
import LexCell.Proofs.BigStep.Moves
import LexCell.Proofs.Safety

/-!
# The evaluator and the meaning of trees

The evaluator on a program's arena and the relation `BigStep` on its trees agree: there is an answer
exactly where something is derived, and the answer reads as what is derived. One direction follows
the moves of a derivation (`BigStep.follows`), which the evaluator follows too; the other takes the
evaluator apart (`Context.eval_derived`) and needs that no reference dangles, which holds in range.
-/

namespace LexCell

/-- Every function in a cell has its body in the arena and its variables in the heap. -/
def Heap.InRange (a : Arena) (h : Heap) : Prop :=
  ∀ s c, h.get? s = some (.function c) → c.body.index < a.size ∧ c.env.Below h.size

/-- What a computation answers, if given enough fuel, reads as what is derived, and everything
derived is the reading of an answer. -/
structure Agrees (a : Arena) (answers : Nat → Option (Except Stop Value × Frame))
    (derives : Except Fault TreeValue → Environment → Cells → Prop) : Prop where
  /-- Every answer has a reading. -/
  readable : ∀ {fuel r f}, answers fuel = some (r, f) →
    ∃ out cs, OutcomeReads a r out ∧ f.heap.Reads a cs
  derived_iff : ∀ {out env cs}, derives out env cs ↔
    ∃ fuel r f, answers fuel = some (r, f) ∧ OutcomeReads a r out ∧ f.env = env ∧
      f.heap.Reads a cs

/-- Since nothing has two readings, it is enough that a reading of each answer is derived. -/
theorem Agrees.of_sound_of_complete {a : Arena}
    {answers : Nat → Option (Except Stop Value × Frame)}
    {derives : Except Fault TreeValue → Environment → Cells → Prop}
    (sound : ∀ {fuel r f}, answers fuel = some (r, f) →
      ∃ out cs, OutcomeReads a r out ∧ f.heap.Reads a cs ∧ derives out f.env cs)
    (complete : ∀ {out env cs}, derives out env cs →
      ∃ fuel r f, answers fuel = some (r, f) ∧ OutcomeReads a r out ∧ f.env = env ∧
        f.heap.Reads a cs) : Agrees a answers derives := by
  refine ⟨?_, complete, ?_⟩
  · intro fuel r f e
    obtain ⟨out, cs, ho, hh, -⟩ := sound e
    exact ⟨out, cs, ho, hh⟩
  · rintro ⟨fuel, r, f, e, ho, rfl, hh⟩
    obtain ⟨out', cs', ho', hh', d⟩ := sound e
    -- What was derived from the answer is the reading that was asked for.
    rw [ho.functional ho', hh.functional hh']
    exact d

/-- An expression makes nothing visible. -/
theorem BigStep.env_eq {text : Name → String} {t : Tree Name} {env env' : Environment}
    {cs cs' : Cells} {out : Except Fault TreeValue}
    (d : BigStep text (.expression t env) cs out env' cs') : env' = env := by
  cases d <;> rfl

section InRange

variable {ctx : Context} (ha : ctx.arena.Closed) {id : NodeId} {env : Environment} {h : Heap}

/-- A node may be evaluated, or run as a statement, where its variables and all functions there
are are in range: nothing dangles then. -/
private theorem exists_births (hid : id.index < ctx.arena.size) (below : env.Below h.size)
    (inRange : h.InRange ctx.arena) :
    ∃ births : List Birth,
      (⟨.expression id env, [], h⟩ : Moment).Obeys (.inRange ctx ha) births ∧
        (⟨.statement id env, [], h⟩ : Moment).Obeys (.inRange ctx ha) births := by
  -- How the cells came to be does not matter in range, only how many there are.
  have size : (List.replicate h.size (Birth.declaration id 0 ⟨0⟩)).length = h.size :=
    List.length_replicate
  have admitted : (Discipline.inRange ctx ha).admits
      (List.replicate h.size (Birth.declaration id 0 ⟨0⟩)) (.expression id) env := by
    refine ⟨?_, ?_⟩
    · rintro _ (_ | ⟨_, ⟨⟩⟩)
      exact hid
    · rw [size]
      exact below
  have cells (s : Slot) (v : Value) (hv : h.get? s = some v) : v.Obeys (.inRange ctx ha)
      (List.replicate h.size (Birth.declaration id 0 ⟨0⟩)) := by
    cases v with
    | function c =>
        show _ ∧ _
        rw [size]
        exact inRange s c hv
    | _ => trivial
  exact ⟨_, ⟨admitted, trivial, cells, size.symm⟩, ⟨admitted, nofun⟩, trivial, cells, size.symm⟩

/-- In range, no reference dangles at any moment. -/
private theorem not_dangles_of_reaches {births : List Birth} {m m' : Moment}
    (h : m.Obeys (.inRange ctx ha) births) (hd : ¬ m.focus.Dangles) (hs : m.sites = [])
    (hr : ctx.Reaches m m') : ¬ m'.focus.Dangles := by
  obtain ⟨born, hr⟩ := hr.run
  have sites : ∀ id ∈ m.sites, ∃ n, ctx.arena.node? id = some n := by
    rw [hs]
    exact nofun
  exact (inRange_of_run h hd sites hr).focus

end InRange

section Agreement

variable {ctx : Context}

/-- Both directions for an expression in an environment and a heap in range. -/
theorem expression_agrees (ha : ctx.arena.Closed) {id : NodeId} {t : Tree Name}
    (ht : ctx.arena.tree? id = some t) {env : Environment} {h : Heap} (below : env.Below h.size)
    (inRange : h.InRange ctx.arena) {cs : Cells} (hh : h.Reads ctx.arena cs) :
    Agrees ctx.arena (fun fuel => Frame.within (ctx.eval fuel id) ⟨env, h⟩)
      (BigStep ctx.interner.textOrNumber (.expression t env) cs) := by
  obtain ⟨n, hn, -⟩ := Arena.layer_of_tree? ht
  obtain ⟨births, obeys, -⟩ := exists_births ha (Arena.size_of_node? hn) below inRange
  apply Agrees.of_sound_of_complete
  · intro fuel r f e
    obtain ⟨e, henv⟩ := Frame.of_within e
    have hr : r ≠ .error .dangling := by
      -- What the evaluator answers is reached by the moves, and they never dangle.
      rintro rfl
      exact not_dangles_of_reaches ha obeys not_false rfl (Context.reaches_of_eval e []) trivial
    rw [henv]
    exact Context.eval_derived fuel e hr ht hh
  · intro out env' cs' d
    obtain ⟨r, h', ho, hh', ev⟩ := d.follows id h ht hh
    obtain ⟨fuel, e⟩ := Context.reaches_outcome_iff.mp (ev [])
    refine ⟨fuel, r, ⟨env, h'⟩, ?_, ho, d.env_eq.symm, hh'⟩
    unfold Frame.within
    rw [e]

/-- The same for a statement, which may make names visible. -/
theorem statement_agrees (ha : ctx.arena.Closed) {id : NodeId} {t : Tree Name}
    (ht : ctx.arena.tree? id = some t) {env : Environment} {h : Heap} (below : env.Below h.size)
    (inRange : h.InRange ctx.arena) {cs : Cells} (hh : h.Reads ctx.arena cs) :
    Agrees ctx.arena (fun fuel => ctx.statement (ctx.eval fuel) id ⟨env, h⟩)
      (BigStep ctx.interner.textOrNumber (.statement t env) cs) := by
  obtain ⟨n, hn, -⟩ := Arena.layer_of_tree? ht
  obtain ⟨births, -, obeys⟩ := exists_births ha (Arena.size_of_node? hn) below inRange
  apply Agrees.of_sound_of_complete
  · intro fuel r f e
    have hr : r ≠ .error .dangling := by
      rintro rfl
      have moves := Context.reaches_ended_iff.mpr ⟨fuel, e⟩
      exact not_dangles_of_reaches ha obeys not_false rfl moves trivial
    exact Context.statement_derived (Context.eval_derived fuel) e hr ht hh
  · intro out env' cs' d
    obtain ⟨r, h', ho, hh', ev⟩ := d.follows id h ht hh
    have moves : ctx.Reaches ⟨.statement id env, [], h⟩ ((⟨env', h'⟩ : Frame).finish r) := ev []
    obtain ⟨fuel, e⟩ := Context.reaches_ended_iff (f := ⟨env, h⟩).mp moves
    exact ⟨fuel, r, ⟨env', h'⟩, e, ho, rfl, hh'⟩

/-- The run of a program, from nothing. -/
theorem run_agrees {p : Program} {t : Interner} {ids : List NodeId} (safe : p.Safe t ids)
    {ts : List (Tree Name)}
    (hts : List.Forall₂ (fun id t => p.arena.tree? id = some t) ids ts) :
    Agrees p.arena (p.run t) (BigStep t.textOrNumber (.statements ts .void .empty) []) := by
  apply Agrees.of_sound_of_complete
  · intro fuel r f e
    have hr := safe.ne_dangling e
    rw [Program.run_eq safe.body] at e
    exact Context.statements_derived (Context.eval_derived fuel) e hr hts .void .empty
  · intro out env' cs' d
    have followed : Task.Follows ⟨p.arena, t⟩ [] out env' cs' (.statements ts .void .empty) :=
      d.follows
    obtain ⟨r, h', ho, hh', ev⟩ := followed ids .void Heap.empty hts .void .empty
    have moves : Context.Reaches ⟨p.arena, t⟩ (Frame.initial.start ids)
        ((⟨env', h'⟩ : Frame).finish r) := ev []
    obtain ⟨fuel, e⟩ := Context.reaches_finish_iff.mp moves
    refine ⟨fuel, r, ⟨env', h'⟩, ?_, ho, rfl, hh'⟩
    rw [Program.run_eq safe.body]
    exact e

end Agreement

/-- **The evaluator implements the big-step semantics**: for every program that was laid out, at
every subtree, in every environment and heap in range, as an expression and as a statement; and for
the whole program from nothing. -/
theorem Program.agrees_with_bigStep {doc : Json} {t₀ t : Interner} {p : Program}
    (laidOut : Program.ofJson doc t₀ = (.ok p, t)) :
    (∀ id tree env h, p.arena.tree? id = some tree → env.Below h.size → h.InRange p.arena →
      ∃ cs, h.Reads p.arena cs ∧
        Agrees p.arena (fun fuel => Frame.within (Context.eval ⟨p.arena, t⟩ fuel id) ⟨env, h⟩)
          (BigStep t.textOrNumber (.expression tree env) cs) ∧
        Agrees p.arena
          (fun fuel => Context.statement ⟨p.arena, t⟩ (Context.eval ⟨p.arena, t⟩ fuel) id ⟨env, h⟩)
          (BigStep t.textOrNumber (.statement tree env) cs)) ∧
      ∃ ts, p.trees? = some ts ∧
        Agrees p.arena (p.run t) (BigStep t.textOrNumber (.statements ts .void .empty) []) := by
  obtain ⟨ids, wf⟩ := Program.wellFormed_of_ofJson laidOut
  have ordered := wf.order.ordered
  constructor
  · intro id tree env h ht below inRange
    -- In range the heap has a reading.
    obtain ⟨cs, hh⟩ := Heap.Reads.of_bodies ordered fun s c hc => (inRange s c hc).1
    have closed : (Context.mk p.arena t).arena.Closed := ordered.closed
    exact ⟨cs, hh, expression_agrees closed ht below inRange hh,
      statement_agrees closed ht below inRange hh⟩
  · have tree (id : NodeId) (hid : id ∈ ids) : ∃ t, p.arena.tree? id = some t :=
      ordered.exists_tree? (wf.order.bounds hid).2
    obtain ⟨ts, hts⟩ := List.exists_forall₂ tree
    refine ⟨ts, ?_, run_agrees wf.safe hts⟩
    unfold Program.trees?
    rw [wf.body]
    exact List.mapM_eq_some_iff_forall₂.mpr hts

/-- What the small program answers is derived from its trees, and so is what its call answers
where `f` stands for a cell with the function. -/
theorem Program.sample_agrees_with_bigStep :
    (∃ env cs cs', BigStep Interner.sample.textOrNumber
      (.expression (.call (.ident ⟨1⟩) (.number 1)) env) cs (.ok (.number 1)) env cs') ∧
      ∃ ts, Program.sample.trees? = some ts ∧
        ∃ env cs, BigStep Interner.sample.textOrNumber (.statements ts .void .empty) []
          (.ok (.number 1)) env cs := by
  obtain ⟨nodes, ts, hts, program⟩ := Program.agrees_with_bigStep Program.ofJson_sample
  constructor
  · have below : (Environment.empty.bind ⟨1⟩ ⟨0⟩).Below 1 := Environment.Below.empty.bind ⟨1⟩
    have inRange : (Heap.empty.alloc (.function ⟨.empty, ⟨2⟩, ⟨0⟩⟩)).2.InRange
        Program.sample.arena := by
      intro s c hc
      rw [Heap.get?_alloc] at hc
      split at hc
      · cases hc
        exact ⟨by decide, Environment.Below.empty⟩
      · cases hc
    have tree : Program.sample.arena.tree? ⟨5⟩ = some (.call (.ident ⟨1⟩) (.number 1)) :=
      rfl
    obtain ⟨cs, -, call, -⟩ := nodes ⟨5⟩ _ _ _ tree below inRange
    have answer : (Frame.within (Context.eval ⟨Program.sample.arena, Interner.sample⟩ 5 ⟨5⟩)
        ⟨Environment.empty.bind ⟨1⟩ ⟨0⟩, (Heap.empty.alloc (.function ⟨.empty, ⟨2⟩, ⟨0⟩⟩)).2⟩).map
          (·.1) = some (.ok (.number 1)) := by
      decide +kernel
    obtain ⟨⟨r, f⟩, e, rfl⟩ := Option.map_eq_some_iff.mp answer
    obtain ⟨out, cs', -, hh⟩ := call.readable e
    have env_eq := (Frame.of_within e).2
    exact ⟨_, cs, cs', call.derived_iff.mpr ⟨5, _, f, e, .ok (.number 1), env_eq, hh⟩⟩
  · have answer : (Program.sample.run Interner.sample 5).map (·.1) = some (.ok (.number 1)) := by
      decide +kernel
    obtain ⟨⟨r, f⟩, e, rfl⟩ := Option.map_eq_some_iff.mp answer
    obtain ⟨out, cs, -, hh⟩ := program.readable e
    exact ⟨ts, hts, f.env, cs, program.derived_iff.mpr ⟨5, _, f, e, .ok (.number 1), rfl, hh⟩⟩

end LexCell
