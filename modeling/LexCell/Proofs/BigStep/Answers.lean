import LexCell.Proofs.BigStep.Reading

/-!
# Answers are derived

Whatever the evaluator answers about a node, `BigStep` derives for the tree below it, unless the
answer is that a reference dangles (`Context.eval_derived`). The proof goes by induction on the
fuel: one level of evaluation gives derivations if the evaluator for the nodes below does
(`Context.step_derived`), and there is one case for each node.
-/

namespace LexCell

/-! ### Taking actions apart

The evaluator is a program with early exits, the relation has one rule for each exit. These lemmas
turn an answer of the one into the premises of the other. -/

namespace Action

variable {σ α β : Type}

/-- A sequence answers with its second part, or with the stop of its first. -/
theorem exists_of_bind {x : Action σ α} {f : α → Action σ β} {s s' : σ} {r : Except Stop β}
    (h : (x >>= f) s = some (r, s')) :
    (∃ a s₁, x s = some (.ok a, s₁) ∧ f a s₁ = some (r, s')) ∨
      ∃ e, x s = some (.error e, s') ∧ r = .error e := by
  rw [bind_apply] at h
  rcases hx : x s with _ | ⟨_ | a, s₁⟩
  · rw [hx] at h
    cases h
  · rw [hx] at h
    cases h
    exact .inr ⟨_, rfl, rfl⟩
  · rw [hx] at h
    exact .inl ⟨a, s₁, rfl, h⟩

/-- An operation on values touches no heap. -/
theorem ofExcept_apply (id : NodeId) (x : Except EvalError.Cause Value) (h : Heap) :
    Action.ofExcept id x h = some (Stop.outcomeAt id x, h) := by
  cases x with
  | ok v => rfl
  | error c => rw [ofExcept_error, fail_eq_stop, stop_apply, Stop.outcomeAt]

end Action

theorem Value.expectBoolean_boolean (b : Bool) (context : String) (id : NodeId) :
    ((Value.boolean b).expectBoolean context id : Action Heap Bool) = pure b := rfl

theorem Value.expectBoolean_of_kind {v : Value} (hv : v.kind ≠ .boolean) (context : String)
    (id : NodeId) : (v.expectBoolean context id : Action Heap Bool) =
      .fail (.typeMismatch context .boolean v.kind) id := by
  cases v with
  | boolean b => exact absurd rfl hv
  | _ => rfl

/-- What an action answers inside a frame it answers on the heap alone. -/
theorem Frame.of_within {act : Environment → Action Heap Value} {f f' : Frame}
    {r : Except Stop Value} (h : Frame.within act f = some (r, f')) :
    act f.env f.heap = some (r, f'.heap) ∧ f'.env = f.env := by
  unfold Frame.within at h
  split at h
  · next e =>
    cases h
    exact ⟨e, rfl⟩
  · cases h

/-- The environment in which an enclosed action ends is forgotten. -/
theorem Frame.of_enclosed {act : Action Frame Value} {env : Environment} {h h' : Heap}
    {r : Except Stop Value} (e : Frame.enclosed env act h = some (r, h')) :
    ∃ env', act ⟨env, h⟩ = some (r, ⟨env', h'⟩) := by
  unfold Frame.enclosed at e
  -- Without an answer inside there is none outside.
  split at e
  · next f hf =>
    cases e
    exact ⟨f.env, hf⟩
  · cases e

/-- From the cells given, something is derived for the task that the outcome `r` and the heap `h'`
read as. -/
def Task.Derives (ctx : Context) (cs : Cells) (r : Except Stop Value) (env' : Environment)
    (h' : Heap) (task : Task) : Prop :=
  ∃ out cs', OutcomeReads ctx.arena r out ∧ h'.Reads ctx.arena cs' ∧
    BigStep ctx.interner.textOrNumber task cs out env' cs'

namespace Context

open Arena

variable {ctx : Context}

/-- What the evaluator answers, unless a reference dangles, is derived. -/
def Derived (ctx : Context) (evaluator : Evaluator) : Prop :=
  ∀ {id env h r h' t cs}, evaluator id env h = some (r, h') → r ≠ .error .dangling →
    ctx.arena.tree? id = some t → h.Reads ctx.arena cs →
    Task.Derives ctx cs r env h' (.expression t env)

namespace Derived

variable {evaluator : Evaluator} {id : NodeId} {env : Environment} {h h' : Heap} {t : Tree Name}
  {cs : Cells}

/-- A node with a value: the tree below it has a value that reads as it. -/
theorem ok (below : ctx.Derived evaluator) {v : Value}
    (e : evaluator id env h = some (.ok v, h')) (ht : ctx.arena.tree? id = some t)
    (hh : h.Reads ctx.arena cs) :
    ∃ w cs', v.Reads ctx.arena w ∧ h'.Reads ctx.arena cs' ∧
      BigStep ctx.interner.textOrNumber (.expression t env) cs (.ok w) env cs' := by
  obtain ⟨out, cs', ho, hh', d⟩ := below e nofun ht hh
  obtain ⟨w, rfl, hv⟩ := ho.exists_value
  exact ⟨w, cs', hv, hh', d⟩

/-- A node that stops: the tree below it has a fault, unless the stop is for a reference. -/
theorem error (below : ctx.Derived evaluator) {s : Stop}
    (e : evaluator id env h = some (.error s, h'))
    (hs : (.error s : Except Stop Value) ≠ .error .dangling)
    (ht : ctx.arena.tree? id = some t) (hh : h.Reads ctx.arena cs) :
    ∃ f cs', OutcomeReads ctx.arena (.error s) (.error f) ∧ h'.Reads ctx.arena cs' ∧
      BigStep ctx.interner.textOrNumber (.expression t env) cs (.error f) env cs' := by
  obtain ⟨out, cs', ho, hh', d⟩ := below e hs ht hh
  obtain ⟨f, rfl⟩ := ho.exists_fault
  exact ⟨f, cs', ho, hh', d⟩

/-- An operand whose value the rest of a rule waits for: it has a value and the rest answers, or it
stops and that is the answer. -/
theorem first (below : ctx.Derived evaluator) {rest : Value → Action Heap Value}
    {r : Except Stop Value} (e : (evaluator id env >>= rest) h = some (r, h'))
    (hr : r ≠ .error .dangling) (ht : ctx.arena.tree? id = some t) (hh : h.Reads ctx.arena cs) :
    (∃ v w h₁ cs₁, v.Reads ctx.arena w ∧ h₁.Reads ctx.arena cs₁ ∧
      BigStep ctx.interner.textOrNumber (.expression t env) cs (.ok w) env cs₁ ∧
      rest v h₁ = some (r, h')) ∨
    ∃ f cs₁, OutcomeReads ctx.arena r (.error f) ∧ h'.Reads ctx.arena cs₁ ∧
      BigStep ctx.interner.textOrNumber (.expression t env) cs (.error f) env cs₁ := by
  rcases Action.exists_of_bind e with ⟨v, h₁, hx, e⟩ | ⟨s, hx, rfl⟩
  · obtain ⟨w, cs₁, hv, hh₁, d⟩ := below.ok hx ht hh
    exact .inl ⟨v, w, h₁, cs₁, hv, hh₁, d, e⟩
  · obtain ⟨f, cs₁, hf, hh₁, d⟩ := below.error hx hr ht hh
    exact .inr ⟨f, cs₁, hf, hh₁, d⟩

end Derived

/-! ### The rules

In this section `evaluator` stands for the evaluation of the nodes below. -/

section Rules

variable {evaluator : Evaluator} (below : ctx.Derived evaluator)

include below

/-- The declarations of a `let` are derived in the order in which they are evaluated. -/
theorem declareAll_derived {ds : List Declaration} {es : List (Name × Tree Name)} {f f' : Frame}
    {r : Except Stop Value} {cs : Cells} (e : Frame.declareAll evaluator ds f = some (r, f'))
    (hr : r ≠ .error .dangling)
    (hes : List.Forall₂ (fun d e => d.name = e.1 ∧ ctx.arena.tree? d.init = some e.2) ds es)
    (hh : f.heap.Reads ctx.arena cs) :
    Task.Derives ctx cs r f'.env f'.heap (.declarations es f.env) := by
  -- On the declarations with the trees of their initial values; each adds a cell, so the cells are
  -- not fixed.
  induction hes generalizing f cs with
  | nil =>
      cases e
      exact ⟨_, cs, .ok .void, hh, .declarations_nil _ _⟩
  | @cons _ entry _ _ hd _ ih =>
      obtain ⟨n, t⟩ := entry
      obtain ⟨rfl, ht⟩ := hd
      rcases Action.exists_of_bind e with ⟨v, f₁, hx, e⟩ | ⟨s, hx, rfl⟩
      · obtain ⟨hx, henv⟩ := Frame.of_within hx
        obtain ⟨w, cs₁, hv, hh₁, d⟩ := below.ok hx ht hh
        obtain ⟨out, cs₂, ho, hh₂, ds⟩ := ih e (hh₁.alloc hv)
        refine ⟨out, cs₂, ho, hh₂, .declarations_cons d ?_⟩
        -- The slot of the new variable is the length of the list of cells.
        rw [← hh₁.slot_alloc v, ← henv]
        exact ds
      · obtain ⟨hx, henv⟩ := Frame.of_within hx
        obtain ⟨f, cs₁, hf, hh₁, d⟩ := below.error hx hr ht hh
        rw [henv]
        exact ⟨_, cs₁, hf, hh₁, .declarations_error d⟩

/-- A statement is derived, and what it makes visible with it. -/
theorem statement_derived {id : NodeId} {t : Tree Name} {f f' : Frame} {r : Except Stop Value}
    {cs : Cells} (e : ctx.statement evaluator id f = some (r, f')) (hr : r ≠ .error .dangling)
    (ht : ctx.arena.tree? id = some t) (hh : f.heap.Reads ctx.arena cs) :
    Task.Derives ctx cs r f'.env f'.heap (.statement t f.env) := by
  obtain ⟨n, hn, layer⟩ := layer_of_tree? ht
  unfold statement at e
  rw [hn, Action.deref_some, Action.pure_bind] at e
  -- All kinds of nodes but one are evaluated as expressions.
  have expression (hb : ∀ es, t ≠ .bind es) (e : Frame.within (evaluator id) f = some (r, f')) :
      Task.Derives ctx cs r f'.env f'.heap (.statement t f.env) := by
    obtain ⟨hx, henv⟩ := Frame.of_within e
    obtain ⟨out, cs', ho, hh', d⟩ := below hx hr ht hh
    rw [henv]
    exact ⟨out, cs', ho, hh', .statement_expression hb d⟩
  cases layer with
  | bind hd hes =>
      dsimp only at e
      rw [hd, Action.deref_some, Action.pure_bind] at e
      obtain ⟨out, cs', ho, hh', d⟩ := declareAll_derived below e hr hes hh
      exact ⟨out, cs', ho, hh', .statement_bind d⟩
  | _ => exact expression nofun e

/-- A list of statements is derived from its statements. The value so far is carried along, for it
is the outcome where the list ends. -/
theorem statements_derived {ids : List NodeId} {ts : List (Tree Name)} {last : Value}
    {w : TreeValue} {f f' : Frame} {r : Except Stop Value} {cs : Cells}
    (e : ctx.statements evaluator last ids f = some (r, f')) (hr : r ≠ .error .dangling)
    (hts : List.Forall₂ (fun id t => ctx.arena.tree? id = some t) ids ts)
    (hw : last.Reads ctx.arena w) (hh : f.heap.Reads ctx.arena cs) :
    Task.Derives ctx cs r f'.env f'.heap (.statements ts w f.env) := by
  -- On the statements with their trees.
  induction hts generalizing last w f cs with
  | nil =>
      cases e
      exact ⟨_, cs, .ok hw, hh, .statements_nil _ _ _⟩
  | cons ht _ ih =>
      unfold statements at e
      rcases Action.exists_of_bind e with ⟨v, f₁, hx, e⟩ | ⟨s, hx, rfl⟩
      · obtain ⟨out, cs₁, ho, hh₁, d⟩ := statement_derived below hx nofun ht hh
        obtain ⟨w₁, rfl, hv⟩ := ho.exists_value
        obtain ⟨out, cs₂, ho, hh₂, ds⟩ := ih e hv hh₁
        exact ⟨out, cs₂, ho, hh₂, .statements_cons d ds⟩
      · obtain ⟨out, cs₁, ho, hh₁, d⟩ := statement_derived below hx hr ht hh
        obtain ⟨f, rfl⟩ := ho.exists_fault
        exact ⟨_, cs₁, ho, hh₁, .statements_error d⟩

/-! ### One lemma for each kind of node

A node whose operands are evaluated answers as its rule says, or as the first operand that stops.
The value of an operand is read before it is looked at: whether it is a truth value, or a function,
can be told from its reading. -/

section Nodes

variable {id x y z : NodeId} {env : Environment} {h h' : Heap} {r : Except Stop Value}
  {t u v : Tree Name} {cs : Cells}

omit below in
private theorem ident_derived {n : Name} (hn : ctx.arena.node? id = some (.ident n))
    (ht : ctx.arena.tree? id = some (.ident n)) (e : ctx.step evaluator id env h = some (r, h'))
    (hr : r ≠ .error .dangling) (hh : h.Reads ctx.arena cs) :
    Task.Derives ctx cs r env h' (.expression (.ident n) env) := by
  unfold step at e
  rw [hn, Action.deref_some, Action.pure_bind] at e
  dsimp only at e
  rcases hs : env.resolve n with _ | s
  · rw [hs] at e
    cases e
    exact ⟨_, cs, .error ht, hh, .ident_unbound hs⟩
  · rw [hs] at e
    have e : Action.deref (h.get? s) h = some (r, h') := e
    rcases hv : h.get? s with _ | v
    · -- the variable's cell is missing, which is a reference that dangles
      rw [hv] at e
      cases e
      exact absurd rfl hr
    · rw [hv] at e
      cases e
      obtain ⟨w, hw, hv⟩ := hh.exists_cell hv
      exact ⟨_, cs, .ok hv, hh, .ident hs hw⟩

private theorem unary_derived {op : UnaryOp}
    (hn : ctx.arena.node? id = some (.unary op x)) (hx : ctx.arena.tree? x = some t)
    (ht : ctx.arena.tree? id = some (.unary op t))
    (e : ctx.step evaluator id env h = some (r, h')) (hr : r ≠ .error .dangling)
    (hh : h.Reads ctx.arena cs) :
    Task.Derives ctx cs r env h' (.expression (.unary op t) env) := by
  unfold step at e
  rw [hn, Action.deref_some, Action.pure_bind] at e
  rcases below.first e hr hx hh with ⟨v, w, h₁, cs₁, hv, hh₁, d, e⟩ | ⟨f, cs₁, hf, hh₁, d⟩
  · rw [Action.ofExcept_apply] at e
    cases e
    exact ⟨_, cs₁, (op.apply_reads hv).outcomeAt ht, hh₁, .unary d⟩
  · exact ⟨_, cs₁, hf, hh₁, .unary_error d⟩

private theorem binary_derived {op : BinaryOp}
    (hn : ctx.arena.node? id = some (.binary op x y)) (hx : ctx.arena.tree? x = some t)
    (hy : ctx.arena.tree? y = some u) (ht : ctx.arena.tree? id = some (.binary op t u))
    (e : ctx.step evaluator id env h = some (r, h')) (hr : r ≠ .error .dangling)
    (hh : h.Reads ctx.arena cs) :
    Task.Derives ctx cs r env h' (.expression (.binary op t u) env) := by
  unfold step at e
  rw [hn, Action.deref_some, Action.pure_bind] at e
  rcases below.first e hr hx hh with ⟨v, w, h₁, cs₁, hv, hh₁, d₁, e⟩ | ⟨f, cs₁, hf, hh₁, d₁⟩
  · rcases below.first e hr hy hh₁ with
      ⟨v', w', h₂, cs₂, hv', hh₂, d₂, e⟩ | ⟨f, cs₂, hf, hh₂, d₂⟩
    · rw [Action.ofExcept_apply] at e
      cases e
      exact ⟨_, cs₂, (op.apply_reads hv hv').outcomeAt ht, hh₂, .binary d₁ d₂⟩
    · exact ⟨_, cs₂, hf, hh₂, .binary_right_error d₁ d₂⟩
  · exact ⟨_, cs₁, hf, hh₁, .binary_left_error d₁⟩

private theorem logical_derived {op : LogicalOp}
    (hn : ctx.arena.node? id = some (.logical op x y)) (hx : ctx.arena.tree? x = some t)
    (hy : ctx.arena.tree? y = some u) (ht : ctx.arena.tree? id = some (.logical op t u))
    (e : ctx.step evaluator id env h = some (r, h')) (hr : r ≠ .error .dangling)
    (hh : h.Reads ctx.arena cs) :
    Task.Derives ctx cs r env h' (.expression (.logical op t u) env) := by
  unfold step at e
  rw [hn, Action.deref_some, Action.pure_bind] at e
  rcases below.first e hr hx hh with ⟨v, w, h₁, cs₁, hv, hh₁, d₁, e⟩ | ⟨f, cs₁, hf, hh₁, d₁⟩
  -- Two questions in the order of evaluation: is the left value a truth value, and does it decide?
  · by_cases hk : w.kind = .boolean
    · obtain ⟨b, rfl, rfl⟩ := hv.exists_boolean hk
      by_cases hb : b = op.absorbing
      · subst hb
        rw [Value.expectBoolean_boolean, Action.pure_bind, if_pos rfl] at e
        cases e
        exact ⟨_, cs₁, .ok (.boolean _), hh₁, .logical_short d₁⟩
      · rw [Value.expectBoolean_boolean, Action.pure_bind, if_neg hb] at e
        rcases below.first e hr hy hh₁ with
          ⟨v', w', h₂, cs₂, hv', hh₂, d₂, e⟩ | ⟨f, cs₂, hf, hh₂, d₂⟩
        · -- the right value must be a truth value as well
          by_cases hk' : w'.kind = .boolean
          · obtain ⟨b', rfl, rfl⟩ := hv'.exists_boolean hk'
            cases e
            exact ⟨_, cs₂, .ok (.boolean b'), hh₂, .logical_long d₁ hb d₂⟩
          · rw [Value.expectBoolean_of_kind (hv'.kind ▸ hk')] at e
            cases e
            rw [hv'.kind]
            exact ⟨_, cs₂, .error ht, hh₂, .logical_right_kind d₁ hb d₂ hk'⟩
        · exact ⟨_, cs₂, hf, hh₂, .logical_right_error d₁ hb d₂⟩
    · rw [Value.expectBoolean_of_kind (hv.kind ▸ hk)] at e
      cases e
      rw [hv.kind]
      exact ⟨_, cs₁, .error ht, hh₁, .logical_left_kind d₁ hk⟩
  · exact ⟨_, cs₁, hf, hh₁, .logical_left_error d₁⟩

private theorem conditional_derived (hn : ctx.arena.node? id = some (.conditional x y z))
    (hx : ctx.arena.tree? x = some t) (hy : ctx.arena.tree? y = some u)
    (hz : ctx.arena.tree? z = some v) (ht : ctx.arena.tree? id = some (.conditional t u v))
    (e : ctx.step evaluator id env h = some (r, h')) (hr : r ≠ .error .dangling)
    (hh : h.Reads ctx.arena cs) :
    Task.Derives ctx cs r env h' (.expression (.conditional t u v) env) := by
  unfold step at e
  rw [hn, Action.deref_some, Action.pure_bind] at e
  rcases below.first e hr hx hh with ⟨v, w, h₁, cs₁, hv, hh₁, d₁, e⟩ | ⟨f, cs₁, hf, hh₁, d₁⟩
  · by_cases hk : w.kind = .boolean
    · obtain ⟨b, rfl, rfl⟩ := hv.exists_boolean hk
      rw [Value.expectBoolean_boolean, Action.pure_bind] at e
      -- The branch that is not taken is not evaluated and needs no derivation.
      cases b with
      | true =>
          obtain ⟨out, cs₂, ho, hh₂, d₂⟩ := below e hr hy hh₁
          exact ⟨out, cs₂, ho, hh₂, .conditional d₁ d₂⟩
      | false =>
          obtain ⟨out, cs₂, ho, hh₂, d₂⟩ := below e hr hz hh₁
          exact ⟨out, cs₂, ho, hh₂, .conditional d₁ d₂⟩
    · rw [Value.expectBoolean_of_kind (hv.kind ▸ hk)] at e
      cases e
      rw [hv.kind]
      exact ⟨_, cs₁, .error ht, hh₁, .conditional_kind d₁ hk⟩
  · exact ⟨_, cs₁, hf, hh₁, .conditional_error d₁⟩

private theorem call_derived (hn : ctx.arena.node? id = some (.call x y))
    (hx : ctx.arena.tree? x = some t) (hy : ctx.arena.tree? y = some u)
    (ht : ctx.arena.tree? id = some (.call t u))
    (e : ctx.step evaluator id env h = some (r, h')) (hr : r ≠ .error .dangling)
    (hh : h.Reads ctx.arena cs) :
    Task.Derives ctx cs r env h' (.expression (.call t u) env) := by
  unfold step at e
  rw [hn, Action.deref_some, Action.pure_bind] at e
  rcases below.first e hr hx hh with ⟨v, w, h₁, cs₁, hv, hh₁, d₁, e⟩ | ⟨f, cs₁, hf, hh₁, d₁⟩
  · -- what is called is looked at before the argument is evaluated
    by_cases hk : w.kind = .function
    · obtain ⟨c, body, rfl, rfl, hbody⟩ := hv.exists_function hk
      rcases below.first e hr hy hh₁ with
        ⟨v', w', h₂, cs₂, hv', hh₂, d₂, e⟩ | ⟨f, cs₂, hf, hh₂, d₂⟩
      · -- The call stores the argument before the body is evaluated.
        have e : evaluator c.body (c.env.bind c.param (h₂.alloc v').1) (h₂.alloc v').2 =
            some (r, h') := e
        rw [hh₂.slot_alloc v'] at e
        obtain ⟨out, cs₃, ho, hh₃, d₃⟩ := below e hr hbody (hh₂.alloc hv')
        exact ⟨out, cs₃, ho, hh₃, .call d₁ d₂ d₃⟩
      · exact ⟨_, cs₂, hf, hh₂, .call_argument_error d₁ d₂⟩
    · cases hv with
      | function => exact absurd rfl hk
      | _ =>
          cases e
          exact ⟨_, cs₁, .error ht, hh₁, .call_kind d₁ hk⟩
  · exact ⟨_, cs₁, hf, hh₁, .call_callee_error d₁⟩

private theorem assign_derived {n : Name} (hn : ctx.arena.node? id = some (.assign n x))
    (hx : ctx.arena.tree? x = some t) (ht : ctx.arena.tree? id = some (.assign n t))
    (e : ctx.step evaluator id env h = some (r, h')) (hr : r ≠ .error .dangling)
    (hh : h.Reads ctx.arena cs) :
    Task.Derives ctx cs r env h' (.expression (.assign n t) env) := by
  unfold step at e
  rw [hn, Action.deref_some, Action.pure_bind] at e
  dsimp only at e
  -- An unbound name stops the assignment before the new value is computed.
  rcases hs : env.resolve n with _ | s
  · rw [hs] at e
    cases e
    exact ⟨_, cs, .error ht, hh, .assign_unbound hs⟩
  · rw [hs] at e
    rcases below.first e hr hx hh with ⟨v, w, h₁, cs₁, hv, hh₁, d, e⟩ | ⟨f, cs₁, hf, hh₁, d⟩
    · rw [Action.bind_apply] at e
      unfold Heap.overwrite at e
      -- A cell that is not there is a reference that dangles.
      rcases hset : h₁.set? s v with _ | h₂
      · rw [hset] at e
        cases e
        exact absurd rfl hr
      · rw [hset] at e
        cases e
        have hlt := Heap.lt_of_set? hset
        rw [hh₁.size] at hlt
        exact ⟨_, _, .ok .void, hh₁.set hv hset, .assign hs d hlt⟩
    · exact ⟨_, cs₁, hf, hh₁, .assign_error hs d⟩

end Nodes

/-- **One level of evaluation is derived** if the level below is. -/
theorem step_derived : ctx.Derived (ctx.step evaluator) := by
  intro id env h r h' t cs answer hr ht hh
  obtain ⟨n, hn, layer⟩ := layer_of_tree? ht
  have e := answer
  unfold step at e
  rw [hn, Action.deref_some, Action.pure_bind] at e
  -- The tree has the shape of the node, so the cases of both are the same.
  cases layer with
  | number n =>
      cases e
      exact ⟨_, cs, .ok (.number n), hh, .number n env cs⟩
  | boolean b =>
      cases e
      exact ⟨_, cs, .ok (.boolean b), hh, .boolean b env cs⟩
  | unary hx => exact unary_derived below hn hx ht answer hr hh
  | binary hx hy => exact binary_derived below hn hx hy ht answer hr hh
  | logical hx hy => exact logical_derived below hn hx hy ht answer hr hh
  | conditional hx hy hz => exact conditional_derived below hn hx hy hz ht answer hr hh
  | ident n => exact ident_derived hn ht answer hr hh
  | bind hd hes =>
      dsimp only at e
      rw [hd, Action.deref_some, Action.pure_bind] at e
      obtain ⟨env', e⟩ := Frame.of_enclosed e
      obtain ⟨out, cs₁, ho, hh₁, d⟩ := declareAll_derived below e hr hes hh
      exact ⟨out, cs₁, ho, hh₁, .bind d⟩
  | function hx =>
      cases e
      exact ⟨_, cs, .ok (.function hx), hh, .function _ _ env cs⟩
  | call hx hy => exact call_derived below hn hx hy ht answer hr hh
  | assign hx => exact assign_derived below hn hx ht answer hr hh
  | block hd hts =>
      obtain ⟨env', e⟩ := Frame.of_enclosed e
      unfold sequence at e
      rw [hd, Action.deref_some, Action.pure_bind] at e
      obtain ⟨out, cs₁, ho, hh₁, d⟩ := statements_derived below e hr hts .void hh
      exact ⟨out, cs₁, ho, hh₁, .block d⟩
  | malformed n =>
      cases e
      exact ⟨_, cs, .error ht, hh, .malformed n env cs⟩

end Rules

/-- **Every answer of the evaluator is derived**, unless a reference dangles. -/
theorem eval_derived (fuel : Nat) : ctx.Derived (ctx.eval fuel) := by
  induction fuel with
  -- Without fuel there is no answer.
  | zero => exact nofun
  | succ fuel ih => exact step_derived ih

end Context

end LexCell
