import LexCell.Proofs.Machine.Unwinding
import LexCell.Proofs.Safety
import LexCell.Proofs.Scope

/-!
# Lexical binding

Whenever a node is evaluated, the names in the environment are those of its scope, and each stands
for a cell that its binder made: a declaration of a `let` the cell for its first value, a parameter
the cell for an argument. The histories of runs say which binder a cell is from. This is a
discipline (`Discipline.lexical`): a closure remembers an environment for the scope of the node that
made it, so its body runs in that of the body.

So whether a name is found is settled by the program alone (`Program.lexically_bound`).
-/

namespace LexCell

inductive Binder.Makes (a : Arena) : Name → Binder → Birth → Prop where
  | declaration (n : Name) (bind : NodeId) (index : Nat) :
      Makes a n (.declaration bind index) (.declaration bind index n)
  /-- A call of a function that the node made. -/
  | parameter {n : Name} {f : NodeId} {c : Closure} :
      c.param = n → a.node? f = some (.function n c.body) → Makes a n (.parameter f) (.argument c)

/-- The environment makes the names of the scope visible, no others, and each stands for a cell of
its binder. -/
def Scope.Models (a : Arena) (births : List Birth) (σ : Scope) (env : Environment) : Prop :=
  ∀ x, Option.Rel
    (fun b s => ∃ birth, births[s.index]? = some birth ∧ Binder.Makes a x b birth)
    (σ x) (env.resolve x)

namespace Scope.Models

variable {a : Arena} {births : List Birth} {σ : Scope} {env : Environment}

theorem empty : Scope.empty.Models a births Environment.empty := fun _ => .none

theorem resolve_eq_none_iff (h : σ.Models a births env) (x : Name) :
    env.resolve x = none ↔ σ x = none := by
  have hx := h x
  generalize σ x = found at hx ⊢
  generalize env.resolve x = slot at hx ⊢
  cases hx with
  | none => exact ⟨fun _ => rfl, fun _ => rfl⟩
  | some => exact ⟨nofun, nofun⟩

theorem grow (h : σ.Models a births env) (birth : Birth) :
    σ.Models a (births ++ [birth]) env := by
  intro x
  have hx := h x
  generalize σ x = found at hx ⊢
  generalize env.resolve x = slot at hx ⊢
  cases hx with
  | none => exact .none
  | some made =>
      obtain ⟨birth', hb, hm⟩ := made
      -- The history only gets longer at its end.
      refine .some ⟨birth', ?_, hm⟩
      rw [List.getElem?_append_left (List.getElem?_eq_some_iff.mp hb).1]
      exact hb

/-- A new variable for a name, in the cell that its binder makes. -/
theorem extend (h : σ.Models a births env) {n : Name} {b : Binder} {birth : Birth}
    (hb : Binder.Makes a n b birth) :
    (σ.extend n b).Models a (births ++ [birth]) (env.bind n ⟨births.length⟩) := by
  intro x
  rw [Environment.resolve_bind, Scope.extend]
  -- The name itself stands for the new cell; every other stays with its own.
  by_cases hx : x = n
  · subst hx
    rw [if_pos rfl, if_pos rfl]
    refine .some ⟨birth, ?_, hb⟩
    exact List.getElem?_concat_length
  · rw [if_neg hx, if_neg hx]
    exact h.grow birth x

end Scope.Models

/-! ### The discipline -/

/-- Each of the statements has the scope that the ones before it leave. -/
def Program.StatementsScoped (p : Program) (σ : Scope) (ids : List NodeId) : Prop :=
  ∀ pre id post, ids = pre ++ id :: post → p.Scoped id (σ.afterAll p.arena pre)

namespace Program.StatementsScoped

variable {p : Program} {σ : Scope} {id : NodeId} {ids : List NodeId}

theorem head (h : p.StatementsScoped σ (id :: ids)) : p.Scoped id σ := h [] id ids rfl

theorem tail (h : p.StatementsScoped σ (id :: ids)) :
    p.StatementsScoped (σ.after p.arena id) ids := by
  rintro pre id' post rfl
  exact h (id :: pre) id' post rfl

end Program.StatementsScoped

theorem Scope.after_of_ne_bind {a : Arena} {id : NodeId} {n : Node} (hn : a.node? id = some n)
    (hb : ∀ span, n ≠ .bind span) (σ : Scope) : σ.after a id = σ := by
  unfold Scope.after
  rw [hn]
  cases n with
  | bind span => exact absurd rfl (hb span)
  | _ => rfl

/-- Which declarations of which `let` are left: those before them are in the scope `σ` of the
rest. -/
def Program.DeclarationsScoped (p : Program) (σ : Scope) (bind : NodeId) (index : Nat)
    (ds : List Declaration) : Prop :=
  ∃ σ₀ span pre, p.Scoped bind σ₀ ∧ p.arena.node? bind = some (.bind span) ∧
    p.arena.declarations? span = some (pre ++ ds) ∧ index = pre.length ∧
    σ = σ₀.declareAll bind 0 pre

namespace Program.DeclarationsScoped

variable {p : Program} {σ : Scope} {bind : NodeId} {index : Nat} {d : Declaration}
  {ds : List Declaration}

theorem head (h : p.DeclarationsScoped σ bind index (d :: ds)) : p.Scoped d.init σ := by
  obtain ⟨σ₀, span, pre, hσ, hn, hd, -, rfl⟩ := h
  exact .inner hσ (.init hn hd)

theorem tail (h : p.DeclarationsScoped σ bind index (d :: ds)) :
    p.DeclarationsScoped (σ.extend d.name (.declaration bind index)) bind (index + 1) ds := by
  obtain ⟨σ₀, span, pre, hσ, hn, hd, rfl, rfl⟩ := h
  refine ⟨σ₀, span, pre ++ [d], hσ, hn, ?_, ?_, ?_⟩
  · rw [List.append_assoc]
    exact hd
  · rw [List.length_append]
    rfl
  · rw [Scope.declareAll_append, Nat.zero_add]

/-- After all declarations the scope is that after the `let`. -/
theorem exists_after (h : p.DeclarationsScoped σ bind index []) :
    ∃ σ₀, p.Scoped bind σ₀ ∧ σ = σ₀.after p.arena bind := by
  obtain ⟨σ₀, span, pre, hσ, hn, hd, -, rfl⟩ := h
  refine ⟨σ₀, hσ, ?_⟩
  unfold Scope.after
  rw [hn]
  dsimp only
  -- No declarations are left, so those made are all there are.
  rw [hd, List.append_nil]
  rfl

end Program.DeclarationsScoped

/-- Environments are there for scopes: that of the node, of the statements or of the declarations
that they serve; and a closure's environment is there for the scope of a function with its
parameter and body. -/
def Discipline.lexical (p : Program) (t : Interner) {ids : List NodeId} (wf : p.WellFormed t ids) :
    Discipline ⟨p.arena, t⟩ where
  admits births use env := ∃ σ : Scope, σ.Models p.arena births env ∧
    match use with
    | .expression id => p.Scoped id σ
    | .statements ids => p.StatementsScoped σ ids
    | .declarations bind index ds => p.DeclarationsScoped σ bind index ds
  environment _ _ := True
  closure births c := ∃ f σ, p.arena.node? f = some (.function c.param c.body) ∧
    p.Scoped f σ ∧ σ.Models p.arena births c.env
  target _ _ _ := True
  follows bind ids := ∀ σ, p.Scoped bind σ → p.StatementsScoped (σ.after p.arena bind) ids
  admits_grow h := by
    obtain ⟨σ, models, hσ⟩ := h
    exact ⟨σ, models.grow _, hσ⟩
  environment_grow h := h
  closure_grow h := by
    obtain ⟨f, σ, hf, hσ, models⟩ := h
    exact ⟨f, σ, hf, hσ, models.grow _⟩
  target_grow h := h
  environment_of_admits _ := trivial
  environment_of_closure _ := trivial
  operand h hn hc := by
    obtain ⟨σ, models, hσ⟩ := h
    exact ⟨σ, models, .inner hσ (.operand hn hc)⟩
  bind h hn hd := by
    obtain ⟨σ, models, hσ⟩ := h
    exact ⟨σ, models, σ, _, [], hσ, hn, hd, rfl, rfl⟩
  block h hn hd := by
    obtain ⟨σ, models, hσ⟩ := h
    refine ⟨σ, models, ?_⟩
    rintro pre id post rfl
    exact .inner hσ (.statement hn hd)
  function h hn := by
    obtain ⟨σ, models, hσ⟩ := h
    exact ⟨_, σ, hn, hσ, models⟩
  assign _ _ _ := trivial
  init h := by
    obtain ⟨σ, models, hσ⟩ := h
    exact ⟨σ, models, hσ.head⟩
  declared h := by
    obtain ⟨σ, models, hσ⟩ := h
    exact ⟨_, models.extend (.declaration _ _ _), hσ.tail⟩
  statement h := by
    obtain ⟨σ, models, hσ⟩ := h
    exact ⟨σ, models, hσ.head⟩
  rest h hn hb := by
    obtain ⟨σ, models, hσ⟩ := h
    -- Only a `let` changes the scope of the statements after it.
    have rest := hσ.tail
    rw [Scope.after_of_ne_bind hn hb] at rest
    exact ⟨σ, models, rest⟩
  rest_of_bind h hn := by
    obtain ⟨σ, models, hσ⟩ := h
    intro σ' hσ'
    -- The `let` has one scope, so its declarations end in the scope of these statements.
    rw [wf.scope_unique hσ' hσ.head]
    exact hσ.tail
  declared_all h follows := by
    obtain ⟨σ, models, hσ⟩ := h
    obtain ⟨σ₀, hσ₀, rfl⟩ := hσ.exists_after
    exact ⟨_, models, follows σ₀ hσ₀⟩
  call h := by
    obtain ⟨f, σ, hf, hσ, models⟩ := h
    exact ⟨_, models.extend (.parameter rfl hf), .inner hσ (.body hf)⟩

/-! ### Runs of programs -/

/-- The node that is about to be evaluated, as an expression or as a statement, and where. -/
def Focus.node? : Focus → Option (NodeId × Environment)
  | .expression id env | .statement id env => some (id, env)
  | _ => none

namespace Program

variable {p : Program} {t : Interner} {ids : List NodeId}

/-- No two binders make the same cell: the body of a function tells its node. -/
theorem WellFormed.binder_unique (wf : p.WellFormed t ids) {x : Name} {b b' : Binder}
    {birth : Birth} (h : Binder.Makes p.arena x b birth) (h' : Binder.Makes p.arena x b' birth) :
    b = b' := by
  cases h with
  | declaration =>
      cases h'
      rfl
  | @parameter f _ _ hf =>
      cases h' with
      | @parameter f' _ _ hf' =>
          -- Two functions with one body are one node, for the body has one parent.
          have hc := Arena.children?_of_node? hf
          have hc' := Arena.children?_of_node? hf'
          have same : f = f' := wf.order.parent_unique (Nat.zero_le _) (Arena.size_of_node? hf)
            (Nat.zero_le _) (Arena.size_of_node? hf') hc hc' List.mem_cons_self List.mem_cons_self
          rw [same]

/-- Every moment of the run obeys the discipline. -/
theorem WellFormed.lexical_of_run (wf : p.WellFormed t ids) {births : List Birth} {m : Moment}
    (hr : Context.Run ⟨p.arena, t⟩ (Frame.initial.start ids) births m) :
    m.Obeys (.lexical p t wf) births := by
  have start : (Frame.initial.start ids).Obeys (.lexical p t wf) [] := by
    refine Frame.start_obeys ⟨Scope.empty, Scope.Models.empty, ?_⟩ nofun rfl
    rintro pre id post rfl
    exact .statement wf.body
  exact start.run hr

/-- **Where a node is evaluated, its scope is visible.** -/
theorem WellFormed.models_of_run (wf : p.WellFormed t ids) {births : List Birth} {m : Moment}
    (hr : Context.Run ⟨p.arena, t⟩ (Frame.initial.start ids) births m) {id : NodeId}
    {env : Environment} (hm : m.focus.node? = some (id, env)) {σ : Scope} (hσ : p.Scoped id σ) :
    σ.Models p.arena births env := by
  have admitted : (Discipline.lexical p t wf).admits births (.expression id) env := by
    -- The same is asked of a node as a statement and as an expression.
    have focus := (wf.lexical_of_run hr).focus
    generalize m.focus = f at hm focus
    cases f with
    | expression =>
        cases hm
        exact focus
    | statement =>
        cases hm
        exact focus.1
    | _ => cases hm
  obtain ⟨σ', models, hσ'⟩ := admitted
  rw [wf.scope_unique hσ hσ']
  exact models

/-- A node that looks for a name that is not visible ends the run. -/
private theorem run_of_unbound (wf : p.WellFormed t ids) {births : List Birth} {m : Moment}
    (hr : Context.Run ⟨p.arena, t⟩ (Frame.initial.start ids) births m) {id : NodeId}
    {env : Environment} (hm : m.focus.node? = some (id, env)) {n : Node} {x : Name}
    (hn : p.arena.node? id = some n) (hx : n.sought? = some x) (unbound : env.resolve x = none) :
    ∃ fuel f, p.run t fuel =
      some (.error (.error ⟨.unboundIdentifier (t.textOrNumber x), some id⟩), f) := by
  have report (k : List Pending) (h : Heap) :
      Context.next ⟨p.arena, t⟩ ⟨.expression id env, k, h⟩ =
        some ⟨.outcome (.error (Context.unboundAt ⟨p.arena, t⟩ x id)), k, h⟩ := by
    cases n with
    | ident =>
        cases hx
        exact (Context.Step.ident_unbound hn unbound).next_eq
    | assign =>
        cases hx
        exact (Context.Step.assign_unbound hn unbound).next_eq
    | _ => cases hx
  -- As a statement the node is evaluated with the move after.
  obtain ⟨k, h, moves⟩ : ∃ k h, Context.Reaches ⟨p.arena, t⟩ m
      ⟨.outcome (.error (Context.unboundAt ⟨p.arena, t⟩ x id)), k, h⟩ := by
    obtain ⟨focus, k, h⟩ := m
    cases focus with
    | expression =>
        cases hm
        exact ⟨k, h, .single (report k h)⟩
    | statement =>
        cases hm
        have hb (span : Span) : n ≠ .bind span := by
          rintro rfl
          cases hx
        refine ⟨.within env :: k, h, .head ?_ (.single (report _ h))⟩
        exact (Context.Step.statement_expression hn hb).next_eq
    | _ => cases hm
  have reached : Context.Reaches ⟨p.arena, t⟩ _ _ := hr.reaches.trans moves
  obtain ⟨born, hr⟩ := reached.run
  have start : (Frame.initial.start ids).Fits := Stacked.nil
  obtain ⟨f, ends⟩ := Context.reaches_finish_of_stop (hr.fits start) rfl
  obtain ⟨fuel, e⟩ := Context.reaches_finish_iff.mp (reached.trans ends)
  refine ⟨fuel, f, ?_⟩
  rw [Program.run_eq wf.body]
  exact e

/-- **A name is reported as not visible exactly if its node is evaluated and the name is not in the
node's scope.** -/
theorem WellFormed.unbound_iff (wf : p.WellFormed t ids) {id : NodeId} {n : Node} {x : Name}
    {σ : Scope} (hn : p.arena.node? id = some n) (hx : n.sought? = some x) (hσ : p.Scoped id σ) :
    (∃ fuel f, p.run t fuel =
        some (.error (.error ⟨.unboundIdentifier (t.textOrNumber x), some id⟩), f)) ↔
      (∃ births m env, Context.Run ⟨p.arena, t⟩ (Frame.initial.start ids) births m ∧
        m.focus.node? = some (id, env)) ∧ σ x = none := by
  constructor
  -- The error names the node and the name: the run went through a moment at which the node sought
  -- it.
  · rintro ⟨fuel, f, e⟩
    obtain ⟨births, hr⟩ := (Program.reaches_of_run wf.body e).run
    obtain ⟨births₀, m, env, n', x', hr₀, hm, hn', hx', unbound, -⟩ := hr.exists_unbound rfl rfl
    have hn' : p.arena.node? id = some n' := hn'
    rw [hn] at hn'
    cases hn'
    rw [hx] at hx'
    cases hx'
    have hm : m.focus.node? = some (id, env) := by rw [hm]; rfl
    refine ⟨⟨births₀, m, env, hr₀, hm⟩, ?_⟩
    exact ((wf.models_of_run hr₀ hm hσ).resolve_eq_none_iff x).mp unbound
  · rintro ⟨⟨births, m, env, hr, hm⟩, hnone⟩
    -- The scope lacks the name, and so does any environment that models it.
    have unbound := ((wf.models_of_run hr hm hσ).resolve_eq_none_iff x).mpr hnone
    exact run_of_unbound wf hr hm hn hx unbound

/-- **Binding is lexical.** Every node of a program that was laid out has one scope; in every run,
where a node is evaluated the environment makes exactly its scope visible, with each name in a cell
that its binder made; so whether a name is found is settled by the scope. -/
theorem lexically_bound {doc : Json} {t₀ t : Interner} {p : Program}
    (laidOut : Program.ofJson doc t₀ = (.ok p, t)) :
    ∃ ids, p.statements? = some ids ∧
      (∀ id : NodeId, id.index < p.arena.size → ∃! σ, p.Scoped id σ) ∧
      (∀ births m id env σ, Context.Run ⟨p.arena, t⟩ (Frame.initial.start ids) births m →
        m.focus.node? = some (id, env) → p.Scoped id σ →
        σ.Models p.arena births env ∧ m.heap.size = births.length) ∧
      (∀ x b b' birth, Binder.Makes p.arena x b birth → Binder.Makes p.arena x b' birth →
        b = b') ∧
      ∀ id n x σ, p.arena.node? id = some n → n.sought? = some x → p.Scoped id σ →
        ((∃ fuel f, p.run t fuel =
            some (.error (.error ⟨.unboundIdentifier (t.textOrNumber x), some id⟩), f)) ↔
          (∃ births m env, Context.Run ⟨p.arena, t⟩ (Frame.initial.start ids) births m ∧
            m.focus.node? = some (id, env)) ∧ σ x = none) := by
  obtain ⟨ids, wf⟩ := Program.wellFormed_of_ofJson laidOut
  refine ⟨ids, wf.body, fun id hid => wf.existsUnique_scope hid, ?_, ?_, ?_⟩
  · intro births m id env σ hr hm hσ
    exact ⟨wf.models_of_run hr hm hσ, (wf.lexical_of_run hr).size⟩
  · exact fun x b b' birth h h' => wf.binder_unique h h'
  · exact fun id n x σ hn hx hσ => wf.unbound_iff hn hx hσ

/-- In the small program the name of the function is found where it is called. -/
theorem sample_lexically_bound :
    ¬ ∃ fuel f, Program.sample.run Interner.sample fuel =
      some (.error (.error ⟨.unboundIdentifier "f", some ⟨3⟩⟩), f) := by
  obtain ⟨ids, -, -, -, -, unbound⟩ := lexically_bound ofJson_sample
  have call : Program.sample.Scoped ⟨5⟩ (Scope.empty.afterAll Program.sample.arena [⟨2⟩]) :=
    .statement (show Program.sample.statements? = some ([⟨2⟩] ++ ⟨5⟩ :: []) by decide)
  have node : Program.sample.arena.node? ⟨5⟩ = some (.call ⟨3⟩ ⟨4⟩) := by decide
  have callee := Scoped.inner call (.operand node List.mem_cons_self)
  intro h
  have missing := ((unbound ⟨3⟩ (.ident ⟨1⟩) ⟨1⟩ _ (by decide) rfl callee).mp h).2
  cases missing

end Program

end LexCell
