import LexCell.Proofs.Sequencing

/-!
# A let is an application

The block `{ let x₁ = e₁, …, xₙ = eₙ; s }` and the calls `(x₁ => … (xₙ => s)(eₙ) …)(e₁)` do the same
(`Context.let_is_application`). The block makes its variables in a frame that grows; each of the
calls makes a function, which holds what is visible so far, and then its variable. Both see the same
at `s`. The block runs it as a statement, the innermost call as an expression, which makes a
difference only for what is visible after it, and nothing comes after it
(`Context.enclosed_statement`).
-/

namespace LexCell

/-! ### Scopes

A scope is entered for a list of statements. These lemmas move what comes first in a scope out of
it, when it does not see the scope. -/

namespace Frame

variable {α β : Type}

/-- What an expression does in a scope of its own it does without one. -/
theorem enclosed_within (env : Environment) (act : Environment → Action Heap α) :
    enclosed env (within act) = act env := by
  funext h
  unfold enclosed within
  dsimp only
  cases act env h <;> rfl

/-- An expression that comes first in a scope does not see the scope. -/
theorem enclosed_within_bind (env : Environment) (act : Environment → Action Heap α)
    (g : α → Action Frame β) :
    enclosed env (within act >>= g) = act env >>= fun a => enclosed env (g a) := by
  funext h
  rw [Action.bind_apply]
  unfold enclosed
  rw [Action.bind_apply]
  unfold within
  dsimp only
  rcases act env h with _ | ⟨_ | a, h'⟩ <;> rfl

/-- A variable that comes first in a scope might as well be made before. -/
theorem enclosed_declare_bind (env : Environment) (x : Name) (v : Value) (act : Action Frame α) :
    enclosed env (declare x v >>= fun _ => act) =
      Heap.extend env x v >>= fun env => enclosed env act :=
  rfl

/-- A reference that comes first in a scope might as well be followed before. -/
theorem enclosed_deref_bind (env : Environment) (x : Option α) (g : α → Action Frame β) :
    enclosed env (Action.deref x >>= g) = Action.deref x >>= fun a => enclosed env (g a) := by
  cases x <;> rfl

end Frame

/-! ### The two forms -/

def Arena.Lets (a : Arena) (ds : List Declaration) (s id : NodeId) : Prop :=
  ∃ span b, a.node? id = some (.block span) ∧ a.statements? span = some [b, s] ∧ a.Binds b ds

/-- The node calls functions that are made on the spot: the first has the first declared name for
its parameter and is called with the first initial value, and its body calls the next. The body of
the last is `s`. -/
inductive Arena.Applies (a : Arena) (s : NodeId) : List Declaration → NodeId → Prop where
  | nil : Applies a s [] s
  | cons {d : Declaration} {ds : List Declaration} {id callee body : NodeId} :
      a.node? id = some (.call callee d.init) → a.node? callee = some (.function d.name body) →
      Applies a s ds body → Applies a s (d :: ds) id

namespace Context

variable {ctx : Context}

/-- In a scope of its own a statement is an expression: what it makes visible is forgotten. -/
theorem enclosed_statement (id : NodeId) (env : Environment) :
    Frame.enclosed env (ctx.statement ctx.unbounded id) = ctx.unbounded id env := by
  rcases hn : ctx.arena.node? id with _ | n
  · rw [unbounded_eq_step]
    unfold statement step
    rw [hn]
    rfl
  · -- a `let` declares in its scope, which ends at once; every other statement is an expression
    by_cases declares : ∃ span, n = .bind span
    · obtain ⟨span, rfl⟩ := declares
      rw [unbounded_eq_step]
      unfold statement step
      rw [hn, Action.deref_some, Action.pure_bind, Action.deref_some, Action.pure_bind]
      exact Frame.enclosed_deref_bind env _ _
    · have expression : ctx.statement ctx.unbounded id = Frame.within (ctx.unbounded id) := by
        unfold statement
        rw [hn]
        cases n with
        | bind span => exact absurd ⟨span, rfl⟩ declares
        | _ => rfl
      rw [expression]
      exact Frame.enclosed_within env _

/-- A function that is made and called makes its variable and then does what its body does, in the
environment of the call. -/
theorem unbounded_call {id callee argument body : NodeId} {x : Name}
    (hc : ctx.arena.node? id = some (.call callee argument))
    (hf : ctx.arena.node? callee = some (.function x body)) (env : Environment) :
    ctx.unbounded id env = ctx.unbounded argument env >>= fun v =>
      Heap.extend env x v >>= fun env => ctx.unbounded body env := by
  have function : ctx.unbounded callee env = pure (.function ⟨env, x, body⟩) := by
    rw [unbounded_eq_step]
    unfold step
    rw [hf]
    rfl
  rw [unbounded_eq_step id]
  unfold step
  rw [hc, Action.deref_some, Action.pure_bind]
  dsimp only
  rw [function, Action.pure_bind]
  rfl

/-- Declarations and then the statement `s`, in a scope of their own, do what the calls do. -/
theorem enclosed_declareAll {s id : NodeId} {ds : List Declaration}
    (applies : ctx.arena.Applies s ds id) (env : Environment) :
    Frame.enclosed env (Frame.declareAll ctx.unbounded ds >>= fun _ =>
      ctx.statement ctx.unbounded s) = ctx.unbounded id env := by
  -- What is visible grows on both sides by the variable that the first declaration makes.
  induction applies generalizing env with
  | nil => exact enclosed_statement s env
  | cons hc hf _ ih =>
      -- Both sides compute the first initial value and make its variable. What is left is the
      -- induction hypothesis.
      rw [Frame.declareAll, bind_assoc, Frame.enclosed_within_bind, unbounded_call hc hf]
      refine bind_congr fun v => ?_
      rw [bind_assoc, Frame.enclosed_declare_bind]
      exact bind_congr fun env' => ih env'

/-- A block runs its declarations and its statement in a scope of their own. -/
theorem unbounded_lets {s id : NodeId} {ds : List Declaration} (lets : ctx.arena.Lets ds s id)
    (env : Environment) :
    ctx.unbounded id env = Frame.enclosed env (Frame.declareAll ctx.unbounded ds >>= fun _ =>
      ctx.statement ctx.unbounded s) := by
  obtain ⟨span, b, hn, hs, binds⟩ := lets
  rw [unbounded_eq_step, step_block hn]
  unfold sequence
  rw [hs, Action.deref_some, Action.pure_bind]
  simp only [statements, statement_of_binds binds, bind_pure]

/-- **A let is an application.** For any declarations, which may repeat names, and any statement, in
any environment and heap: the block that declares them before the statement and the calls that apply
functions of these names to the initial values end under the same conditions, with the same value or
the same stop, and leave the same heap. -/
theorem let_is_application (ctx : Context) {ds : List Declaration} {s block application : NodeId}
    (lets : ctx.arena.Lets ds s block) (applies : ctx.arena.Applies s ds application)
    (env : Environment) (h : Heap) (r : Except Stop Value) (h' : Heap) :
    ctx.ExpressionEnds block env h r h' ↔ ctx.ExpressionEnds application env h r h' := by
  rw [expressionEnds_iff, expressionEnds_iff, unbounded_lets lets, enclosed_declareAll applies]

end Context

/-- The block `{ let x = 1, x = x + x; f => x; }` and the call `(x => (x => f => x)(x + x))(1)`, of
which both have the nodes of what is declared and of the last statement. -/
def Arena.applying : Arena where
  nodes := #[.number 1, .ident ⟨2⟩, .binary .add ⟨1⟩ ⟨1⟩, .function ⟨1⟩ ⟨1⟩, .bind ⟨0, 2⟩,
    .block ⟨0, 2⟩, .function ⟨2⟩ ⟨3⟩, .call ⟨6⟩ ⟨2⟩, .function ⟨2⟩ ⟨7⟩, .call ⟨8⟩ ⟨0⟩]
  statementLists := #[⟨4⟩, ⟨3⟩]
  declarations := #[⟨⟨2⟩, ⟨0⟩⟩, ⟨⟨2⟩, ⟨2⟩⟩]

/-- What the calls make, read off the block: a function that sees the second of the variables. -/
theorem Context.applying_is_let :
    Arena.applying.Lets [⟨⟨2⟩, ⟨0⟩⟩, ⟨⟨2⟩, ⟨2⟩⟩] ⟨3⟩ ⟨5⟩ ∧
      Arena.applying.Applies ⟨3⟩ [⟨⟨2⟩, ⟨0⟩⟩, ⟨⟨2⟩, ⟨2⟩⟩] ⟨9⟩ ∧
      ExpressionEnds ⟨Arena.applying, Interner.sample⟩ ⟨9⟩ .empty .empty
        (.ok (.function ⟨.bind (.bind .empty ⟨2⟩ ⟨0⟩) ⟨2⟩ ⟨1⟩, ⟨1⟩, ⟨1⟩⟩))
        ⟨#[.number 1, .number 2]⟩ := by
  have lets : Arena.applying.Lets [⟨⟨2⟩, ⟨0⟩⟩, ⟨⟨2⟩, ⟨2⟩⟩] ⟨3⟩ ⟨5⟩ :=
    ⟨⟨0, 2⟩, ⟨4⟩, rfl, by decide, ⟨0, 2⟩, rfl, by decide⟩
  have applies : Arena.applying.Applies ⟨3⟩ [⟨⟨2⟩, ⟨0⟩⟩, ⟨⟨2⟩, ⟨2⟩⟩] ⟨9⟩ :=
    .cons rfl rfl (.cons rfl rfl .nil)
  refine ⟨lets, applies, ?_⟩
  refine (let_is_application ⟨Arena.applying, Interner.sample⟩ lets applies _ _ _ _).mp ?_
  exact ⟨3, by decide +kernel⟩

end LexCell
