import LexCell.Proofs.Machine.Rules

/-!
# The moves end as the evaluator says

`Context.eval` with enough fuel answers exactly where the moves come to an end
(`reaches_outcome_iff`, `reaches_finish_iff`). One statement carries both directions: if the
evaluator answers, the moves reach the moment that the answer describes, and if it runs out of
fuel `n`, then at least `n` moves can be made (`Tracks`). It is proved by induction on the fuel,
for any work that waits, so that the parts of a rule can be put one after the other.
-/

namespace LexCell

namespace Context

variable {ctx : Context}

/-! ### Where moves end

The next moment is a function of the moment, so from where moves start they end in one place, if
they end. -/

/-- There is at most one way to go on, so two ways to an end are the same way. -/
theorem Reaches.unique_end {m m₁ m₂ : Moment} (h₁ : ctx.Reaches m m₁) (h₂ : ctx.Reaches m m₂)
    (e₁ : ctx.next m₁ = none) (e₂ : ctx.next m₂ = none) : m₁ = m₂ := by
  induction h₁ using Relation.ReflTransGen.head_induction_on with
  | refl => -- the other way starts with the same move, or it ends here and so does this one
      rcases h₂.cases_head with h | ⟨m', hm', -⟩
      · exact h
      · rw [e₁] at hm'
        cases hm'
  | head hm _ ih =>
      rcases h₂.cases_head with rfl | ⟨m', hm', h₂⟩
      · rw [e₂] at hm
        cases hm
      · rw [hm] at hm'
        cases hm'
        exact ih h₂

/-! ### At least so many moves

Running out of fuel means that moves go on. It is said by a lower bound on their number, which needs
no moment at which anything ends. -/

def Lasts (ctx : Context) : Nat → Moment → Prop
  | 0, _ => True
  | n + 1, m => ∃ m', ctx.next m = some m' ∧ Lasts ctx n m'

/-- What lasts for more moves lasts for fewer. -/
theorem Lasts.pred {n : Nat} {m : Moment} (h : ctx.Lasts (n + 1) m) : ctx.Lasts n m := by
  induction n generalizing m with
  | zero => trivial
  | succ n ih =>
      obtain ⟨m', hm, hl⟩ := h
      exact ⟨m', hm, ih hl⟩

/-- What lasts later lasts now. -/
theorem Lasts.of_reaches {n : Nat} {m m' : Moment} (h : ctx.Reaches m m') (hl : ctx.Lasts n m') :
    ctx.Lasts n m := by
  induction h using Relation.ReflTransGen.head_induction_on with
  | refl => exact hl
  | head hm _ ih => exact Lasts.pred ⟨_, hm, ih⟩

/-- Moves that come to an end do not last. -/
theorem exists_not_lasts {m m' : Moment} (h : ctx.Reaches m m') (e : ctx.next m' = none) :
    ∃ n, ¬ ctx.Lasts n m := by
  -- From the end backwards: one more move can be made at each step.
  induction h using Relation.ReflTransGen.head_induction_on with
  | refl =>
      refine ⟨1, ?_⟩
      rintro ⟨_, hm, -⟩
      rw [e] at hm
      cases hm
  | head hm _ ih =>
      obtain ⟨n, hn⟩ := ih
      refine ⟨n + 1, ?_⟩
      rintro ⟨_, hm', hl⟩
      rw [hm] at hm'
      cases hm'
      exact hn hl

/-! ### Following an action

The parts of a rule are actions one after the other, and so are the moves that follow them. -/

/-- The moves from `m` follow an action that was given fuel `n`: they reach the moment that its
outcome describes, or there are at least `n` of them. -/
def Tracks {σ α : Type} (ctx : Context) (n : Nat) (m : Moment)
    (done : Except Stop α → σ → Moment) : Option (Except Stop α × σ) → Prop
  | some (r, s) => ctx.Reaches m (done r s)
  | none => ctx.Lasts n m

def yields (k : List Pending) (r : Except Stop Value) (h : Heap) : Moment := ⟨.outcome r, k, h⟩

def ends (k : List Pending) (r : Except Stop Value) (f : Frame) : Moment :=
  ⟨.ended r f.env, k, f.heap⟩

namespace Tracks

variable {σ α β : Type} {n : Nat} {m m' : Moment} {done : Except Stop α → σ → Moment}
  {o : Option (Except Stop α × σ)}

/-- Moves before do no harm. -/
theorem trans (hr : ctx.Reaches m m') (h : ctx.Tracks n m' done o) : ctx.Tracks n m done o := by
  rcases o with _ | ⟨r, s⟩
  · exact Lasts.of_reaches hr h
  · exact hr.trans h

/-- In particular a single one. -/
theorem step {b : Option Birth} (hs : ctx.Step m b m') (h : ctx.Tracks n m' done o) :
    ctx.Tracks n m done o :=
  trans (.single hs.next_eq) h

/-- A step at the start makes up for the fuel that a level of evaluation takes. -/
theorem step_succ {b : Option Birth} (hs : ctx.Step m b m') (h : ctx.Tracks n m' done o) :
    ctx.Tracks (n + 1) m done o := by
  rcases o with _ | ⟨r, s⟩
  · exact ⟨m', hs.next_eq, h⟩
  · exact Relation.ReflTransGen.head hs.next_eq h

/-- A move that ends what it follows. -/
theorem last {b : Option Birth} {r : Except Stop α} {s : σ} (hs : ctx.Step m b (done r s)) :
    ctx.Tracks n m done (some (r, s)) :=
  .single hs.next_eq

/-- Two actions one after the other. -/
theorem bind {done' : Except Stop β → σ → Moment} {x : Action σ α} {f : α → Action σ β} {s : σ}
    (hx : ctx.Tracks n m done (x s))
    (hok : ∀ a s, ctx.Tracks n (done (.ok a) s) done' (f a s))
    (herror : ∀ e s, ctx.Reaches (done (.error e) s) (done' (.error e) s)) :
    ctx.Tracks n m done' ((x >>= f) s) := by
  rw [Action.bind_apply]
  -- The first part runs out of fuel, stops, or yields a value for the second.
  rcases hs : x s with _ | ⟨_ | a, s'⟩
  · rw [hs] at hx
    exact hx
  · rw [hs] at hx
    exact Relation.ReflTransGen.trans hx (herror _ _)
  · rw [hs] at hx
    exact trans hx (hok a s')

/-- An operand, and then the rest of the rule. -/
theorem operand {k : List Pending} {p : Pending} {x : Action Heap Value}
    {f : Value → Action Heap Value} {h : Heap} (hx : ctx.Tracks n m (yields (p :: k)) (x h))
    (hp : p.Passes)
    (hok : ∀ v h, ctx.Tracks n ⟨.outcome (.ok v), p :: k, h⟩ (yields k) (f v h)) :
    ctx.Tracks n m (yields k) ((x >>= f) h) :=
  bind hx hok fun e h => .single (next_outcome_error e hp k h)

/-- The result of an operation. -/
theorem ofExcept {k : List Pending} {id : NodeId} {h : Heap} {b : Option Birth}
    (x : Except EvalError.Cause Value)
    (hs : ctx.Step m b ⟨.outcome (Stop.outcomeAt id x), k, h⟩) :
    ctx.Tracks n m (yields k) (Action.ofExcept id x h) := by
  cases x with
  | ok v => exact last hs
  | error c => exact last hs

/-- An expression run as a statement. -/
theorem within {k : List Pending} {act : Environment → Action Heap Value} {f : Frame}
    (hx : ctx.Tracks n m (yields (.within f.env :: k)) (act f.env f.heap)) :
    ctx.Tracks n m (ends k) (Frame.within act f) := by
  unfold Frame.within
  rcases hs : act f.env f.heap with _ | ⟨_ | v, h⟩
  · rw [hs] at hx
    exact hx
  · rw [hs] at hx
    -- One more move ends the statement.
    exact hx.tail rfl
  · rw [hs] at hx
    exact hx.tail rfl

/-- Statements in a scope of their own. -/
theorem enclosed {k : List Pending} {act : Action Frame Value} {env : Environment} {h : Heap}
    (hx : ctx.Tracks n m (ends (.enclosed :: k)) (act ⟨env, h⟩)) :
    ctx.Tracks n m (yields k) (Frame.enclosed env act h) := by
  unfold Frame.enclosed
  rcases hs : act ⟨env, h⟩ with _ | ⟨r, f⟩
  · rw [hs] at hx
    exact hx
  · rw [hs] at hx
    exact hx.tail rfl

end Tracks

/-! ### The rules

In this section `evaluator` stands for the evaluation of the nodes below, with fuel `n`. -/

section Rules

variable {n : Nat} {evaluator : Evaluator}
  (below : ∀ id env k h,
    ctx.Tracks n ⟨.expression id env, k, h⟩ (yields k) (evaluator id env h))

include below

/-- Declarations are followed one by one. -/
theorem declareAll_tracks (ds : List Declaration) (bind : NodeId) (index : Nat)
    (k : List Pending) (f : Frame) :
    ctx.Tracks n ⟨.declarations bind index ds f.env, k, f.heap⟩ (ends k)
      (Frame.declareAll evaluator ds f) := by
  induction ds generalizing index f with
  | nil => exact Tracks.last .declarations_nil
  | cons d ds ih =>
      refine Tracks.step .declarations_cons ?_
      unfold Frame.declareAll
      rw [Action.bind_apply]
      unfold Frame.within
      have hx := below d.init f.env (.declared bind index d ds f.env :: k) f.heap
      rcases hs : evaluator d.init f.env f.heap with _ | ⟨_ | v, h⟩
      · rw [hs] at hx
        exact hx
      · rw [hs] at hx
        exact hx.tail rfl
      · rw [hs] at hx
        -- The move that takes up the value makes the declared name visible.
        refine Tracks.trans (hx.tail rfl) ?_
        exact ih (index + 1) ⟨f.env.bind d.name (h.alloc v).1, (h.alloc v).2⟩

/-- A statement is followed. -/
theorem statement_tracks (id : NodeId) (k : List Pending) (f : Frame) :
    ctx.Tracks n ⟨.statement id f.env, k, f.heap⟩ (ends k) (ctx.statement evaluator id f) := by
  unfold statement
  rcases hn : ctx.arena.node? id with _ | node
  · exact Tracks.last (.statement_no_node hn)
  rw [Action.deref_some, Action.pure_bind]
  cases node with
  | bind span =>
      dsimp only
      rcases hd : ctx.arena.declarations? span with _ | ds
      · exact Tracks.last (.statement_dangling hn hd)
      · exact Tracks.step (.statement_bind hn hd) (declareAll_tracks below ds id 0 k f)
  | _ =>
      refine Tracks.step (.statement_expression hn nofun) ?_
      exact Tracks.within (below id f.env _ f.heap)

/-- Lists of statements are followed one statement at a time. -/
theorem statements_tracks (ids : List NodeId) (last : Value) (k : List Pending) (f : Frame) :
    ctx.Tracks n ⟨.statements ids last f.env, k, f.heap⟩ (ends k)
      (ctx.statements evaluator last ids f) := by
  -- The stack is fixed, the value so far is not.
  induction ids generalizing last f with
  | nil => exact Tracks.last .statements_nil
  | cons id ids ih =>
      refine Tracks.step .statements_cons ?_
      unfold Context.statements
      refine Tracks.bind (statement_tracks below id (.sequence ids :: k) f) ?_ ?_
      · intro v f
        exact Tracks.step .sequence (ih v f)
      · intro e f
        exact .single rfl

/-- **The moves follow one level of evaluation**, if they follow the level below. -/
theorem step_tracks (id : NodeId) (env : Environment) (k : List Pending) (h : Heap) :
    ctx.Tracks (n + 1) ⟨.expression id env, k, h⟩ (yields k) (ctx.step evaluator id env h) := by
  unfold step
  rcases hn : ctx.arena.node? id with _ | node
  · exact Tracks.last (.no_node hn)
  rw [Action.deref_some, Action.pure_bind]
  cases node with
  | number n => exact Tracks.last (.number hn)
  | boolean b => exact Tracks.last (.boolean hn)
  | unary op operand =>
      -- Entering a node takes a move, which is one more than the fuel of the level below.
      refine Tracks.step_succ (.unary hn) (Tracks.operand (below operand env _ h) trivial ?_)
      intro v h
      exact Tracks.ofExcept (op.apply v) .operand
  | binary op left right =>
      refine Tracks.step_succ (.binary hn) (Tracks.operand (below left env _ h) trivial ?_)
      intro a h
      refine Tracks.step .left (Tracks.operand (below right env _ h) trivial ?_)
      intro b h
      exact Tracks.ofExcept (op.apply a b) .right
  | logical op left right =>
      refine Tracks.step_succ (.logical hn) (Tracks.operand (below left env _ h) trivial ?_)
      intro a h
      cases a with
      | boolean a =>
          simp only [Value.expectBoolean, pure_bind]
          -- The left operand decides or it does not.
          by_cases ha : a = op.absorbing
          · subst ha
            rw [if_pos rfl]
            exact Tracks.last .guard_short
          · rw [if_neg ha]
            refine Tracks.step (.guard_long ha) ?_
            refine Tracks.operand (below right env _ h) trivial ?_
            intro b h
            cases b with
            | boolean b => exact Tracks.last .truth
            | _ => exact Tracks.last (.truth_kind nofun)
      | _ => exact Tracks.last (.guard_kind nofun)
  | conditional test consequent alternate =>
      refine Tracks.step_succ (.conditional hn) (Tracks.operand (below test env _ h) trivial ?_)
      intro v h
      cases v with
      | boolean b =>
          simp only [Value.expectBoolean, pure_bind]
          cases b with
          | true => exact Tracks.step .test (below consequent env k h)
          | false => exact Tracks.step .test (below alternate env k h)
      | _ => exact Tracks.last (.test_kind nofun)
  | ident name =>
      dsimp only
      -- The name is not visible, or its cell is missing, or there is a value.
      rcases hs : env.resolve name with _ | s
      · exact Tracks.last (.ident_unbound hn hs)
      · dsimp only
        unfold Heap.fetch
        rcases hv : h.get? s with _ | v
        · exact Tracks.last (.ident_dangling hn hs hv)
        · exact Tracks.last (.ident hn hs hv)
  | bind span =>
      dsimp only
      rcases hd : ctx.arena.declarations? span with _ | ds
      · exact Tracks.last (.bind_dangling hn hd)
      · refine Tracks.step_succ (.bind hn hd) ?_
        exact Tracks.enclosed (declareAll_tracks below ds id 0 _ ⟨env, h⟩)
  | function param body => exact Tracks.last (.function hn)
  | call callee argument =>
      refine Tracks.step_succ (.call hn) (Tracks.operand (below callee env _ h) trivial ?_)
      intro v h
      cases v with
      | function c =>
          refine Tracks.step .callee (Tracks.operand (below argument env _ h) trivial ?_)
          intro v h
          -- The same move binds the parameter and stores the argument.
          exact Tracks.step .argument (below c.body _ k (h.alloc v).2)
      | _ => exact Tracks.last (.callee_kind nofun)
  | assign target value =>
      dsimp only
      rcases hs : env.resolve target with _ | s
      · exact Tracks.last (.assign_unbound hn hs)
      · refine Tracks.step_succ (.assign hn hs) ?_
        refine Tracks.operand (below value env _ h) trivial ?_
        intro v h
        rw [Action.bind_apply]
        unfold Heap.overwrite
        rcases hh : h.set? s v with _ | h'
        · exact Tracks.last (.assigned_dangling hh)
        · exact Tracks.last (.assigned hh)
  | block span =>
      dsimp only
      unfold sequence
      rcases hd : ctx.arena.statements? span with _ | ids
      · exact Tracks.last (.block_dangling hn hd)
      · refine Tracks.step_succ (.block hn hd) ?_
        exact Tracks.enclosed (statements_tracks below ids .void _ ⟨env, h⟩)
  | malformed token => exact Tracks.last (.malformed hn)

end Rules

/-- **The moves follow the evaluator**, with any fuel. -/
theorem eval_tracks (n : Nat) (id : NodeId) (env : Environment) (k : List Pending) (h : Heap) :
    ctx.Tracks n ⟨.expression id env, k, h⟩ (yields k) (ctx.eval n id env h) := by
  induction n generalizing id env k h with
  -- Without fuel nothing is asked of the moves.
  | zero => trivial
  | succ n ih => exact step_tracks ih id env k h

/-! ### The moves and the evaluator

What is followed with every fuel ends exactly where an answer says: with enough fuel there is an
answer, since moves that end do not last. -/

/-- An answer of the evaluator is where the moves lead, whatever waits for it. -/
theorem reaches_of_eval {n : Nat} {id : NodeId} {env : Environment} {h h' : Heap}
    {r : Except Stop Value} (e : ctx.eval n id env h = some (r, h')) (k : List Pending) :
    ctx.Reaches ⟨.expression id env, k, h⟩ ⟨.outcome r, k, h'⟩ := by
  have tracks : ctx.Tracks n _ (yields k) (ctx.eval n id env h) := eval_tracks n id env k h
  rwa [e] at tracks

/-- The same for a statement. -/
theorem reaches_of_statement {n : Nat} {id : NodeId} {f f' : Frame} {r : Except Stop Value}
    (e : ctx.statement (ctx.eval n) id f = some (r, f')) (k : List Pending) :
    ctx.Reaches ⟨.statement id f.env, k, f.heap⟩ ⟨.ended r f'.env, k, f'.heap⟩ := by
  have tracks : ctx.Tracks n _ (ends k) (ctx.statement (ctx.eval n) id f) :=
    statement_tracks (eval_tracks n) id k f
  rwa [e] at tracks

/-- What is tracked with every fuel ends where an answer says, and only there. -/
private theorem reaches_iff_of_tracks {σ : Type} {m : Moment}
    {done : Except Stop Value → σ → Moment} {o : Nat → Option (Except Stop Value × σ)}
    (ht : ∀ n, ctx.Tracks n m done (o n)) (last : ∀ r s, ctx.next (done r s) = none)
    (inj : ∀ {r s r' s'}, done r s = done r' s' → r = r' ∧ s = s') {r : Except Stop Value} {s : σ} :
    ctx.Reaches m (done r s) ↔ ∃ n, o n = some (r, s) := by
  constructor
  · intro hr
    obtain ⟨n, hn⟩ := exists_not_lasts hr (last r s)
    -- Moves that end do not last, so this much fuel is enough for an answer.
    refine ⟨n, ?_⟩
    have tracks := ht n
    rcases ho : o n with _ | ⟨r', s'⟩
    · rw [ho] at tracks
      exact absurd tracks hn
    · rw [ho] at tracks
      obtain ⟨rfl, rfl⟩ := inj (hr.unique_end tracks (last r s) (last r' s'))
      rfl
  · rintro ⟨n, e⟩
    have tracks := ht n
    rw [e] at tracks
    exact tracks

private theorem ends_injective {k : List Pending} {r r' : Except Stop Value} {f f' : Frame}
    (h : ends k r f = ends k r' f') : r = r' ∧ f = f' := by
  obtain ⟨env, heap⟩ := f
  obtain ⟨env', heap'⟩ := f'
  cases h
  exact ⟨rfl, rfl⟩

/-- **The moves of an expression end exactly as the evaluator says.** -/
theorem reaches_outcome_iff {id : NodeId} {env : Environment} {h h' : Heap}
    {r : Except Stop Value} :
    ctx.Reaches ⟨.expression id env, [], h⟩ ⟨.outcome r, [], h'⟩ ↔
      ∃ n, ctx.eval n id env h = some (r, h') := by
  refine reaches_iff_of_tracks (fun n => eval_tracks n id env [] h) (fun _ _ => rfl) ?_
  intro r s r' s' same
  cases same
  exact ⟨rfl, rfl⟩

/-- **The moves of a statement end exactly as the evaluator says.** -/
theorem reaches_ended_iff {id : NodeId} {f f' : Frame} {r : Except Stop Value} :
    ctx.Reaches ⟨.statement id f.env, [], f.heap⟩ (f'.finish r) ↔
      ∃ n, ctx.statement (ctx.eval n) id f = some (r, f') :=
  reaches_iff_of_tracks (fun n => statement_tracks (eval_tracks n) id [] f) (fun _ _ => rfl)
    ends_injective

/-- **The moves of statements end exactly as the evaluator says.** -/
theorem reaches_finish_iff {ids : List NodeId} {f f' : Frame} {r : Except Stop Value} :
    ctx.Reaches (f.start ids) (f'.finish r) ↔
      ∃ n, ctx.statements (ctx.eval n) .void ids f = some (r, f') :=
  reaches_iff_of_tracks (fun n => statements_tracks (eval_tracks n) ids .void [] f)
    (fun _ _ => rfl) ends_injective

/-- **The moves of declarations end exactly as the evaluator says.** -/
theorem reaches_declared_iff {bind : NodeId} {index : Nat} {ds : List Declaration} {f f' : Frame}
    {r : Except Stop Value} :
    ctx.Reaches ⟨.declarations bind index ds f.env, [], f.heap⟩ (f'.finish r) ↔
      ∃ n, Frame.declareAll (ctx.eval n) ds f = some (r, f') :=
  reaches_iff_of_tracks (fun n => declareAll_tracks (eval_tracks n) ds bind index [] f)
    (fun _ _ => rfl) ends_injective

end Context

/-- A program runs as its statements do. -/
theorem Program.run_eq {p : Program} {ids : List NodeId} (body : p.statements? = some ids)
    (t : Interner) (fuel : Nat) :
    p.run t fuel =
      Context.statements ⟨p.arena, t⟩ (Context.eval ⟨p.arena, t⟩ fuel) .void ids Frame.initial := by
  have body : p.arena.statements? p.body = some ids := body
  unfold Program.run Context.sequence
  dsimp only
  rw [body]
  rfl

end LexCell
