import LexCell.Proofs.Machine

/-!
# The moves, rule by rule

`Context.next` computes the next moment. `Context.Step` says the same as a relation, with one rule
for each thing that a move can do and with the cell that it makes. The case analysis over the
definition of `next` is made here, once (`next_step`): whatever holds of every move is then proved
by cases on the rules, and a rule that changes touches only its own case.
-/

namespace LexCell

namespace Context

/-- From one moment to the next, with the cell that is born on the way. -/
inductive Step (ctx : Context) : Moment → Option Birth → Moment → Prop where
  -- An expression.
  | no_node {id env k h} : ctx.arena.node? id = none →
      Step ctx ⟨.expression id env, k, h⟩ none ⟨.outcome (.error .dangling), k, h⟩
  | number {id env k h n} : ctx.arena.node? id = some (.number n) →
      Step ctx ⟨.expression id env, k, h⟩ none ⟨.outcome (.ok (.number n)), k, h⟩
  | boolean {id env k h b} : ctx.arena.node? id = some (.boolean b) →
      Step ctx ⟨.expression id env, k, h⟩ none ⟨.outcome (.ok (.boolean b)), k, h⟩
  | unary {id env k h op x} : ctx.arena.node? id = some (.unary op x) →
      Step ctx ⟨.expression id env, k, h⟩ none ⟨.expression x env, .operand id op :: k, h⟩
  | binary {id env k h op l r} : ctx.arena.node? id = some (.binary op l r) →
      Step ctx ⟨.expression id env, k, h⟩ none ⟨.expression l env, .left id op r env :: k, h⟩
  | logical {id env k h op l r} : ctx.arena.node? id = some (.logical op l r) →
      Step ctx ⟨.expression id env, k, h⟩ none ⟨.expression l env, .guard id op r env :: k, h⟩
  | conditional {id env k h t c a} : ctx.arena.node? id = some (.conditional t c a) →
      Step ctx ⟨.expression id env, k, h⟩ none ⟨.expression t env, .test id c a env :: k, h⟩
  | ident {id env k h n s v} :
      ctx.arena.node? id = some (.ident n) → env.resolve n = some s → h.get? s = some v →
      Step ctx ⟨.expression id env, k, h⟩ none ⟨.outcome (.ok v), k, h⟩
  | ident_unbound {id env k h n} :
      ctx.arena.node? id = some (.ident n) → env.resolve n = none →
      Step ctx ⟨.expression id env, k, h⟩ none ⟨.outcome (.error (ctx.unboundAt n id)), k, h⟩
  | ident_dangling {id env k h n s} :
      ctx.arena.node? id = some (.ident n) → env.resolve n = some s → h.get? s = none →
      Step ctx ⟨.expression id env, k, h⟩ none ⟨.outcome (.error .dangling), k, h⟩
  | bind {id env k h span ds} :
      ctx.arena.node? id = some (.bind span) → ctx.arena.declarations? span = some ds →
      Step ctx ⟨.expression id env, k, h⟩ none ⟨.declarations id 0 ds env, .enclosed :: k, h⟩
  | bind_dangling {id env k h span} :
      ctx.arena.node? id = some (.bind span) → ctx.arena.declarations? span = none →
      Step ctx ⟨.expression id env, k, h⟩ none ⟨.outcome (.error .dangling), k, h⟩
  | function {id env k h n body} : ctx.arena.node? id = some (.function n body) →
      Step ctx ⟨.expression id env, k, h⟩ none ⟨.outcome (.ok (.function ⟨env, n, body⟩)), k, h⟩
  | call {id env k h f a} : ctx.arena.node? id = some (.call f a) →
      Step ctx ⟨.expression id env, k, h⟩ none ⟨.expression f env, .callee id a env :: k, h⟩
  | assign {id env k h n x s} :
      ctx.arena.node? id = some (.assign n x) → env.resolve n = some s →
      Step ctx ⟨.expression id env, k, h⟩ none ⟨.expression x env, .assigned id n s :: k, h⟩
  | assign_unbound {id env k h n x} :
      ctx.arena.node? id = some (.assign n x) → env.resolve n = none →
      Step ctx ⟨.expression id env, k, h⟩ none ⟨.outcome (.error (ctx.unboundAt n id)), k, h⟩
  | block {id env k h span ids} :
      ctx.arena.node? id = some (.block span) → ctx.arena.statements? span = some ids →
      Step ctx ⟨.expression id env, k, h⟩ none ⟨.statements ids .void env, .enclosed :: k, h⟩
  | block_dangling {id env k h span} :
      ctx.arena.node? id = some (.block span) → ctx.arena.statements? span = none →
      Step ctx ⟨.expression id env, k, h⟩ none ⟨.outcome (.error .dangling), k, h⟩
  | malformed {id env k h n} : ctx.arena.node? id = some (.malformed n) →
      Step ctx ⟨.expression id env, k, h⟩ none
        ⟨.outcome (.error (.error ⟨.unknownOperator (ctx.interner.textOrNumber n), some id⟩)), k, h⟩
  -- A statement, statements, declarations.
  | statement_no_node {id env k h} : ctx.arena.node? id = none →
      Step ctx ⟨.statement id env, k, h⟩ none ⟨.ended (.error .dangling) env, k, h⟩
  | statement_bind {id env k h span ds} :
      ctx.arena.node? id = some (.bind span) → ctx.arena.declarations? span = some ds →
      Step ctx ⟨.statement id env, k, h⟩ none ⟨.declarations id 0 ds env, k, h⟩
  | statement_dangling {id env k h span} :
      ctx.arena.node? id = some (.bind span) → ctx.arena.declarations? span = none →
      Step ctx ⟨.statement id env, k, h⟩ none ⟨.ended (.error .dangling) env, k, h⟩
  | statement_expression {id env k h n} :
      ctx.arena.node? id = some n → (∀ span, n ≠ .bind span) →
      Step ctx ⟨.statement id env, k, h⟩ none ⟨.expression id env, .within env :: k, h⟩
  | statements_nil {last env k h} :
      Step ctx ⟨.statements [] last env, k, h⟩ none ⟨.ended (.ok last) env, k, h⟩
  | statements_cons {id ids last env k h} :
      Step ctx ⟨.statements (id :: ids) last env, k, h⟩ none
        ⟨.statement id env, .sequence ids :: k, h⟩
  | declarations_nil {bind index env k h} :
      Step ctx ⟨.declarations bind index [] env, k, h⟩ none ⟨.ended (.ok .void) env, k, h⟩
  | declarations_cons {bind index d ds env k h} :
      Step ctx ⟨.declarations bind index (d :: ds) env, k, h⟩ none
        ⟨.expression d.init env, .declared bind index d ds env :: k, h⟩
  -- A value for what waits for it.
  | operand {v id op k h} :
      Step ctx ⟨.outcome (.ok v), .operand id op :: k, h⟩ none
        ⟨.outcome (Stop.outcomeAt id (op.apply v)), k, h⟩
  | left {v id op r env k h} :
      Step ctx ⟨.outcome (.ok v), .left id op r env :: k, h⟩ none
        ⟨.expression r env, .right id op v :: k, h⟩
  | right {v id op a k h} :
      Step ctx ⟨.outcome (.ok v), .right id op a :: k, h⟩ none
        ⟨.outcome (Stop.outcomeAt id (op.apply a v)), k, h⟩
  | guard_short {id op r env k h} :
      Step ctx ⟨.outcome (.ok (.boolean op.absorbing)), .guard id op r env :: k, h⟩ none
        ⟨.outcome (.ok (.boolean op.absorbing)), k, h⟩
  | guard_long {b id op r env k h} : b ≠ op.absorbing →
      Step ctx ⟨.outcome (.ok (.boolean b)), .guard id op r env :: k, h⟩ none
        ⟨.expression r env, .truth id op :: k, h⟩
  | guard_kind {v id op r env k h} : v.kind ≠ .boolean →
      Step ctx ⟨.outcome (.ok v), .guard id op r env :: k, h⟩ none
        ⟨.outcome (.error (.error ⟨.typeMismatch op.context .boolean v.kind, some id⟩)), k, h⟩
  | truth {b id op k h} :
      Step ctx ⟨.outcome (.ok (.boolean b)), .truth id op :: k, h⟩ none
        ⟨.outcome (.ok (.boolean b)), k, h⟩
  | truth_kind {v id op k h} : v.kind ≠ .boolean →
      Step ctx ⟨.outcome (.ok v), .truth id op :: k, h⟩ none
        ⟨.outcome (.error (.error ⟨.typeMismatch op.context .boolean v.kind, some id⟩)), k, h⟩
  | test {b id c a env k h} :
      Step ctx ⟨.outcome (.ok (.boolean b)), .test id c a env :: k, h⟩ none
        ⟨.expression (if b then c else a) env, k, h⟩
  | test_kind {v id c a env k h} : v.kind ≠ .boolean →
      Step ctx ⟨.outcome (.ok v), .test id c a env :: k, h⟩ none
        ⟨.outcome (.error (.error ⟨.typeMismatch "conditional" .boolean v.kind, some id⟩)), k, h⟩
  | callee {c id a env k h} :
      Step ctx ⟨.outcome (.ok (.function c)), .callee id a env :: k, h⟩ none
        ⟨.expression a env, .argument id c :: k, h⟩
  | callee_kind {v id a env k h} : v.kind ≠ .function →
      Step ctx ⟨.outcome (.ok v), .callee id a env :: k, h⟩ none
        ⟨.outcome (.error (.error ⟨.notCallable v.kind, some id⟩)), k, h⟩
  | argument {v id c k h} :
      Step ctx ⟨.outcome (.ok v), .argument id c :: k, h⟩ (some (.argument c))
        ⟨.expression c.body (c.env.bind c.param ⟨h.size⟩), k, (h.alloc v).2⟩
  | assigned {v id n s k h h'} : h.set? s v = some h' →
      Step ctx ⟨.outcome (.ok v), .assigned id n s :: k, h⟩ none ⟨.outcome (.ok .void), k, h'⟩
  | assigned_dangling {v id n s k h} : h.set? s v = none →
      Step ctx ⟨.outcome (.ok v), .assigned id n s :: k, h⟩ none
        ⟨.outcome (.error .dangling), k, h⟩
  | declared {v bind index d ds env k h} :
      Step ctx ⟨.outcome (.ok v), .declared bind index d ds env :: k, h⟩
        (some (.declaration bind index d.name))
        ⟨.declarations bind (index + 1) ds (env.bind d.name ⟨h.size⟩), k, (h.alloc v).2⟩
  | within {v env k h} :
      Step ctx ⟨.outcome (.ok v), .within env :: k, h⟩ none ⟨.ended (.ok v) env, k, h⟩
  -- A stop on its way.
  | passes {e p k h} : p.Passes →
      Step ctx ⟨.outcome (.error e), p :: k, h⟩ none ⟨.outcome (.error e), k, h⟩
  | declared_error {e bind index d ds env k h} :
      Step ctx ⟨.outcome (.error e), .declared bind index d ds env :: k, h⟩ none
        ⟨.ended (.error e) env, k, h⟩
  | within_error {e env k h} :
      Step ctx ⟨.outcome (.error e), .within env :: k, h⟩ none ⟨.ended (.error e) env, k, h⟩
  -- The end of statements.
  | sequence {v env ids k h} :
      Step ctx ⟨.ended (.ok v) env, .sequence ids :: k, h⟩ none ⟨.statements ids v env, k, h⟩
  | sequence_error {e env ids k h} :
      Step ctx ⟨.ended (.error e) env, .sequence ids :: k, h⟩ none ⟨.ended (.error e) env, k, h⟩
  | enclosed {r env k h} :
      Step ctx ⟨.ended r env, .enclosed :: k, h⟩ none ⟨.outcome r, k, h⟩

variable {ctx : Context} {id : NodeId} {env : Environment} {k : List Pending} {h : Heap}

/-! ### Steps and moves

The relation and the function say the same. Proofs about moves go by cases on the relation, where
every case comes with what is known in it. -/

private theorem enter_step : ctx.Step ⟨.expression id env, k, h⟩ none (ctx.enter id env k h) := by
  unfold enter
  rcases hn : ctx.arena.node? id with _ | n
  · exact .no_node hn
  cases n with
  | number n => exact .number hn
  | boolean b => exact .boolean hn
  | unary op x => exact .unary hn
  | binary op l r => exact .binary hn
  | logical op l r => exact .logical hn
  | conditional t c a => exact .conditional hn
  | ident n =>
      dsimp only
      rcases hs : env.resolve n with _ | s
      · exact .ident_unbound hn hs
      · dsimp only
        rcases hv : h.get? s with _ | v
        · exact .ident_dangling hn hs hv
        · exact .ident hn hs hv
  | bind span =>
      dsimp only
      rcases hd : ctx.arena.declarations? span with _ | ds
      · exact .bind_dangling hn hd
      · exact .bind hn hd
  | function n body => exact .function hn
  | call f a => exact .call hn
  | assign n x =>
      dsimp only
      rcases hs : env.resolve n with _ | s
      · exact .assign_unbound hn hs
      · exact .assign hn hs
  | block span =>
      dsimp only
      rcases hd : ctx.arena.statements? span with _ | ids
      · exact .block_dangling hn hd
      · exact .block hn hd
  | malformed n => exact .malformed hn

private theorem perform_step :
    ctx.Step ⟨.statement id env, k, h⟩ none (ctx.perform id env k h) := by
  unfold perform
  rcases hn : ctx.arena.node? id with _ | n
  · exact .statement_no_node hn
  cases n with
  | bind span =>
      dsimp only
      rcases hd : ctx.arena.declarations? span with _ | ds
      · exact .statement_dangling hn hd
      · exact .statement_bind hn hd
  | _ => exact .statement_expression hn nofun

private theorem resume_step {v : Value} {p : Pending} {m : Moment} (hm : resume v k h p = some m) :
    ctx.Step ⟨.outcome (.ok v), p :: k, h⟩ (Moment.birth? ⟨.outcome (.ok v), p :: k, h⟩) m := by
  cases p with
  | operand => cases hm; exact .operand
  | left => cases hm; exact .left
  | right => cases hm; exact .right
  -- Whether the value decides is asked for only if it is a truth value.
  | guard id op r env =>
      cases v with
      | boolean b =>
          dsimp only [resume] at hm
          split at hm
          · next hb =>
            cases hm
            subst hb
            exact .guard_short
          · next hb =>
            cases hm
            exact .guard_long hb
      | _ => cases hm; exact .guard_kind nofun
  | truth id op =>
      cases v with
      | boolean b => cases hm; exact .truth
      | _ => cases hm; exact .truth_kind nofun
  | test id c a env =>
      cases v with
      | boolean b => cases b <;> cases hm <;> exact .test
      | _ => cases hm; exact .test_kind nofun
  | callee id a env =>
      cases v with
      | function c => cases hm; exact .callee
      | _ => cases hm; exact .callee_kind nofun
  | argument => cases hm; exact .argument
  | assigned id n s =>
      dsimp only [resume] at hm
      split at hm
      · next hs =>
        cases hm
        exact .assigned_dangling hs
      · next hs =>
        cases hm
        exact .assigned hs
  | declared => cases hm; exact .declared
  | within => cases hm; exact .within
  | sequence | enclosed => cases hm

/-- **A move is a step.** -/
theorem next_step {m m' : Moment} (hm : ctx.next m = some m') : ctx.Step m m.birth? m' := by
  obtain ⟨focus, k, h⟩ := m
  -- The focus selects the function, and its branch selects the rule.
  cases focus with
  | expression id env => cases hm; exact enter_step
  | statement id env => cases hm; exact perform_step
  | statements ids last env =>
      cases ids with
      | nil => cases hm; exact .statements_nil
      | cons id ids => cases hm; exact .statements_cons
  | declarations bind index ds env =>
      cases ds with
      | nil => cases hm; exact .declarations_nil
      | cons d ds => cases hm; exact .declarations_cons
  | outcome r =>
      cases k with
      | nil => cases r <;> cases hm
      | cons p k =>
          cases r with
          | ok v => exact resume_step hm
          | error e =>
              cases p with
              | declared => cases hm; exact .declared_error
              | within => cases hm; exact .within_error
              | sequence | enclosed => cases hm
              | _ => cases hm; exact .passes trivial
  | ended r env =>
      cases k with
      | nil => cases hm
      | cons p k =>
          cases p with
          | sequence ids =>
              cases r with
              | ok v => cases hm; exact .sequence
              | error e => cases hm; exact .sequence_error
          | enclosed => cases hm; exact .enclosed
          | _ => cases hm

/-- **A step is a move.** -/
theorem Step.next_eq {m m' : Moment} {b : Option Birth} (hs : ctx.Step m b m') :
    ctx.next m = some m' := by
  -- Each rule computes to its move, once what it looked up is known.
  cases hs with
  | no_node hn | number hn | boolean hn | unary hn | binary hn | logical hn | conditional hn
  | function hn | call hn | malformed hn => simp only [next, enter, hn]
  | ident_unbound hn hx | bind hn hx | bind_dangling hn hx | assign hn hx | assign_unbound hn hx
  | block hn hx | block_dangling hn hx => simp only [next, enter, hn, hx]
  | ident hn hs hv | ident_dangling hn hs hv => simp only [next, enter, hn, hs, hv]
  | statement_no_node hn => simp only [next, perform, hn]
  | statement_bind hn hd | statement_dangling hn hd => simp only [next, perform, hn, hd]
  | @statement_expression _ _ _ _ n hn hb =>
      cases n with
      | bind span => exact absurd rfl (hb span)
      | _ => simp only [next, perform, hn]
  | guard_short => exact if_pos rfl
  | guard_long hb => exact if_neg hb
  | @guard_kind v _ _ _ _ _ _ hv | @truth_kind v _ _ _ _ hv | @test_kind v _ _ _ _ _ _ hv =>
      cases v with
      | boolean b => exact absurd rfl hv
      | _ => rfl
  | @callee_kind v _ _ _ _ _ hv =>
      cases v with
      | function c => exact absurd rfl hv
      | _ => rfl
  | @test b => cases b <;> rfl
  | assigned hs | assigned_dangling hs => simp only [next, resume, hs]
  | passes hp => exact next_outcome_error _ hp _ _
  | _ => rfl

end Context

end LexCell
