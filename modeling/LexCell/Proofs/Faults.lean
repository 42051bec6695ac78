import LexCell.Proofs.BigStep.Answers
import LexCell.Proofs.Machine.Unwinding
import LexCell.Proofs.Safety

/-!
# Errors name the node at fault

`Context.Faults` says, for each kind of node, what can be wrong with it itself, when all that is
below it went well, and which error that is. Every error of a run is of this kind: the node that it
names was evaluated, the fault was found there, and all that waited let the error pass as it was
(`Context.FaultIn`). The proof follows the evaluator, one level at a time: an error of a level comes
from an operand, where it has its fault already, or it is the fault of the node.
-/

namespace LexCell

namespace Context

variable (ctx : Context)

/-- The node evaluates to the value, and leaves the heap so. -/
def Yields (id : NodeId) (env : Environment) (h : Heap) (v : Value) (h' : Heap) : Prop :=
  ∃ fuel, ctx.eval fuel id env h = some (.ok v, h')

/-- What is wrong with the node itself where it is evaluated: the cause, and the heap at the time
when it is found. -/
inductive Faults (id : NodeId) (env : Environment) (h : Heap) : EvalError.Cause → Heap → Prop where
  | ident {n : Name} :
      ctx.arena.node? id = some (.ident n) → env.resolve n = none →
      Faults id env h (.unboundIdentifier (ctx.interner.textOrNumber n)) h
  /-- The new value is not looked at. -/
  | assign {n : Name} {x : NodeId} :
      ctx.arena.node? id = some (.assign n x) → env.resolve n = none →
      Faults id env h (.unboundIdentifier (ctx.interner.textOrNumber n)) h
  | unary {op : UnaryOp} {x : NodeId} {v : Value} {h' : Heap} :
      ctx.arena.node? id = some (.unary op x) → ctx.Yields x env h v h' →
      v.kind ≠ op.operandKind →
      Faults id env h (.typeMismatch op.context op.operandKind v.kind) h'
  /-- Both operands are evaluated before the first is looked at. -/
  | binary_left {op : BinaryOp} {x y : NodeId} {a b : Value} {h₁ h' : Heap} :
      ctx.arena.node? id = some (.binary op x y) → ctx.Yields x env h a h₁ →
      ctx.Yields y env h₁ b h' → a.kind ≠ .number →
      Faults id env h (.typeMismatch op.context .number a.kind) h'
  | binary_right {op : BinaryOp} {x y : NodeId} {a b : Value} {h₁ h' : Heap} :
      ctx.arena.node? id = some (.binary op x y) → ctx.Yields x env h a h₁ →
      ctx.Yields y env h₁ b h' → a.kind = .number → b.kind ≠ .number →
      Faults id env h (.typeMismatch op.context .number b.kind) h'
  | division {x y : NodeId} {n : Int64} {h₁ h' : Heap} :
      ctx.arena.node? id = some (.binary .div x y) → ctx.Yields x env h (.number n) h₁ →
      ctx.Yields y env h₁ (.number 0) h' → Faults id env h .divisionByZero h'
  | logical_left {op : LogicalOp} {x y : NodeId} {v : Value} {h' : Heap} :
      ctx.arena.node? id = some (.logical op x y) → ctx.Yields x env h v h' →
      v.kind ≠ .boolean → Faults id env h (.typeMismatch op.context .boolean v.kind) h'
  | logical_right {op : LogicalOp} {x y : NodeId} {b : Bool} {v : Value} {h₁ h' : Heap} :
      ctx.arena.node? id = some (.logical op x y) → ctx.Yields x env h (.boolean b) h₁ →
      b ≠ op.absorbing → ctx.Yields y env h₁ v h' → v.kind ≠ .boolean →
      Faults id env h (.typeMismatch op.context .boolean v.kind) h'
  | conditional {x y z : NodeId} {v : Value} {h' : Heap} :
      ctx.arena.node? id = some (.conditional x y z) → ctx.Yields x env h v h' →
      v.kind ≠ .boolean → Faults id env h (.typeMismatch "conditional" .boolean v.kind) h'
  /-- The argument is not looked at. -/
  | call {x y : NodeId} {v : Value} {h' : Heap} :
      ctx.arena.node? id = some (.call x y) → ctx.Yields x env h v h' → v.kind ≠ .function →
      Faults id env h (.notCallable v.kind) h'
  | malformed {n : Name} :
      ctx.arena.node? id = some (.malformed n) →
      Faults id env h (.unknownOperator (ctx.interner.textOrNumber n)) h

/-! ### Faults on the way

A fault that is found later on the way is found on the way. So it is enough to find it from where
the rule continues. -/

/-- On the way from the moment the node that the error names was evaluated, with this fault, and
what came out there was the error. -/
def FaultIn (m : Moment) (e : EvalError) (h' : Heap) : Prop :=
  ∃ id env k h, e.node = some id ∧ ctx.Reaches m ⟨.expression id env, k, h⟩ ∧
    ctx.Faults id env h e.cause h' ∧
    ctx.Reaches ⟨.expression id env, k, h⟩ ⟨.outcome (.error (.error e)), k, h'⟩

end Context

/-! ### Errors of operators

What an operator refuses, and with which cause, can be read off its definition once; the rules below
only cite it. -/

/-- A unary operator refuses what is of another kind. -/
theorem UnaryOp.apply_eq_error {op : UnaryOp} {v : Value} {c : EvalError.Cause}
    (h : op.apply v = .error c) :
    v.kind ≠ op.operandKind ∧ c = .typeMismatch op.context op.operandKind v.kind := by
  cases op <;> cases v <;> cases h <;> exact ⟨nofun, rfl⟩

/-- Numbers are refused only as divisors. -/
theorem BinaryOp.applyNumbers_eq_error {op : BinaryOp} {a b : Int64} {c : EvalError.Cause}
    (h : op.applyNumbers a b = .error c) : op = .div ∧ b = 0 ∧ c = .divisionByZero := by
  cases op with
  | div =>
      unfold applyNumbers at h
      dsimp only at h
      split at h
      · next zero =>
        cases h
        exact ⟨rfl, zero, rfl⟩
      · cases h
  | _ => cases h

/-- The first operand of the wrong kind is at fault, else the divisor. -/
theorem BinaryOp.apply_eq_error {op : BinaryOp} {a b : Value} {c : EvalError.Cause}
    (h : op.apply a b = .error c) :
    (a.kind ≠ .number ∧ c = .typeMismatch op.context .number a.kind) ∨
      (a.kind = .number ∧ b.kind ≠ .number ∧ c = .typeMismatch op.context .number b.kind) ∨
      ∃ n, op = .div ∧ a = .number n ∧ b = .number 0 ∧ c = .divisionByZero := by
  -- The first operand is looked at first.
  cases a with
  | number n =>
      cases b with
      | number m =>
          obtain ⟨rfl, rfl, rfl⟩ := applyNumbers_eq_error h
          exact .inr (.inr ⟨n, rfl, rfl, rfl, rfl⟩)
      | _ =>
          cases h
          exact .inr (.inl ⟨rfl, nofun, rfl⟩)
  | _ =>
      cases h
      exact .inl ⟨nofun, rfl⟩

theorem Stop.outcomeAt_eq_error {id : NodeId} {x : Except EvalError.Cause Value} {e : EvalError}
    (h : Stop.outcomeAt id x = .error (.error e)) : ∃ c, x = .error c ∧ e = ⟨c, some id⟩ := by
  cases x with
  | ok v => cases h
  | error c =>
      cases h
      exact ⟨c, rfl, rfl⟩

theorem Value.exists_boolean_of_kind {v : Value} (h : v.kind = .boolean) :
    ∃ b, v = .boolean b := by
  cases v with
  | boolean b => exact ⟨b, rfl⟩
  | _ => cases h

theorem Value.exists_function_of_kind {v : Value} (h : v.kind = .function) :
    ∃ c, v = .function c := by
  cases v with
  | function c => exact ⟨c, rfl⟩
  | _ => cases h

namespace Context

variable {ctx : Context}

namespace FaultIn

variable {m m' : Moment} {e : EvalError} {h' : Heap}

/-- A fault on the rest of the way is one on the whole way. -/
theorem of_reaches (h : ctx.FaultIn m' e h') (hr : ctx.Reaches m m') : ctx.FaultIn m e h' := by
  obtain ⟨id, env, k, h₀, node, reaches, rest⟩ := h
  exact ⟨id, env, k, h₀, node, hr.trans reaches, rest⟩

/-- The error has its node, so whoever passes it on has nothing to add. -/
theorem locate_eq (h : ctx.FaultIn m e h') (outer : NodeId) : e.locate outer = e := by
  obtain ⟨id, -, -, -, node, -⟩ := h
  obtain ⟨c, _⟩ := e
  cases node
  exact EvalError.locate_of_some c id outer

/-- The same for one move. -/
theorem of_step {b : Option Birth} (h : ctx.FaultIn m' e h') (hs : ctx.Step m b m') :
    ctx.FaultIn m e h' :=
  h.of_reaches (.single hs.next_eq)

/-- An operand is evaluated, its value is given to what waits for it, and there is the error. -/
theorem of_operand {n : Nat} {b : Option Birth} {id : NodeId} {env : Environment}
    {k : List Pending} {h₀ h₁ : Heap} {v : Value}
    (h : ctx.FaultIn ⟨.outcome (.ok v), k, h₁⟩ e h')
    (hs : ctx.Step m b ⟨.expression id env, k, h₀⟩)
    (hv : ctx.eval n id env h₀ = some (.ok v, h₁)) : ctx.FaultIn m e h' :=
  (h.of_reaches (reaches_of_eval hv k)).of_step hs

end FaultIn

/-! ### The rules

In this section the errors of the nodes below, evaluated with fuel `n`, have their faults. -/

section Rules

variable {n : Nat}
  (below : ∀ {id env h e h'}, ctx.eval n id env h = some (.error (.error e), h') →
    ∀ k, ctx.FaultIn ⟨.expression id env, k, h⟩ e h')

include below

/-- An error of a declaration is an error of its initial value. -/
theorem declareAll_faultIn {ds : List Declaration} {bind : NodeId} {index : Nat}
    {k : List Pending} {f f' : Frame} {err : EvalError}
    (e : Frame.declareAll (ctx.eval n) ds f = some (.error (.error err), f')) :
    ctx.FaultIn ⟨.declarations bind index ds f.env, k, f.heap⟩ err f'.heap := by
  -- On the declarations; those before the one at fault have values.
  induction ds generalizing index f with
  | nil => cases e
  | cons d ds ih =>
      rcases Action.exists_of_bind e with ⟨v, f₁, hx, e⟩ | ⟨s, hx, hs⟩
      · obtain ⟨env₁, h₁⟩ := f₁
        obtain ⟨hx, rfl⟩ := Frame.of_within hx
        have rest : ctx.FaultIn ⟨.outcome (.ok v), .declared bind index d ds f.env :: k, h₁⟩ err
            f'.heap := (ih e).of_step .declared
        exact rest.of_operand .declarations_cons hx
      · cases hs
        obtain ⟨hx, -⟩ := Frame.of_within hx
        exact (below hx _).of_step .declarations_cons

theorem statement_faultIn {id : NodeId} {k : List Pending} {f f' : Frame} {err : EvalError}
    (e : ctx.statement (ctx.eval n) id f = some (.error (.error err), f')) :
    ctx.FaultIn ⟨.statement id f.env, k, f.heap⟩ err f'.heap := by
  unfold statement at e
  rcases hn : ctx.arena.node? id with _ | node
  · rw [hn] at e
    cases e
  rw [hn, Action.deref_some, Action.pure_bind] at e
  -- A `let` makes no errors of its own, and any other node is evaluated as an expression.
  cases node with
  | bind span =>
      dsimp only at e
      rcases hd : ctx.arena.declarations? span with _ | ds
      · rw [hd] at e
        cases e
      · rw [hd] at e
        exact (declareAll_faultIn below e).of_step (.statement_bind hn hd)
  | _ =>
      obtain ⟨hx, -⟩ := Frame.of_within e
      exact (below hx _).of_step (.statement_expression hn nofun)

/-- An error of a list is an error of the first statement that has one. -/
theorem statements_faultIn {ids : List NodeId} {last : Value} {k : List Pending} {f f' : Frame}
    {err : EvalError}
    (e : ctx.statements (ctx.eval n) last ids f = some (.error (.error err), f')) :
    ctx.FaultIn ⟨.statements ids last f.env, k, f.heap⟩ err f'.heap := by
  induction ids generalizing last f with
  | nil => cases e
  | cons id ids ih =>
      unfold statements at e
      rcases Action.exists_of_bind e with ⟨v, f₁, hx, e⟩ | ⟨s, hx, hs⟩
      · have first := reaches_of_statement hx (.sequence ids :: k)
        exact (((ih e).of_step .sequence).of_reaches first).of_step .statements_cons
      · cases hs
        exact (statement_faultIn below hx).of_step .statements_cons

section Nodes

variable {id x y z : NodeId} {env : Environment} {h h' : Heap} {err : EvalError}

omit below in
/-- The fault of the node itself comes out at once. -/
private theorem Faults.faultIn {c : EvalError.Cause} (faults : ctx.Faults id env h c h')
    (e : ctx.step (ctx.eval n) id env h = some (.error (.error ⟨c, some id⟩), h'))
    (k : List Pending) : ctx.FaultIn ⟨.expression id env, k, h⟩ ⟨c, some id⟩ h' := by
  have answer : ctx.eval (n + 1) id env h = some (.error (.error ⟨c, some id⟩), h') := e
  exact ⟨id, env, k, h, rfl, .refl, faults, reaches_of_eval answer k⟩

private theorem unary_faultIn {op : UnaryOp} (hn : ctx.arena.node? id = some (.unary op x))
    (answer : ctx.step (ctx.eval n) id env h = some (.error (.error err), h'))
    (k : List Pending) : ctx.FaultIn ⟨.expression id env, k, h⟩ err h' := by
  have e := answer
  unfold step at e
  rw [hn, Action.deref_some, Action.pure_bind] at e
  rcases Action.exists_of_bind e with ⟨v, h₁, hx, e⟩ | ⟨s, hx, hs⟩
  · rw [Action.ofExcept_apply] at e
    obtain ⟨c, hc, rfl⟩ := Stop.outcomeAt_eq_error (congrArg Prod.fst (Option.some.inj e))
    obtain rfl : h₁ = h' := congrArg Prod.snd (Option.some.inj e)
    obtain ⟨kind, rfl⟩ := UnaryOp.apply_eq_error hc
    exact Faults.faultIn (.unary hn ⟨n, hx⟩ kind) answer k
  · cases hs
    exact (below hx _).of_step (.unary hn)

private theorem binary_faultIn {op : BinaryOp} (hn : ctx.arena.node? id = some (.binary op x y))
    (answer : ctx.step (ctx.eval n) id env h = some (.error (.error err), h'))
    (k : List Pending) : ctx.FaultIn ⟨.expression id env, k, h⟩ err h' := by
  have e := answer
  unfold step at e
  rw [hn, Action.deref_some, Action.pure_bind] at e
  rcases Action.exists_of_bind e with ⟨a, h₁, hx, e⟩ | ⟨s, hx, hs⟩
  · -- both operands have values before the operator is applied
    rcases Action.exists_of_bind e with ⟨b, h₂, hy, e⟩ | ⟨s, hy, hs⟩
    · rw [Action.ofExcept_apply] at e
      obtain ⟨c, hc, rfl⟩ := Stop.outcomeAt_eq_error (congrArg Prod.fst (Option.some.inj e))
      obtain rfl : h₂ = h' := congrArg Prod.snd (Option.some.inj e)
      -- Three faults are possible, and each is a rule of `Faults`.
      rcases BinaryOp.apply_eq_error hc with
        ⟨kind, rfl⟩ | ⟨kind, kind', rfl⟩ | ⟨m, rfl, rfl, rfl, rfl⟩
      · exact Faults.faultIn (.binary_left hn ⟨n, hx⟩ ⟨n, hy⟩ kind) answer k
      · exact Faults.faultIn (.binary_right hn ⟨n, hx⟩ ⟨n, hy⟩ kind kind') answer k
      · exact Faults.faultIn (.division hn ⟨n, hx⟩ ⟨n, hy⟩) answer k
    · cases hs
      exact ((below hy _).of_step .left).of_operand (.binary hn) hx
  · cases hs
    exact (below hx _).of_step (.binary hn)

private theorem logical_faultIn {op : LogicalOp}
    (hn : ctx.arena.node? id = some (.logical op x y))
    (answer : ctx.step (ctx.eval n) id env h = some (.error (.error err), h'))
    (k : List Pending) : ctx.FaultIn ⟨.expression id env, k, h⟩ err h' := by
  have e := answer
  unfold step at e
  rw [hn, Action.deref_some, Action.pure_bind] at e
  rcases Action.exists_of_bind e with ⟨v, h₁, hx, e⟩ | ⟨s, hx, hs⟩
  · by_cases kind : v.kind = .boolean
    · obtain ⟨b, rfl⟩ := Value.exists_boolean_of_kind kind
      rw [Value.expectBoolean_boolean, Action.pure_bind] at e
      -- A left operand that decides is a value, so it is no error.
      by_cases hb : b = op.absorbing
      · rw [if_pos hb] at e
        cases e
      · rw [if_neg hb] at e
        rcases Action.exists_of_bind e with ⟨w, h₂, hy, e⟩ | ⟨s, hy, hs⟩
        · by_cases kind' : w.kind = .boolean
          · obtain ⟨b', rfl⟩ := Value.exists_boolean_of_kind kind'
            cases e
          · rw [Value.expectBoolean_of_kind kind'] at e
            cases e
            exact Faults.faultIn (.logical_right hn ⟨n, hx⟩ hb ⟨n, hy⟩ kind') answer k
        · cases hs
          exact ((below hy _).of_step (.guard_long hb)).of_operand (.logical hn) hx
    · rw [Value.expectBoolean_of_kind kind] at e
      cases e
      exact Faults.faultIn (.logical_left hn ⟨n, hx⟩ kind) answer k
  · cases hs
    exact (below hx _).of_step (.logical hn)

private theorem conditional_faultIn (hn : ctx.arena.node? id = some (.conditional x y z))
    (answer : ctx.step (ctx.eval n) id env h = some (.error (.error err), h'))
    (k : List Pending) : ctx.FaultIn ⟨.expression id env, k, h⟩ err h' := by
  have e := answer
  unfold step at e
  rw [hn, Action.deref_some, Action.pure_bind] at e
  rcases Action.exists_of_bind e with ⟨v, h₁, hx, e⟩ | ⟨s, hx, hs⟩
  · by_cases kind : v.kind = .boolean
    · obtain ⟨b, rfl⟩ := Value.exists_boolean_of_kind kind
      rw [Value.expectBoolean_boolean, Action.pure_bind] at e
      -- The node of the conditional is not at fault any more: the error is found in the branch.
      have branch : ctx.FaultIn ⟨.expression (if b then y else z) env, k, h₁⟩ err h' := by
        cases b with
        | true => exact below e k
        | false => exact below e k
      exact (branch.of_step .test).of_operand (.conditional hn) hx
    · rw [Value.expectBoolean_of_kind kind] at e
      cases e
      exact Faults.faultIn (.conditional hn ⟨n, hx⟩ kind) answer k
  · cases hs
    exact (below hx _).of_step (.conditional hn)

private theorem call_faultIn (hn : ctx.arena.node? id = some (.call x y))
    (answer : ctx.step (ctx.eval n) id env h = some (.error (.error err), h'))
    (k : List Pending) : ctx.FaultIn ⟨.expression id env, k, h⟩ err h' := by
  have e := answer
  unfold step at e
  rw [hn, Action.deref_some, Action.pure_bind] at e
  rcases Action.exists_of_bind e with ⟨v, h₁, hx, e⟩ | ⟨s, hx, hs⟩
  · by_cases kind : v.kind = .function
    · obtain ⟨c, rfl⟩ := Value.exists_function_of_kind kind
      rcases Action.exists_of_bind e with ⟨w, h₂, hy, e⟩ | ⟨s, hy, hs⟩
      · -- the error of the body is found from where the function was entered
        have body : ctx.FaultIn ⟨.outcome (.ok w), .argument id c :: k, h₂⟩ err h' :=
          (below e k).of_step .argument
        exact (body.of_operand .callee hy).of_operand (.call hn) hx
      · cases hs
        exact ((below hy _).of_step .callee).of_operand (.call hn) hx
    · have stops : (Except.error (.error ⟨.notCallable v.kind, some id⟩), h₁) =
          ((.error (.error err), h') : Except Stop Value × Heap) := by
        cases v with
        | function c => exact absurd rfl kind
        | _ => exact Option.some.inj e
      cases stops
      exact Faults.faultIn (.call hn ⟨n, hx⟩ kind) answer k
  · cases hs
    exact (below hx _).of_step (.call hn)

private theorem assign_faultIn {name : Name} (hn : ctx.arena.node? id = some (.assign name x))
    (answer : ctx.step (ctx.eval n) id env h = some (.error (.error err), h'))
    (k : List Pending) : ctx.FaultIn ⟨.expression id env, k, h⟩ err h' := by
  have e := answer
  unfold step at e
  rw [hn, Action.deref_some, Action.pure_bind] at e
  dsimp only at e
  rcases hs : env.resolve name with _ | s
  · rw [hs] at e
    cases e
    exact Faults.faultIn (.assign hn hs) answer k
  · rw [hs] at e
    rcases Action.exists_of_bind e with ⟨v, h₁, hx, e⟩ | ⟨s', hx, hs'⟩
    · rw [Action.bind_apply, Heap.overwrite] at e
      -- A write may fail, but not with an error of the program.
      rcases hh : h₁.set? s v with _ | h₂
      · rw [hh] at e
        cases e
      · rw [hh] at e
        cases e
    · cases hs'
      exact (below hx _).of_step (.assign hn hs)

end Nodes

/-- **An error of one level has its fault**, if the errors of the level below have. -/
theorem step_faultIn {id : NodeId} {env : Environment} {h h' : Heap} {err : EvalError}
    (answer : ctx.step (ctx.eval n) id env h = some (.error (.error err), h'))
    (k : List Pending) : ctx.FaultIn ⟨.expression id env, k, h⟩ err h' := by
  have e := answer
  unfold step at e
  rcases hn : ctx.arena.node? id with _ | node
  · rw [hn] at e
    cases e
  rw [hn, Action.deref_some, Action.pure_bind] at e
  cases node with
  | number | boolean | function => cases e
  | unary op x => exact unary_faultIn below hn answer k
  | binary op x y => exact binary_faultIn below hn answer k
  | logical op x y => exact logical_faultIn below hn answer k
  | conditional x y z => exact conditional_faultIn below hn answer k
  | call x y => exact call_faultIn below hn answer k
  | assign name x => exact assign_faultIn below hn answer k
  | ident name =>
      dsimp only at e
      rcases hs : env.resolve name with _ | s
      · rw [hs] at e
        cases e
        exact Faults.faultIn (.ident hn hs) answer k
      · rw [hs] at e
        dsimp only [Heap.fetch] at e
        rcases hv : h.get? s with _ | v
        · rw [hv] at e
          cases e
        · rw [hv] at e
          cases e
  | bind span =>
      dsimp only at e
      rcases hd : ctx.arena.declarations? span with _ | ds
      · rw [hd] at e
        cases e
      · rw [hd] at e
        obtain ⟨env', e⟩ := Frame.of_enclosed e
        exact (declareAll_faultIn below e).of_step (.bind hn hd)
  | block span =>
      dsimp only [sequence] at e
      rcases hd : ctx.arena.statements? span with _ | ids
      · rw [hd] at e
        cases e
      · rw [hd] at e
        obtain ⟨env', e⟩ := Frame.of_enclosed e
        exact (statements_faultIn below e).of_step (.block hn hd)
  | malformed token =>
      cases e
      exact Faults.faultIn (.malformed hn) answer k

end Rules

/-- **An error of an expression has its fault in the run.** -/
theorem eval_faultIn {n : Nat} {id : NodeId} {env : Environment} {h h' : Heap} {err : EvalError}
    (e : ctx.eval n id env h = some (.error (.error err), h')) (k : List Pending) :
    ctx.FaultIn ⟨.expression id env, k, h⟩ err h' := by
  induction n generalizing id env h h' err k with
  -- Without fuel there is no outcome, so no error.
  | zero => cases e
  | succ n ih => exact step_faultIn (fun e k => ih e k) e k

/-! ### What becomes of an error

Every move that starts with a stop ends with the same stop: the pending work is dropped one entry at
a time and nothing of it is done. -/

/-- A stop is handed on as it is, and nothing is written meanwhile. -/
theorem Step.stop? {m m' : Moment} {b : Option Birth} (hs : ctx.Step m b m') {s : Stop}
    (stopped : m.focus.stop? = some s) : m'.focus.stop? = some s ∧ m'.heap = m.heap := by
  cases hs with
  | passes | declared_error | within_error | sequence_error => exact ⟨stopped, rfl⟩
  | @enclosed r =>
      cases r with
      | ok v => cases stopped
      | error e => exact ⟨stopped, rfl⟩
  | _ => cases stopped

/-- The same for any number of moves. -/
theorem Reaches.stop? {m m' : Moment} (hr : ctx.Reaches m m') {s : Stop}
    (stopped : m.focus.stop? = some s) : m'.focus.stop? = some s ∧ m'.heap = m.heap := by
  induction hr with
  | refl => exact ⟨stopped, rfl⟩
  | tail _ hm ih =>
      obtain ⟨stopped', heap'⟩ := (next_step hm).stop? ih.1
      exact ⟨stopped', heap'.trans ih.2⟩

end Context

/-! ### Reports -/

/-- A run that ends in an error is reported with the error and the written form of its node. -/
theorem Report.ofSource_of_error {words : String → String} {source : String} {p : Program}
    {t : Interner} (read : Program.ofText (words source) source Interner.initial = (.ok p, t))
    {fuel : Nat} {e : EvalError} {f : Frame} (run : p.run t fuel = some (.error (.error e), f))
    (options : Options) :
    ∃ ids listing id text, p.statements? = some ids ∧
      Context.FaultIn ⟨p.arena, t⟩ (Frame.initial.start ids) e f.heap ∧
      Report.listing? options p t = some listing ∧ e.node = some id ∧
      p.arena.render? t id = some text ∧
      Report.ofSource words source options fuel =
        some ⟨.runtimeError, listing ++ Report.errorLine e, "  in " ++ text ++ "\n"⟩ := by
  -- A program that was read is well formed, so all that the report needs of it exists.
  obtain ⟨ids, wf⟩ := Program.wellFormed_of_ofText read
  have safe := wf.safe
  obtain ⟨listing, hlisting⟩ := safe.exists_listing? options
  obtain ⟨note, hnote⟩ := safe.exists_siteNote? run
  have statements := run
  rw [Program.run_eq wf.body] at statements
  have fault := Context.statements_faultIn (fun e k => Context.eval_faultIn e k) statements
    (k := [])
  have named := fault
  obtain ⟨id, -, -, -, node, -⟩ := named
  have site := hnote
  unfold Report.siteNote? at site
  rw [node] at site
  obtain ⟨text, htext, rfl⟩ := Option.map_eq_some_iff.mp site
  refine ⟨ids, listing, id, text, wf.body, fault, hlisting, node, htext, ?_⟩
  simp only [Report.ofSource, read, hlisting, run, Option.map_some, Report.ofOutcome, hnote]

/-- **Every error names the exact node at fault.** Whatever is run, an expression, a statement, a
list of statements or a function that is called, if it ends in an error, then the node that the
error names was evaluated on the way and the error is what is wrong with it there. What waits hands
a stop on as it is, and the error that comes out takes no other node: offering it the node of
whatever encloses it changes nothing. So the report of a program that ends in an error is the error,
and the written form of the node at fault. -/
theorem Context.errors_name_the_fault :
    (∀ ctx : Context,
      (∀ fuel id f e f', ctx.statement (ctx.eval fuel) id f = some (.error (.error e), f') →
        ctx.FaultIn ⟨.statement id f.env, [], f.heap⟩ e f'.heap) ∧
      (∀ fuel id env h e h', ctx.eval fuel id env h = some (.error (.error e), h') →
        ctx.FaultIn ⟨.expression id env, [], h⟩ e h') ∧
      (∀ fuel ids f e f',
        ctx.statements (ctx.eval fuel) .void ids f = some (.error (.error e), f') →
        ctx.FaultIn (f.start ids) e f'.heap) ∧
      (∀ fuel c v h e h', Closure.call c (ctx.eval fuel) v h = some (.error (.error e), h') →
        ctx.FaultIn ⟨.expression c.body (c.env.bind c.param ⟨h.size⟩), [], (h.alloc v).2⟩ e h') ∧
      (∀ outer fuel id env,
        Action.located outer (ctx.eval fuel id env) = ctx.eval fuel id env) ∧
      (∀ outer fuel id,
        Action.located outer (ctx.statement (ctx.eval fuel) id) = ctx.statement (ctx.eval fuel) id) ∧
      ∀ m m' s, m.focus.stop? = some s → ctx.Reaches m m' →
        m'.focus.stop? = some s ∧ m'.heap = m.heap) ∧
    ∀ words source options fuel p t e f,
      Program.ofText (words source) source Interner.initial = (.ok p, t) →
      p.run t fuel = some (.error (.error e), f) →
      ∃ ids listing id text, p.statements? = some ids ∧
        Context.FaultIn ⟨p.arena, t⟩ (Frame.initial.start ids) e f.heap ∧
        Report.listing? options p t = some listing ∧ e.node = some id ∧
        p.arena.render? t id = some text ∧
        Report.ofSource words source options fuel =
          some ⟨.runtimeError, listing ++ Report.errorLine e, "  in " ++ text ++ "\n"⟩ := by
  refine ⟨fun ctx => ⟨?_, ?_, ?_, ?_, ?_, ?_, ?_⟩, ?_⟩
  · intro fuel id f e f' answer
    exact statement_faultIn (fun e k => eval_faultIn e k) answer
  · intro fuel id env h e h' answer
    exact eval_faultIn answer []
  · intro fuel ids f e f' answer
    exact statements_faultIn (fun e k => eval_faultIn e k) answer
  · intro fuel c v h e h' answer
    exact eval_faultIn answer []
  · intro outer fuel id env
    exact Action.located_eq_self fun h e h' answer => (eval_faultIn answer []).locate_eq outer
  · intro outer fuel id
    exact Action.located_eq_self fun f e f' answer =>
      (statement_faultIn (fun e k => eval_faultIn e k) (k := []) answer).locate_eq outer
  · intro m m' s stopped hr
    exact hr.stop? stopped
  · intro words source options fuel p t e f read run
    exact Report.ofSource_of_error read run options

end LexCell
