import LexCell.Proofs.Machine.Adequacy
import LexCell.Proofs.Machine.Rules

/-!
# Stops

Where a stop comes from, and where it goes. What waits at a moment of a run fits together: what
waits for a value is never met by the end of statements, nor the other way round (`Stacked`). So a
stop, once there, passes through all that waits and is the outcome of the run
(`reaches_finish_of_stop`). The other way, a name that is not visible is only ever reported by the
node that looks it up (`Step.unbound`).
-/

namespace LexCell

/-! ### What waits fits together

Values and ends of lists are two kinds of products, and what waits takes one kind and yields the
other. A stack of such is well-typed, so to speak, and moves keep it so. -/

inductive Product where
  | outcome
  | ending

/-- What waits takes the product of the work in progress, then that of the work behind it, until the
statements of the program end. -/
inductive Stacked : Product → List Pending → Prop where
  | nil : Stacked .ending []
  | passes {p : Pending} {k : List Pending} :
      p.Passes → Stacked .outcome k → Stacked .outcome (p :: k)
  | declared {bind : NodeId} {index : Nat} {d : Declaration} {rest : List Declaration}
      {env : Environment} {k : List Pending} :
      Stacked .ending k → Stacked .outcome (.declared bind index d rest env :: k)
  | within {env : Environment} {k : List Pending} :
      Stacked .ending k → Stacked .outcome (.within env :: k)
  | sequence {rest : List NodeId} {k : List Pending} :
      Stacked .ending k → Stacked .ending (.sequence rest :: k)
  | enclosed {k : List Pending} : Stacked .outcome k → Stacked .ending (.enclosed :: k)

def Focus.product : Focus → Product
  | .expression .. | .outcome _ => .outcome
  | .statement .. | .statements .. | .declarations .. | .ended .. => .ending

def Moment.Fits (m : Moment) : Prop := Stacked m.focus.product m.pending

/-- What waits behind a rule waits for a value, as the rule did. -/
theorem Stacked.tail {p : Pending} {k : List Pending} (h : Stacked .outcome (p :: k))
    (hp : p.Passes) : Stacked .outcome k := by
  cases h with
  | passes _ hk => exact hk
  | declared | within => cases hp

namespace Context

variable {ctx : Context}

/-- A step leaves what waits fitting together. -/
theorem Step.fits {m m' : Moment} {b : Option Birth} (hs : ctx.Step m b m') (h : m.Fits) :
    m'.Fits := by
  have hk : Stacked m.focus.product m.pending := h
  -- Each rule pushes work of the right kind, or takes the top off.
  cases hs with
  | unary | binary | logical | conditional | call | assign => exact .passes trivial hk
  | bind | block => exact .enclosed hk
  | statement_expression => exact .within hk
  | statements_cons => exact .sequence hk
  | declarations_cons => exact .declared hk
  | left | guard_long | callee => exact .passes trivial (hk.tail trivial)
  | operand | right | guard_short | guard_kind | truth | truth_kind | test | test_kind
  | callee_kind | argument | assigned | assigned_dangling => exact hk.tail trivial
  | passes hp => exact hk.tail hp
  -- What waits behind these waits for an end.
  | declared | declared_error =>
      cases hk with
      | passes hp => cases hp
      | declared hk => exact hk
  | within | within_error =>
      cases hk with
      | passes hp => cases hp
      | within hk => exact hk
  | sequence | sequence_error =>
      cases hk with
      | sequence hk => exact hk
  | enclosed =>
      cases hk with
      | enclosed hk => exact hk
  | _ => exact hk

/-- So it is all along a run. -/
theorem Run.fits {m m' : Moment} {births : List Birth} (h : m.Fits) (hr : ctx.Run m births m') :
    m'.Fits := by
  induction hr with
  | refl => exact h
  | move _ hm ih => exact (next_step hm).fits ih

end Context

/-! ### Where a stop goes

The kind of the product decides in which form the stop goes on, as the outcome of an expression or
as the end of a list. -/

def Focus.stop? : Focus → Option Stop
  | .outcome (.error e) | .ended (.error e) _ => some e
  | _ => none

/-- The name that the evaluation of a node itself looks for. -/
def Node.sought? : Node → Option Name
  | .ident n | .assign n _ => some n
  | _ => none

namespace Focus

variable {f : Focus} {e : Stop}

/-- A stop where an expression was evaluated is its outcome. -/
theorem eq_outcome_of_stop? (hs : f.stop? = some e) (hp : f.product = .outcome) :
    f = .outcome (.error e) := by
  cases f with
  | outcome r =>
      cases r <;> cases hs
      rfl
  | expression => cases hs
  | _ => cases hp

/-- A stop where a list ran is its end. -/
theorem eq_ended_of_stop? (hs : f.stop? = some e) (hp : f.product = .ending) :
    ∃ env, f = .ended (.error e) env := by
  cases f with
  | ended r env =>
      cases r <;> cases hs
      exact ⟨env, rfl⟩
  | outcome => cases hp
  | _ => cases hs

end Focus

namespace Context

variable {ctx : Context}

private theorem reaches_finish_of_stacked {product : Product} {k : List Pending}
    (hk : Stacked product k) {e : Stop} {focus : Focus} (hp : focus.product = product)
    (hs : focus.stop? = some e) (h : Heap) :
    ∃ f : Frame, ctx.Reaches ⟨focus, k, h⟩ (f.finish (.error e)) := by
  -- Whatever waits next lets the stop through with one move, as an outcome or as an end.
  induction hk generalizing focus with
  | nil =>
      obtain ⟨env, rfl⟩ := Focus.eq_ended_of_stop? hs hp
      exact ⟨⟨env, h⟩, .refl⟩
  | passes hpass _ ih =>
      obtain rfl := Focus.eq_outcome_of_stop? hs hp
      obtain ⟨f, hr⟩ := ih rfl hs
      exact ⟨f, .head (next_outcome_error e hpass _ h) hr⟩
  | @declared bind index d rest env _ _ ih =>
      obtain rfl := Focus.eq_outcome_of_stop? hs hp
      have ended : (Focus.ended (.error e) env).product = .ending := rfl
      obtain ⟨f, hr⟩ := ih ended rfl
      exact ⟨f, .head rfl hr⟩
  | @within env _ _ ih =>
      obtain rfl := Focus.eq_outcome_of_stop? hs hp
      have ended : (Focus.ended (.error e) env).product = .ending := rfl
      obtain ⟨f, hr⟩ := ih ended rfl
      exact ⟨f, .head rfl hr⟩
  | sequence _ ih =>
      obtain ⟨env, rfl⟩ := Focus.eq_ended_of_stop? hs hp
      obtain ⟨f, hr⟩ := ih hp hs
      exact ⟨f, .head rfl hr⟩
  | enclosed _ ih =>
      obtain ⟨env, rfl⟩ := Focus.eq_ended_of_stop? hs hp
      have outcome : (Focus.outcome (.error e)).product = .outcome := rfl
      obtain ⟨f, hr⟩ := ih outcome rfl
      exact ⟨f, .head rfl hr⟩

/-- **A stop is the outcome of the whole run.** -/
theorem reaches_finish_of_stop {m : Moment} (h : m.Fits) {e : Stop} (hs : m.focus.stop? = some e) :
    ∃ f : Frame, ctx.Reaches m (f.finish (.error e)) :=
  reaches_finish_of_stacked h rfl hs m.heap

end Context

/-! ### Where a stop comes from

Operators do not report names, so the error about a name that is not visible has one origin. -/

/-- A unary operator does not report a name. -/
theorem UnaryOp.apply_ne_unbound (op : UnaryOp) (v : Value) (s : String) :
    op.apply v ≠ .error (.unboundIdentifier s) := by
  intro h
  unfold UnaryOp.apply at h
  split at h <;> cases h

/-- Nor does a binary one. -/
theorem BinaryOp.apply_ne_unbound (op : BinaryOp) (a b : Value) (s : String) :
    op.apply a b ≠ .error (.unboundIdentifier s) := by
  intro h
  unfold BinaryOp.apply at h
  split at h
  · unfold BinaryOp.applyNumbers at h
    split at h <;> first | cases h | (split at h <;> cases h)
  · cases h
  · cases h

namespace Context

variable {ctx : Context} {s : String} {id : NodeId}

private theorem outcomeAt_ne_unbound {id' : NodeId} {x : Except EvalError.Cause Value}
    (hx : x ≠ .error (.unboundIdentifier s)) :
    (Focus.outcome (Stop.outcomeAt id' x)).stop? ≠
      some (.error ⟨.unboundIdentifier s, some id⟩) := by
  cases x with
  | ok v => exact nofun
  | error c =>
      intro h
      cases h
      exact hx rfl

/-- A step reports a name that is not visible only at the node that looks for it. -/
theorem Step.unbound {m m' : Moment} {b : Option Birth} (hs : ctx.Step m b m')
    (he : m'.focus.stop? = some (.error ⟨.unboundIdentifier s, some id⟩)) :
    m.focus.stop? = some (.error ⟨.unboundIdentifier s, some id⟩) ∨
      ∃ env n x, m.focus = .expression id env ∧ ctx.arena.node? id = some n ∧
        n.sought? = some x ∧ env.resolve x = none ∧ s = ctx.interner.textOrNumber x := by
  -- Two rules make this error, and the rules for stops hand it on.
  cases hs with
  | ident_unbound hn hx | assign_unbound hn hx =>
      cases he
      exact .inr ⟨_, _, _, rfl, hn, rfl, hx, rfl⟩
  | @operand v _ op => exact absurd he (outcomeAt_ne_unbound (op.apply_ne_unbound v s))
  | @right v _ op a => exact absurd he (outcomeAt_ne_unbound (op.apply_ne_unbound a v s))
  | passes | declared_error | within_error | sequence_error => exact .inl he
  | @enclosed r =>
      cases r with
      | ok v => cases he
      | error e => exact .inl he
  | _ => cases he

/-- Before a name that is not visible is reported at a node, the node was evaluated where the name
is not visible. -/
theorem Run.exists_unbound {m m' : Moment} {births : List Birth} (hr : ctx.Run m births m')
    (hs : m'.focus.stop? = some (.error ⟨.unboundIdentifier s, some id⟩))
    (start : m.focus.stop? = none) :
    ∃ births₀ m₀ env n x, ctx.Run m births₀ m₀ ∧ m₀.focus = .expression id env ∧
      ctx.arena.node? id = some n ∧ n.sought? = some x ∧ env.resolve x = none ∧
      s = ctx.interner.textOrNumber x := by
  -- Backwards from the end to the move that made the error.
  induction hr with
  | refl =>
      rw [start] at hs
      cases hs
  | move hr hm ih =>
      rcases (next_step hm).unbound hs with hs | ⟨env, n, x, found⟩
      · exact ih hs
      · exact ⟨_, _, env, n, x, hr, found⟩

end Context

end LexCell
