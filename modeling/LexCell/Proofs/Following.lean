import LexCell.Proofs.Machine

/-!
# One evaluation follows another

Two programs may differ in so little that one does what the other does, up to the stop with which it
ends: in the words that errors find for names, or in some nodes that nobody may evaluate. An action
follows another (`Action.Follows`) if it gives the same answers from the same states; where the
other stops, it stops for a reason that corresponds, and where the stop is excused nothing is asked
of it.

`Context.Follows` says what two programs may differ in for this to pass from the nodes below to the
node above, and so to whole evaluations (`Context.Follows.eval`, `Context.Follows.run`).
-/

namespace LexCell

namespace Action

variable {σ α β : Type} {excused : Stop → Prop} {E : Stop → Stop → Prop}

/-! ### Actions

An excused stop is one about which nothing is claimed. An action that can do no more than to stop in
this way is followed by any other. -/

/-- The action only ever stops, and is excused. -/
def Excuses (excused : Stop → Prop) (x : Action σ α) : Prop :=
  ∀ s r s', x s = some (r, s') → ∃ e, r = .error e ∧ excused e

/-- What `x` answers `y` answers too, from the same state and with the same state left; of two stops
the second corresponds to the first, unless the first is excused. -/
structure Follows (excused : Stop → Prop) (E : Stop → Stop → Prop) (x y : Action σ α) : Prop where
  ok : ∀ {s a s'}, x s = some (.ok a, s') → y s = some (.ok a, s')
  error : ∀ {s e s'}, x s = some (.error e, s') →
    excused e ∨ ∃ e', E e e' ∧ y s = some (.error e', s')

namespace Excuses

theorem exhausted : Excuses excused (Action.exhausted : Action σ α) := nofun

theorem stop {e : Stop} (h : excused e) : Excuses excused (Action.stop e : Action σ α) := by
  rintro s _ _ ⟨⟩
  exact ⟨e, rfl, h⟩

theorem follows {x : Action σ α} (h : Excuses excused x) (y : Action σ α) :
    Follows excused E x y := by
  constructor
  · intro s a s' hx
    obtain ⟨e, he, -⟩ := h _ _ _ hx
    cases he
  · intro s e s' hx
    obtain ⟨e', he, excused⟩ := h _ _ _ hx
    cases he
    exact .inl excused

theorem within {act : Environment → Action Heap α} (h : ∀ env, Excuses excused (act env)) :
    Excuses excused (Frame.within act) := by
  rintro ⟨env, heap⟩ r f hx
  simp only [Frame.within] at hx
  split at hx
  · next r' heap' hact =>
    cases hx
    exact h _ _ _ _ hact
  · cases hx

end Excuses

namespace Follows

theorem pure (a : α) : Follows excused E (Pure.pure a : Action σ α) (Pure.pure a) :=
  ⟨id, nofun⟩

theorem stop {e e' : Stop} (h : E e e') :
    Follows excused E (Action.stop e : Action σ α) (Action.stop e') := by
  constructor
  · exact nofun
  · rintro s _ _ ⟨⟩
    exact .inr ⟨e', h, rfl⟩

/-- An action follows itself. -/
theorem refl (h : ∀ e, E e e) (x : Action σ α) : Follows excused E x x :=
  ⟨id, fun hx => .inr ⟨_, h _, hx⟩⟩

/-- Two sequences, part by part. -/
theorem bind {x y : Action σ α} {f g : α → Action σ β} (h : Follows excused E x y)
    (rest : ∀ a, Follows excused E (f a) (g a)) : Follows excused E (x >>= f) (y >>= g) := by
  constructor
  · intro s b s' hx
    -- The first part may stop, answer, or run out of fuel; only in the second case is there more to
    -- follow.
    rw [bind_apply] at hx
    split at hx
    · next a s₁ first =>
      rw [bind_apply, h.ok first]
      exact (rest a).ok hx
    · cases hx
    · cases hx
  · intro s e s' hx
    rw [bind_apply] at hx
    split at hx
    · next a s₁ first =>
      rw [bind_apply, h.ok first]
      exact (rest a).error hx
    · next e₁ s₁ first =>
      cases hx
      rcases h.error first with excused | ⟨e', related, answer⟩
      · exact .inl excused
      · refine .inr ⟨e', related, ?_⟩
        rw [bind_apply, answer]
    · cases hx

theorem within {x y : Environment → Action Heap α} (h : ∀ env, Follows excused E (x env) (y env)) :
    Follows excused E (Frame.within x) (Frame.within y) := by
  constructor
  · rintro ⟨env, heap⟩ a f hx
    simp only [Frame.within] at hx ⊢
    split at hx
    · next r heap' hact =>
      cases hx
      rw [(h env).ok hact]
    · cases hx
  · rintro ⟨env, heap⟩ e f hx
    simp only [Frame.within] at hx ⊢
    split at hx
    · next r heap' hact =>
      cases hx
      refine ((h env).error hact).imp_right ?_
      rintro ⟨e', related, answer⟩
      exact ⟨e', related, by rw [answer]⟩
    · cases hx

theorem enclosed (env : Environment) {x y : Action Frame α} (h : Follows excused E x y) :
    Follows excused E (Frame.enclosed env x) (Frame.enclosed env y) := by
  constructor
  · intro heap a heap' hx
    simp only [Frame.enclosed] at hx ⊢
    split at hx
    · next r f hact =>
      cases hx
      rw [h.ok hact]
    · cases hx
  · intro heap e heap' hx
    simp only [Frame.enclosed] at hx ⊢
    split at hx
    · next r f hact =>
      cases hx
      refine (h.error hact).imp_right ?_
      rintro ⟨e', related, answer⟩
      exact ⟨e', related, by rw [answer]⟩
    · cases hx

/-- What is answered without a stop that is excused is answered alike. -/
theorem answer {x y : Action σ α} (h : Follows excused Eq x y) {s s' : σ} {r : Except Stop α}
    (hx : x s = some (r, s')) : (∃ e, r = .error e ∧ excused e) ∨ y s = some (r, s') := by
  cases r with
  | ok a => exact .inr (h.ok hx)
  | error e =>
      rcases h.error hx with excused | ⟨e', rfl, answer⟩
      · exact .inl ⟨e, rfl, excused⟩
      · exact .inr answer

end Follows

end Action

/-! ### Programs that differ in little

Both programs have the same lists, and the same nodes but for those that are malformed in the first.
The words of errors may be others at every node. -/

open LexCell.Action (Excuses)

namespace Context

def unknownAt (ctx : Context) (token : Name) (id : NodeId) : Stop :=
  .error ⟨.unknownOperator (ctx.interner.textOrNumber token), some id⟩

/-- The programs differ at most in nodes that are malformed in the first, where stops are excused,
and in the words of errors, which correspond. -/
structure Follows (excused : Stop → Prop) (E : Stop → Stop → Prop) (ctx ctx' : Context) : Prop where
  statements : ∀ span, ctx'.arena.statements? span = ctx.arena.statements? span
  declarations : ∀ span, ctx'.arena.declarations? span = ctx.arena.declarations? span
  node : ∀ id, ctx'.arena.node? id = ctx.arena.node? id ∨
    ∃ token, ctx.arena.node? id = some (.malformed token) ∧ excused (ctx.unknownAt token id)
  refl : ∀ e, E e e
  unbound : ∀ n id, E (ctx.unboundAt n id) (ctx'.unboundAt n id)
  unknown : ∀ token id, E (ctx.unknownAt token id) (ctx'.unknownAt token id)

variable {excused : Stop → Prop} {E : Stop → Stop → Prop} {ctx ctx' : Context}

/-- The evaluations of nodes that are malformed in the first program, and excused there, only ever
stop, and are excused. -/
def Spoils (excused : Stop → Prop) (ctx : Context) (rec : Evaluator) : Prop :=
  ∀ id token, ctx.arena.node? id = some (.malformed token) → excused (ctx.unknownAt token id) →
    ∀ env, Excuses excused (rec id env)

namespace Follows

/-! ### The rules

In this section `evaluator` and `evaluator'` stand for the evaluations of the nodes below. -/

section Rules

variable {evaluator evaluator' : Evaluator} (h : ctx.Follows excused E ctx')
  (below : ∀ id env, Action.Follows excused E (evaluator id env) (evaluator' id env))

include h below

theorem declareAll (ds : List Declaration) :
    Action.Follows excused E (Frame.declareAll evaluator ds) (Frame.declareAll evaluator' ds) := by
  induction ds with
  | nil => exact .pure _
  | cons d ds ih =>
      unfold Frame.declareAll
      refine .bind (.within (below d.init)) fun v => ?_
      exact .bind (.refl h.refl _) fun _ => ih

theorem statement (spoils : ctx.Spoils excused evaluator) (id : NodeId) :
    Action.Follows excused E (ctx.statement evaluator id) (ctx'.statement evaluator' id) := by
  unfold Context.statement
  -- The node is the same in both, or it is excused.
  rcases h.node id with same | ⟨token, hn, excuse⟩
  · rw [same]
    refine .bind (.refl h.refl _) fun n => ?_
    cases n with
    | bind span =>
        dsimp only
        rw [h.declarations]
        exact .bind (.refl h.refl _) fun ds => declareAll h below ds
    | _ => exact .within (below id)
  · rw [hn]
    exact (Excuses.within (spoils id token hn excuse)).follows _

theorem sequence (spoils : ctx.Spoils excused evaluator) (ids : List NodeId) (last : Value) :
    Action.Follows excused E (ctx.statements evaluator last ids)
      (ctx'.statements evaluator' last ids) := by
  induction ids generalizing last with
  | nil => exact .pure _
  | cons id ids ih =>
      unfold Context.statements
      exact .bind (statement h below spoils id) ih

/-- **One level of evaluation follows the other** if the level below does. -/
theorem step (spoils : ctx.Spoils excused evaluator) (id : NodeId) (env : Environment) :
    Action.Follows excused E (ctx.step evaluator id env) (ctx'.step evaluator' id env) := by
  unfold Context.step
  rcases h.node id with same | ⟨token, hn, excuse⟩
  · rw [same]
    refine .bind (.refl h.refl _) fun n => ?_
    -- Every premise is about a node below or about the heap, and on the heap nothing differs.
    cases n with
    | number | boolean | function => exact .pure _
    | unary op x => exact .bind (below x env) fun _ => .refl h.refl _
    | binary op x y =>
        exact .bind (below x env) fun _ => .bind (below y env) fun _ => .refl h.refl _
    | logical op x y =>
        refine .bind (below x env) fun v => .bind (.refl h.refl _) fun a => ?_
        split
        · exact .pure _
        · exact .bind (below y env) fun _ => .bind (.refl h.refl _) fun _ => .pure _
    | conditional x y z =>
        refine .bind (below x env) fun v => .bind (.refl h.refl _) fun b => ?_
        split
        · exact below y env
        · exact below z env
    | ident n =>
        dsimp only
        split
        · exact .refl h.refl _
        · exact .stop (h.unbound n id)
    | bind span =>
        dsimp only
        rw [h.declarations]
        exact .bind (.refl h.refl _) fun ds => .enclosed env (declareAll h below ds)
    | call x y =>
        refine .bind (below x env) fun v => ?_
        split
        · next c =>
          refine .bind (below y env) fun w => ?_
          exact .bind (.refl h.refl _) fun s => below c.body _
        · exact .refl h.refl _
    | assign n x =>
        dsimp only
        split
        · exact .bind (below x env) fun _ => .bind (.refl h.refl _) fun _ => .pure _
        · exact .stop (h.unbound n id)
    | block span =>
        refine .enclosed env ?_
        unfold Context.sequence
        rw [h.statements]
        exact .bind (.refl h.refl _) fun ids => sequence h below spoils ids .void
    | malformed token => exact .stop (h.unknown token id)
  · rw [hn]
    exact (Excuses.stop excuse).follows _

end Rules

/-! ### Evaluations

The hypotheses about the nodes below hold at every level: an evaluation of a malformed node stops at
once, whatever the fuel. -/

/-- Nodes that are malformed only ever stop. -/
theorem spoils (fuel : Nat) : ctx.Spoils excused (ctx.eval fuel) := by
  intro id token hn excuse env
  cases fuel with
  | zero => exact .exhausted
  | succ fuel =>
      show Excuses excused (ctx.step (ctx.eval fuel) id env)
      unfold Context.step
      rw [hn]
      exact .stop excuse

/-- **An evaluation follows the other.** -/
theorem eval (h : ctx.Follows excused E ctx') (fuel : Nat) (id : NodeId) (env : Environment) :
    Action.Follows excused E (ctx.eval fuel id env) (ctx'.eval fuel id env) := by
  induction fuel generalizing id env with
  | zero => exact Excuses.exhausted.follows _
  | succ fuel ih => exact step h ih (spoils fuel) id env

/-- **The run of a list of statements follows the other.** -/
theorem run (h : ctx.Follows excused E ctx') (fuel : Nat) (ids : List NodeId) :
    Action.Follows excused E (ctx.statements (ctx.eval fuel) .void ids)
      (ctx'.statements (ctx'.eval fuel) .void ids) :=
  sequence h (eval h fuel) (spoils fuel) ids .void

end Follows

end Context

end LexCell
