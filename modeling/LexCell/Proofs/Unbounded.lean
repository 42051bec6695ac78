import LexCell.Proofs.Following
import LexCell.Proofs.Machine.Adequacy

/-!
# Evaluation without a bound

The fuel of `Context.eval` bounds how deep evaluations nest. An answer stays the same with more fuel
(`Context.eval_of_le`), so there is one evaluator that answers just what `Context.eval` answers with
enough fuel: `Context.unbounded`. It satisfies the equation of `Context.eval` without the fuel
(`Context.unbounded_eq_step`). So programs that nest differently can be compared by rewriting, and
what is shown of `Context.unbounded` is read off for the runs that come to an end
(`Context.expressionEnds_iff` and the lemmas after it).
-/

namespace LexCell

/-- Whatever the first action answers the second answers too. -/
abbrev Action.AnsweredBy {σ α : Type} (x y : Action σ α) : Prop :=
  Action.Follows (fun _ => False) Eq x y

theorem Action.AnsweredBy.eq_some {σ α : Type} {x y : Action σ α} (h : x.AnsweredBy y) {s : σ}
    {o : Except Stop α × σ} (hx : x s = some o) : y s = some o :=
  (h.answer hx).resolve_left fun ⟨_, _, excused⟩ => excused

namespace Context

variable (ctx : Context)

/-- A program differs in nothing from itself. -/
theorem follows_self : ctx.Follows (fun _ => False) Eq ctx where
  statements _ := rfl
  declarations _ := rfl
  node _ := .inl rfl
  refl _ := rfl
  unbound _ _ := rfl
  unknown _ _ := rfl

/-! ### More fuel -/

section Rules

variable {evaluator evaluator' : Evaluator}
  (below : ∀ id env, (evaluator id env).AnsweredBy (evaluator' id env))

include ctx below

theorem declareAll_answeredBy (ds : List Declaration) :
    (Frame.declareAll evaluator ds).AnsweredBy (Frame.declareAll evaluator' ds) :=
  ctx.follows_self.declareAll below ds

theorem statement_answeredBy (id : NodeId) :
    (ctx.statement evaluator id).AnsweredBy (ctx.statement evaluator' id) :=
  ctx.follows_self.statement below (fun _ _ _ excused => excused.elim) id

theorem statements_answeredBy (ids : List NodeId) (last : Value) :
    (ctx.statements evaluator last ids).AnsweredBy (ctx.statements evaluator' last ids) :=
  ctx.follows_self.sequence below (fun _ _ _ excused => excused.elim) ids last

theorem step_answeredBy (id : NodeId) (env : Environment) :
    (ctx.step evaluator id env).AnsweredBy (ctx.step evaluator' id env) :=
  ctx.follows_self.step below (fun _ _ _ excused => excused.elim) id env

end Rules

theorem eval_answeredBy_succ (fuel : Nat) (id : NodeId) (env : Environment) :
    (ctx.eval fuel id env).AnsweredBy (ctx.eval (fuel + 1) id env) := by
  induction fuel generalizing id env with
  | zero => exact Action.Excuses.exhausted.follows _
  | succ fuel ih => exact ctx.step_answeredBy ih id env

variable {ctx} {id : NodeId} {env : Environment} {h : Heap}

/-- **More fuel does not change an answer.** -/
theorem eval_of_le {n m : Nat} (hle : n ≤ m) {o : Except Stop Value × Heap}
    (answer : ctx.eval n id env h = some o) : ctx.eval m id env h = some o := by
  induction hle with
  | refl => exact answer
  | step _ ih => exact (ctx.eval_answeredBy_succ _ id env).eq_some ih

/-! ### The evaluator without fuel -/

open Classical in
/-- Evaluates the expression at a node, nesting as deep as it must. There is no outcome if no depth
is enough. -/
noncomputable def unbounded (ctx : Context) : Evaluator := fun id env h =>
  if ends : ∃ o fuel, ctx.eval fuel id env h = some o then some ends.choose else none

theorem unbounded_eq_some_iff {o : Except Stop Value × Heap} :
    ctx.unbounded id env h = some o ↔ ∃ fuel, ctx.eval fuel id env h = some o := by
  have unique {o' : Except Stop Value × Heap} {n m : Nat} (hn : ctx.eval n id env h = some o)
      (hm : ctx.eval m id env h = some o') : o' = o := by
    have hn := eval_of_le (Nat.le_max_left n m) hn
    have hm := eval_of_le (Nat.le_max_right n m) hm
    exact Option.some.inj (hm.symm.trans hn)
  unfold unbounded
  constructor
  · intro answer
    split at answer
    · next ends =>
      cases answer
      exact ends.choose_spec
    · cases answer
  · rintro ⟨fuel, answer⟩
    have ends : ∃ o fuel, ctx.eval fuel id env h = some o := ⟨o, fuel, answer⟩
    obtain ⟨_, answer'⟩ := ends.choose_spec
    rw [dif_pos ends, unique answer answer']

theorem eval_answeredBy_unbounded (fuel : Nat) (id : NodeId) (env : Environment) :
    (ctx.eval fuel id env).AnsweredBy (ctx.unbounded id env) :=
  ⟨fun answer => unbounded_eq_some_iff.mpr ⟨fuel, answer⟩,
    fun answer => .inr ⟨_, rfl, unbounded_eq_some_iff.mpr ⟨fuel, answer⟩⟩⟩

/-- The moves lead to what the evaluator without fuel answers. Where it does not answer nothing is
said here. -/
theorem unbounded_tracks (ctx : Context) (id : NodeId) (env : Environment) (k : List Pending)
    (h : Heap) :
    ctx.Tracks 0 ⟨.expression id env, k, h⟩ (yields k) (ctx.unbounded id env h) := by
  cases answer : ctx.unbounded id env h with
  | none => trivial
  | some o =>
      obtain ⟨fuel, answer⟩ := unbounded_eq_some_iff.mp answer
      exact reaches_of_eval answer k

/-- **The evaluator without fuel takes the steps of the one with fuel.** -/
theorem unbounded_eq_step (id : NodeId) (env : Environment) :
    ctx.unbounded id env = ctx.step ctx.unbounded id env := by
  funext h
  refine Option.ext fun o => ?_
  constructor
  · intro answer
    obtain ⟨fuel, answer⟩ := unbounded_eq_some_iff.mp answer
    cases fuel with
    | zero => cases answer
    | succ fuel =>
        exact (ctx.step_answeredBy (eval_answeredBy_unbounded fuel) id env).eq_some answer
  · intro answer
    -- What the step answers is where the moves end, and they end where `eval` says.
    have tracks := step_tracks ctx.unbounded_tracks id env [] h
    rw [answer] at tracks
    exact unbounded_eq_some_iff.mpr (reaches_outcome_iff.mp tracks)

/-! ### Runs that come to an end -/

/-- The evaluation of the expression ends with the value or stop and leaves the heap so. -/
def ExpressionEnds (ctx : Context) (id : NodeId) (env : Environment) (h : Heap)
    (r : Except Stop Value) (h' : Heap) : Prop :=
  ∃ fuel, ctx.eval fuel id env h = some (r, h')

def StatementEnds (ctx : Context) (id : NodeId) (f : Frame) (r : Except Stop Value)
    (f' : Frame) : Prop :=
  ∃ fuel, ctx.statement (ctx.eval fuel) id f = some (r, f')

def StatementsEnd (ctx : Context) (ids : List NodeId) (f : Frame) (r : Except Stop Value)
    (f' : Frame) : Prop :=
  ∃ fuel, ctx.statements (ctx.eval fuel) .void ids f = some (r, f')

def DeclarationsEnd (ctx : Context) (ds : List Declaration) (f : Frame) (r : Except Stop Value)
    (f' : Frame) : Prop :=
  ∃ fuel, Frame.declareAll (ctx.eval fuel) ds f = some (r, f')

variable {f f' : Frame} {r : Except Stop Value}

theorem expressionEnds_iff {h' : Heap} :
    ctx.ExpressionEnds id env h r h' ↔ ctx.unbounded id env h = some (r, h') :=
  unbounded_eq_some_iff.symm

theorem statementEnds_iff :
    ctx.StatementEnds id f r f' ↔ ctx.statement ctx.unbounded id f = some (r, f') := by
  constructor
  · rintro ⟨fuel, answer⟩
    exact (ctx.statement_answeredBy (eval_answeredBy_unbounded fuel) id).eq_some answer
  · intro answer
    have tracks := statement_tracks ctx.unbounded_tracks id [] f
    rw [answer] at tracks
    exact reaches_ended_iff.mp tracks

theorem statementsEnd_iff {ids : List NodeId} :
    ctx.StatementsEnd ids f r f' ↔ ctx.statements ctx.unbounded .void ids f = some (r, f') := by
  constructor
  · rintro ⟨fuel, answer⟩
    exact (ctx.statements_answeredBy (eval_answeredBy_unbounded fuel) ids .void).eq_some answer
  · intro answer
    have tracks := statements_tracks ctx.unbounded_tracks ids .void [] f
    rw [answer] at tracks
    exact reaches_finish_iff.mp tracks

theorem declarationsEnd_iff {ds : List Declaration} :
    ctx.DeclarationsEnd ds f r f' ↔ Frame.declareAll ctx.unbounded ds f = some (r, f') := by
  constructor
  · rintro ⟨fuel, answer⟩
    exact (ctx.declareAll_answeredBy (eval_answeredBy_unbounded fuel) ds).eq_some answer
  · intro answer
    have tracks := declareAll_tracks ctx.unbounded_tracks ds ⟨0⟩ 0 [] f
    rw [answer] at tracks
    exact reaches_declared_iff.mp tracks

end Context

end LexCell
