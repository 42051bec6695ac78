import LexCell.Proofs.Arena.Layout
import LexCell.Proofs.HeapFree
import LexCell.Proofs.HeapFree.Constant
import LexCell.Proofs.Lockstep
import LexCell.Proofs.Machine.Adequacy

/-!
# Without assignments the heap cannot be seen

In an arena without assignments evaluation with a heap and without one run in lockstep. What relates
them is that a value shows, through the heap, as another (`Value.Shows`): functions carry slots here
and values there, and what is in the cells shows as these. The relation is read off the heap at one
moment; it lasts because cells keep what they hold, so the heap is the world in which the two runs
are compared.

Functions in cells see older cells only, and therefore a value can be read through the heap at all:
the relation is inductive, so that it says of a value that it is read in finitely many steps.
-/

namespace LexCell

/-! ### What a value shows as

A function in one evaluation has slots where that in the other has values. `Shows` follows the slots
through the heap; it is inductive, for bindings are finite trees of values. -/

/-- Read through the heap, the value shows as the other. -/
inductive Value.Shows (h : Heap) : Value → PureValue → Prop where
  | number (n : Int64) : Shows h (.number n) (.number n)
  | boolean (b : Bool) : Shows h (.boolean b) (.boolean b)
  | function {env : Environment} {ρ : Bindings} {param : Name} {body : NodeId} :
      (∀ x, env.resolve x = none ↔ ρ x = none) →
      (∀ x s, env.resolve x = some s → ∃ v, h.get? s = some v) →
      (∀ x s v p, env.resolve x = some s → h.get? s = some v → ρ x = some p → Shows h v p) →
      Shows h (.function ⟨env, param, body⟩) (.function ρ param body)
  | void : Shows h .void .void

/-- The same names are visible, and what their cells hold shows as what they stand for. -/
structure Environment.Shows (h : Heap) (env : Environment) (ρ : Bindings) : Prop where
  none_iff : ∀ x, env.resolve x = none ↔ ρ x = none
  exists_get? : ∀ x s, env.resolve x = some s → ∃ v, h.get? s = some v
  shows : ∀ x s v p, env.resolve x = some s → h.get? s = some v → ρ x = some p → v.Shows h p

inductive OutcomeShows (h : Heap) : Except Stop Value → Except Stop PureValue → Prop where
  | ok {v : Value} {p : PureValue} : v.Shows h p → OutcomeShows h (.ok v) (.ok p)
  | error (e : Stop) : OutcomeShows h (.error e) (.error e)

namespace Value.Shows

variable {h h' : Heap} {v : Value} {p : PureValue}

/-- A function shows as one with the same parameter and body, if its environment shows as what the
other carries. -/
theorem function_iff {c : Closure} :
    (Value.function c).Shows h p ↔
      ∃ ρ, p = .function ρ c.param c.body ∧ c.env.Shows h ρ := by
  constructor
  · rintro ⟨⟩
    next none_iff exists_get? shows => exact ⟨_, rfl, none_iff, exists_get?, shows⟩
  · rintro ⟨ρ, rfl, none_iff, exists_get?, shows⟩
    exact .function none_iff exists_get? shows

/-- What a value shows as lasts while cells keep what they hold. -/
theorem mono (hs : v.Shows h p) (hle : h ≤ h') : v.Shows h' p := by
  -- On how the value is read through the heap: what it carries is read in fewer steps.
  induction hs with
  | number n => exact .number n
  | boolean b => exact .boolean b
  | void => exact .void
  | function none_iff exists_get? _ ih =>
      refine .function none_iff ?_ ?_
      · intro x s hx
        obtain ⟨v, hv⟩ := exists_get? x s hx
        -- The cell is still there.
        exact ⟨v, hle s v hv⟩
      · intro x s w p hx hw hp
        obtain ⟨v, hv⟩ := exists_get? x s hx
        obtain rfl : v = w := Option.some.inj ((hle s v hv).symm.trans hw)
        exact ih x s v p hx hv hp

/-- A value shows as one value only. -/
theorem functional {p' : PureValue} (hs : v.Shows h p) (hs' : v.Shows h p') : p = p' := by
  induction hs generalizing p' with
  | number | boolean | void =>
      cases hs'
      rfl
  | @function env ρ param body none_iff exists_get? _ ih =>
      obtain ⟨ρ', rfl, shows'⟩ := function_iff.mp hs'
      -- The bindings agree on every name, for what they bind is read off one cell.
      have same (x : Name) : ρ x = ρ' x := by
        cases hx : env.resolve x with
        | none => rw [(none_iff x).mp hx, (shows'.none_iff x).mp hx]
        | some s =>
            obtain ⟨v, hv⟩ := exists_get? x s hx
            obtain ⟨q, hq⟩ : ∃ q, ρ x = some q :=
              Option.ne_none_iff_exists'.mp fun e => by simp [(none_iff x).mpr e] at hx
            obtain ⟨q', hq'⟩ : ∃ q', ρ' x = some q' :=
              Option.ne_none_iff_exists'.mp fun e => by simp [(shows'.none_iff x).mpr e] at hx
            rw [hq, hq', ih x s v q hx hv hq (shows'.shows x s v q' hx hv hq')]
      rw [funext same]

end Value.Shows

/-- An outcome shows as one outcome only. -/
theorem OutcomeShows.functional {h : Heap} {r : Except Stop Value} {q q' : Except Stop PureValue}
    (hs : OutcomeShows h r q) (hs' : OutcomeShows h r q') : q = q' := by
  cases hs with
  | ok hv =>
      cases hs' with
      | ok hv' => rw [hv.functional hv']
  | error e =>
      cases hs'
      rfl

namespace Environment.Shows

variable {h h' : Heap} {env : Environment} {ρ : Bindings}

theorem empty (h : Heap) : Environment.empty.Shows h Bindings.empty :=
  ⟨fun _ => iff_of_true rfl rfl, nofun, nofun⟩

theorem mono (hs : env.Shows h ρ) (hle : h ≤ h') : env.Shows h' ρ := by
  obtain ⟨none_iff, exists_get?, shows⟩ := hs
  refine ⟨none_iff, fun x s hx => (exists_get? x s hx).imp (hle s), ?_⟩
  intro x s w p hx hw hp
  obtain ⟨v, hv⟩ := exists_get? x s hx
  obtain rfl : v = w := Option.some.inj ((hle s v hv).symm.trans hw)
  exact (shows x s v p hx hv hp).mono hle

/-- A new cell, and a name for what it holds. -/
theorem bind (hs : env.Shows h ρ) {v : Value} {p : PureValue} (hv : v.Shows h p) (x : Name) :
    (env.bind x ⟨h.size⟩).Shows (h.alloc v).2 (ρ.bind x p) := by
  obtain ⟨none_iff, exists_get?, shows⟩ := hs.mono (h.le_alloc v)
  -- The new cell is found under the new slot.
  have new : (h.alloc v).2.get? ⟨h.size⟩ = some v := by
    rw [Heap.get?_alloc]
    exact if_pos rfl
  refine ⟨?_, ?_, ?_⟩
  · intro y
    rw [Environment.resolve_bind, Bindings.bind]
    split
    · exact iff_of_false nofun nofun
    · exact none_iff y
  · intro y s hy
    rw [Environment.resolve_bind] at hy
    split at hy
    · cases hy
      exact ⟨v, new⟩
    · exact exists_get? y s hy
  · intro y s w q hy hw hq
    rw [Environment.resolve_bind] at hy
    rw [Bindings.bind] at hq
    split at hy
    · next same =>
      rw [if_pos same] at hq
      cases hy
      cases hq
      obtain rfl : v = w := Option.some.inj (new.symm.trans hw)
      exact hv.mono (h.le_alloc v)
    · next other =>
      rw [if_neg other] at hq
      exact shows y s w q hy hw hq

end Environment.Shows

/-! ### Reading a value through the heap

A relation that is inductive need not hold of anything. That every value of a run does show as
something comes from the age of cells: what a cell leads to is older than the cell. -/

/-- A value shows if what it carries does. -/
theorem Value.exists_shows {h : Heap} {v : Value}
    (carried : ∀ c, v = .function c → ∃ ρ, c.env.Shows h ρ) : ∃ p, v.Shows h p := by
  cases v with
  | number n => exact ⟨_, .number n⟩
  | boolean b => exact ⟨_, .boolean b⟩
  | function c =>
      obtain ⟨ρ, hρ⟩ := carried c rfl
      exact ⟨_, Value.Shows.function_iff.mpr ⟨ρ, rfl, hρ⟩⟩
  | void => exact ⟨_, .void⟩

/-- Where functions in cells see older cells only, an environment shows as bindings. -/
theorem Heap.Layered.exists_shows {h : Heap} (layered : h.Layered) {n : Nat} (hn : n ≤ h.size)
    {env : Environment} (henv : env.Below n) : ∃ ρ, env.Shows h ρ := by
  -- From a cell the functions in it lead to older ones, so the induction is on how old they are.
  induction n using Nat.strongRecOn generalizing env with
  | ind n ih =>
      have name (x : Name) : ∃ o : Option PureValue, (env.resolve x = none ↔ o = none) ∧
          ∀ s v p, env.resolve x = some s → h.get? s = some v → o = some p → v.Shows h p := by
        cases hx : env.resolve x with
        | none => exact ⟨none, iff_of_true rfl rfl, nofun⟩
        | some s =>
            have old : s.index < n := henv x s hx
            obtain ⟨v, hv⟩ := Heap.exists_get? (Nat.lt_of_lt_of_le old hn)
            obtain ⟨p, hp⟩ : ∃ p, v.Shows h p := by
              refine Value.exists_shows ?_
              rintro c rfl
              exact ih s.index old (Nat.le_trans (Nat.le_of_lt old) hn) (layered s c hv)
            refine ⟨some p, iff_of_false nofun nofun, ?_⟩
            rintro _ w _ ⟨⟩ hw ⟨⟩
            obtain rfl : v = w := Option.some.inj (hv.symm.trans hw)
            exact hp
      -- So far each name has its own value, which only together are bindings.
      choose ρ none_iff shows using name
      exact ⟨ρ, none_iff, fun x s hx => Heap.exists_get? (Nat.lt_of_lt_of_le (henv x s hx) hn),
        shows⟩

/-- At every moment of a run every value there is can be read through the heap, in one way. -/
theorem Context.Reaches.exists_unique_shows {ctx : Context} (constant : ctx.arena.Constant)
    {ids : List NodeId} {m : Moment} (hm : ctx.Reaches (Frame.initial.start ids) m) {v : Value}
    (hv : v ∈ m.values) : ∃! p, v.Shows m.heap p := by
  obtain ⟨born, run⟩ := hm.run
  have start := Frame.initial_obeys constant ids
  have obeys := start.run run
  obtain ⟨p, hp⟩ : ∃ p, v.Shows m.heap p := by
    refine Value.exists_shows ?_
    rintro c rfl
    -- The run knows no more cells than there are.
    have below : c.env.Below m.heap.size := by
      rw [obeys.size]
      exact obeys.value hv
    exact (start.layered nofun run).exists_shows (Nat.le_refl _) below
  exact ⟨p, hp, fun _ hp' => hp'.functional hp⟩

/-! ### Side by side

The world of the lockstep is the heap, which goes up in the order of `Heap` while the two runs
proceed. -/

namespace HeapFree

open LexCell.Action

def AtHeap (w h : Heap) (_ : Unit) : Prop := h = w

/-- What is visible in the frame shows as the bindings. -/
structure FrameShows (w : Heap) (f : Frame) (ρ : Bindings) : Prop where
  heap : f.heap = w
  env : f.env.Shows w ρ

def Shown (w : Heap) (v : Value) (p : PureValue) : Prop := v.Shows w p

variable {w : Heap}

/-- What is expected of a value is decided by its kind. -/
theorem expectBoolean_lockstep {v : Value} {p : PureValue} (hv : v.Shows w p) (context : String)
    (id : NodeId) :
    Lockstep AtHeap (fun _ b b' => b = b') w (v.expectBoolean context id)
      (expectBoolean p context id) := by
  cases hv with
  | boolean b => exact .pure rfl
  | _ => exact .stop _

/-- A name that is visible on one side is on the other, and stands for what its cell holds. -/
theorem ident_lockstep (ctx : Context) {env : Environment} {ρ : Bindings} (henv : env.Shows w ρ)
    (x : Name) (id : NodeId) :
    Lockstep AtHeap Shown w
      (match env.resolve x with | some s => Heap.fetch s | none => ctx.unbound x id)
      (match ρ x with | some p => pure p | none => ctx.unbound x id) := by
  cases hx : env.resolve x with
  | none =>
      rw [(henv.none_iff x).mp hx]
      exact .stop _
  | some s =>
      obtain ⟨v, hv⟩ := henv.exists_get? x s hx
      cases hp : ρ x with
      | none =>
          rw [(henv.none_iff x).mpr hp] at hx
          cases hx
      | some p =>
          rintro h - rfl
          simp only [Heap.fetch, hv]
          exact .ok le_rfl rfl (henv.shows x s v p hx hv hp)

/-! ### Operators

The evaluator without a heap applies operators to outlines. Operators do not look into functions, so
the outline is as good as the value. -/

/-- Unary operators treat a value and its outline alike. -/
theorem unary_apply_outline (op : UnaryOp) {v : Value} {p : PureValue} (hv : v.Shows w p) :
    op.apply v = op.apply p.outline := by
  cases hv with
  | function => cases op <;> rfl
  | _ => rfl

/-- The same for two operands. -/
theorem binary_apply_outline (op : BinaryOp) {v v' : Value} {p p' : PureValue}
    (hv : v.Shows w p) (hv' : v'.Shows w p') :
    op.apply v v' = op.apply p.outline p'.outline := by
  cases hv <;> cases hv' <;> rfl

/-- Results of operators show as themselves. -/
theorem ofExcept_lockstep {x : Except EvalError.Cause Value} (id : NodeId)
    (hx : ∀ v, x = .ok v → ∀ c, v ≠ .function c) :
    Lockstep AtHeap Shown w (Action.ofExcept id x)
      (Action.ofExcept id (x.map PureValue.ofOutline)) := by
  cases x with
  | error c => exact .stop _
  | ok v =>
      refine .pure ?_
      cases v with
      | number n => exact .number n
      | boolean b => exact .boolean b
      | function c => exact absurd rfl (hx _ rfl c)
      | void => exact .void

/-! ### Frames

A declaration adds a cell on one side and a binding on the other, and nothing else changes what is
visible. -/

/-- A name is declared with a new cell, or with the value itself. -/
theorem declare_lockstep (x : Name) {v : Value} {p : PureValue} (hv : v.Shows w p) :
    Lockstep FrameShows (fun _ _ _ => True) w (Frame.declare x v) (declare x p) := by
  rintro ⟨env, h⟩ ρ ⟨rfl, henv⟩
  exact .ok (h.le_alloc v) ⟨rfl, henv.bind hv x⟩ trivial

theorem within_lockstep {act : Environment → Action Heap Value}
    {act' : Bindings → Action Unit PureValue}
    (hact : ∀ env ρ, env.Shows w ρ → Lockstep AtHeap Shown w (act env) (act' ρ)) :
    Lockstep FrameShows Shown w (Frame.within act) (within act') := by
  rintro ⟨env, h⟩ ρ ⟨rfl, henv⟩
  have run := hact env ρ henv h () rfl
  simp only [Frame.within, within]
  generalize act env h = o at run
  generalize act' ρ () = o' at run
  -- However the run ends, what was visible still shows, for the heap has only grown.
  cases run with
  | exhausted => exact .exhausted
  | stop hle hs => exact .stop hle ⟨hs, henv.mono hle⟩
  | ok hle hs hv => exact .ok hle ⟨hs, henv.mono hle⟩ hv

theorem enclosed_lockstep {act : Action Frame Value} {act' : Action Bindings PureValue}
    {env : Environment} {ρ : Bindings} (henv : env.Shows w ρ)
    (hact : Lockstep FrameShows Shown w act act') :
    Lockstep AtHeap Shown w (Frame.enclosed env act) (enclosed ρ act') := by
  rintro h - rfl
  have run := hact ⟨env, h⟩ ρ ⟨rfl, henv⟩
  simp only [Frame.enclosed, enclosed]
  generalize act ⟨env, h⟩ = o at run
  generalize act' ρ = o' at run
  -- What was declared inside is forgotten on both sides.
  cases run with
  | exhausted => exact .exhausted
  | stop hle hs => exact .stop hle hs.heap
  | ok hle hs hv => exact .ok hle hs.heap hv

/-! ### The rules

In this section `evaluator` and `pure` stand for the two evaluations of the nodes below. -/

section Rules

variable {ctx : Context} {evaluator : LexCell.Evaluator} {pureEvaluator : Evaluator}
  (below : ∀ w id env ρ, env.Shows w ρ →
    Lockstep AtHeap Shown w (evaluator id env) (pureEvaluator id ρ))

include below

theorem declareAll_lockstep (ds : List Declaration) (w : Heap) :
    Lockstep FrameShows Shown w (Frame.declareAll evaluator ds) (declareAll pureEvaluator ds) := by
  induction ds generalizing w with
  | nil => exact .pure .void
  | cons d ds ih =>
      unfold Frame.declareAll declareAll
      refine Lockstep.bind (within_lockstep (below w d.init)) ?_
      intro w' v p _ hv
      exact Lockstep.bind (declare_lockstep d.name hv) fun w _ _ _ _ => ih w

theorem statement_lockstep (id : NodeId) (w : Heap) :
    Lockstep FrameShows Shown w (ctx.statement evaluator id) (statement ctx pureEvaluator id) := by
  unfold Context.statement statement
  refine Lockstep.bind (Lockstep.deref _) ?_
  rintro w' node _ - ⟨rfl, -⟩
  cases node with
  | bind span =>
      refine Lockstep.bind (Lockstep.deref _) ?_
      rintro w' ds _ - ⟨rfl, -⟩
      exact declareAll_lockstep below ds w'
  | _ => exact within_lockstep (below w' id)

theorem statements_lockstep (ids : List NodeId) {last : Value} {last' : PureValue} (w : Heap)
    (hlast : last.Shows w last') :
    Lockstep FrameShows Shown w (ctx.statements evaluator last ids)
      (statements ctx pureEvaluator last' ids) := by
  induction ids generalizing last last' w with
  | nil => exact .pure hlast
  | cons id ids ih =>
      unfold Context.statements statements
      refine Lockstep.bind (statement_lockstep below id w) ?_
      intro w' v p _ hv
      exact ih w' hv

/-- **One level of the two evaluations in lockstep**, if the level below is. -/
theorem step_lockstep (constant : ctx.arena.Constant) (w : Heap)
    (id : NodeId) (env : Environment) (ρ : Bindings) (henv : env.Shows w ρ) :
    Lockstep AtHeap Shown w (ctx.step evaluator id env) (step ctx pureEvaluator id ρ) := by
  unfold Context.step step
  refine Lockstep.bind (Lockstep.deref _) ?_
  rintro w node _ hle ⟨rfl, hn⟩
  -- Reading the node changed nothing, and the environment shows in the heap as before.
  replace henv := henv.mono hle
  cases node with
  | number n => exact .pure (.number n)
  | boolean b => exact .pure (.boolean b)
  | unary op x =>
      refine Lockstep.bind (below w x env ρ henv) ?_
      intro w v p _ hv
      rw [← unary_apply_outline op hv]
      exact ofExcept_lockstep id fun _ hw => UnaryOp.apply_ne_function hw
  | binary op x y =>
      refine Lockstep.bind (below w x env ρ henv) ?_
      intro w₁ v p hle hv
      -- The first operand may have added cells; what was visible shows in the heap that has them.
      refine Lockstep.bind (below w₁ y env ρ (henv.mono hle)) ?_
      intro w₂ v' p' hle' hv'
      rw [← binary_apply_outline op (hv.mono hle') hv']
      exact ofExcept_lockstep id fun _ hw => BinaryOp.apply_ne_function hw
  | logical op x y =>
      refine Lockstep.bind (below w x env ρ henv) ?_
      intro w₁ v p hle₁ hv
      refine Lockstep.bind (expectBoolean_lockstep hv _ id) ?_
      rintro w₂ a _ hle₂ rfl
      split
      · exact .pure (.boolean a)
      · refine Lockstep.bind (below w₂ y env ρ (henv.mono (hle₁.trans hle₂))) ?_
        intro w₃ v p _ hv
        refine Lockstep.bind (expectBoolean_lockstep hv _ id) ?_
        rintro w₄ b _ - rfl
        exact .pure (.boolean b)
  | conditional x y z =>
      refine Lockstep.bind (below w x env ρ henv) ?_
      intro w₁ v p hle₁ hv
      refine Lockstep.bind (expectBoolean_lockstep hv _ id) ?_
      rintro w₂ b _ hle₂ rfl
      have henv := henv.mono (hle₁.trans hle₂)
      split
      · exact below w₂ y env ρ henv
      · exact below w₂ z env ρ henv
  | ident x => exact ident_lockstep ctx henv x id
  | bind span =>
      refine Lockstep.bind (Lockstep.deref _) ?_
      rintro w₁ ds _ hle ⟨rfl, -⟩
      exact enclosed_lockstep (henv.mono hle) (declareAll_lockstep below ds w₁)
  | function param body => exact .pure (Value.Shows.function_iff.mpr ⟨ρ, rfl, henv⟩)
  | call x y =>
      refine Lockstep.bind (below w x env ρ henv) ?_
      intro w₁ v p hle hv
      cases v with
      | function c =>
          obtain ⟨scope, rfl, hscope⟩ := Value.Shows.function_iff.mp hv
          refine Lockstep.bind (below w₁ y env ρ (henv.mono hle)) ?_
          intro w₂ v p hle hv
          -- The cell for the argument is all that the call adds to the heap.
          rintro h - rfl
          have body := below (h.alloc v).2 c.body _ _ ((hscope.mono hle).bind hv c.param)
          -- What comes out of the body is about a heap that is later than this one.
          exact (body _ () rfl).mono (h.le_alloc v)
      | _ =>
          cases hv
          exact .stop _
  -- This is where the arena without assignments comes in.
  | assign x y => exact absurd hn (constant id x y)
  | block span =>
      refine enclosed_lockstep henv ?_
      unfold Context.sequence sequence
      refine Lockstep.bind (Lockstep.deref _) ?_
      rintro w ids _ - ⟨rfl, -⟩
      exact statements_lockstep below ids w .void
  | malformed token => exact .stop _

end Rules

/-- **The two evaluations run in lockstep.** -/
theorem eval_lockstep {ctx : Context} (constant : ctx.arena.Constant)
    (fuel : Nat) (w : Heap) (id : NodeId) (env : Environment) (ρ : Bindings)
    (henv : env.Shows w ρ) :
    Lockstep AtHeap Shown w (ctx.eval fuel id env) (eval ctx fuel id ρ) := by
  -- The heap is not fixed, since the parts of a rule start in later ones.
  induction fuel generalizing w id env ρ with
  | zero => exact .exhausted
  | succ fuel ih => exact step_lockstep ih constant w id env ρ henv

/-- Both runs of a list of statements from nothing end alike. -/
theorem alike {ctx : Context} (constant : ctx.arena.Constant) (fuel : Nat) (ids : List NodeId) :
    Alike FrameShows Shown Heap.empty
      (ctx.statements (ctx.eval fuel) .void ids Frame.initial)
      (statements ctx (eval ctx fuel) .void ids Bindings.empty) :=
  statements_lockstep (eval_lockstep constant fuel) ids Heap.empty .void _ _
    ⟨rfl, Environment.Shows.empty _⟩

variable {ctx : Context} {fuel : Nat} {ids : List NodeId}

/-- What a run with a heap yields shows as what the run without one yields. -/
theorem exists_answer_of_run (constant : ctx.arena.Constant) {r : Except Stop Value} {f : Frame}
    (answer : ctx.statements (ctx.eval fuel) .void ids Frame.initial = some (r, f)) :
    ∃ q ρ, statements ctx (eval ctx fuel) .void ids Bindings.empty = some (q, ρ) ∧
      OutcomeShows f.heap r q ∧ f.env.Shows f.heap ρ := by
  have alike := alike constant fuel ids
  rw [answer] at alike
  generalize statements ctx (eval ctx fuel) .void ids Bindings.empty = o at alike
  cases alike with
  | stop _ shown =>
      obtain ⟨rfl, env⟩ := shown
      exact ⟨_, _, rfl, .error _, env⟩
  | ok _ shown value =>
      obtain ⟨rfl, env⟩ := shown
      exact ⟨_, _, rfl, .ok value, env⟩

/-- What a run without a heap yields is what the run with one shows. -/
theorem exists_run_of_answer (constant : ctx.arena.Constant) {q : Except Stop PureValue}
    {ρ : Bindings}
    (answer : statements ctx (eval ctx fuel) .void ids Bindings.empty = some (q, ρ)) :
    ∃ r f, ctx.statements (ctx.eval fuel) .void ids Frame.initial = some (r, f) ∧
      OutcomeShows f.heap r q := by
  have alike := alike constant fuel ids
  rw [answer] at alike
  generalize ctx.statements (ctx.eval fuel) .void ids Frame.initial = o at alike
  cases alike with
  | stop _ shown => exact ⟨_, _, rfl, .error _⟩
  | ok _ shown value =>
      obtain ⟨rfl, -⟩ := shown
      exact ⟨_, _, rfl, .ok value⟩

end HeapFree

/-- **Without assignments the heap cannot be seen.** Of statements that run from nothing in an arena
without assignments: at every moment all cells keep what they hold from there on, and the functions
in them see older cells only. If the run ends, then so does the one without a heap, nesting as deep,
and what the first yields shows through its heap as what the second yields and as nothing else; the
same goes for all that is visible at the end. If the run without a heap ends, then so does the one
with a heap, and the outcomes correspond. -/
theorem Context.heap_cannot_be_seen (ctx : Context) (constant : ctx.arena.Constant)
    (ids : List NodeId) :
    (∀ m, ctx.Reaches (Frame.initial.start ids) m →
      (∀ m', ctx.Reaches m m' → ∀ s v, m.heap.get? s = some v → m'.heap.get? s = some v) ∧
      ∀ s c, m.heap.get? s = some (.function c) →
        ∀ x t, c.env.resolve x = some t → t.index < s.index) ∧
    (∀ fuel r f, ctx.statements (ctx.eval fuel) .void ids Frame.initial = some (r, f) →
      ctx.Reaches (Frame.initial.start ids) (f.finish r) ∧
      ∃ q ρ, HeapFree.statements ctx (HeapFree.eval ctx fuel) .void ids Bindings.empty =
          some (q, ρ) ∧
        OutcomeShows f.heap r q ∧ (∀ q', OutcomeShows f.heap r q' → q' = q) ∧
        f.env.Shows f.heap ρ) ∧
    ∀ fuel q ρ, HeapFree.statements ctx (HeapFree.eval ctx fuel) .void ids Bindings.empty =
        some (q, ρ) →
      ∃ r f, ctx.statements (ctx.eval fuel) .void ids Frame.initial = some (r, f) ∧
        OutcomeShows f.heap r q := by
  refine ⟨?_, ?_, ?_⟩
  · intro m hm
    have start := Frame.initial_obeys constant ids
    obtain ⟨born, run⟩ := hm.run
    constructor
    · intro m' hm'
      obtain ⟨born', run'⟩ := hm'.run
      exact (start.run run).heap_le run'
    · exact start.layered nofun run
  · intro fuel r f answer
    obtain ⟨q, ρ, answer', outcome, env⟩ := HeapFree.exists_answer_of_run constant answer
    have unique (q' : Except Stop PureValue) (outcome' : OutcomeShows f.heap r q') : q' = q :=
      outcome'.functional outcome
    exact ⟨Context.reaches_finish_iff.mpr ⟨fuel, answer⟩, q, ρ, answer', outcome, unique, env⟩
  · intro fuel q ρ answer
    exact HeapFree.exists_run_of_answer constant answer

/-- The small program assigns to nothing and yields `1`, with a heap and without. -/
theorem Program.sample_heap_cannot_be_seen :
    Program.sample.arena.Constant ∧
      ∃ ρ, HeapFree.statements ⟨Program.sample.arena, Interner.sample⟩
        (HeapFree.eval ⟨Program.sample.arena, Interner.sample⟩ 5) .void [⟨2⟩, ⟨5⟩] Bindings.empty =
          some (.ok (.number 1), ρ) := by
  have constant : Program.sample.arena.Constant := by
    intro id x v hn
    have mem := Array.mem_of_getElem? hn
    simp [Program.sample] at mem
  refine ⟨constant, ?_⟩
  obtain ⟨-, runs, -⟩ := Context.heap_cannot_be_seen ⟨Program.sample.arena, Interner.sample⟩
    constant [⟨2⟩, ⟨5⟩]
  have answer : (Program.sample.run Interner.sample 5).map (·.1) = some (.ok (.number 1)) := by
    decide +kernel
  obtain ⟨⟨r, f⟩, e, rfl⟩ := Option.map_eq_some_iff.mp answer
  obtain ⟨-, q, ρ, answer', outcome, -⟩ := runs 5 _ f e
  cases outcome with
  | ok value =>
      cases value
      exact ⟨ρ, answer'⟩

end LexCell
