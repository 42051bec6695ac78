import LexCell.Proofs.HeapFree.Constant
import LexCell.Proofs.Unbounded

/-!
# One after the other

Statements and declarations are run in order, each in the frame that the one before it left, and a
stop ends the run in the frame in which it was met: nothing is taken back. So a list of statements
may be cut anywhere, and so may the declarations of a `let`
(`Context.statements_append`, `Frame.declareAll_append`). When a first value stops, exactly the
names before it have become variables, each with a cell of its own (`Frame.declareAll_env`).

A program, which runs its statements in a fresh frame, and a block of these statements, which runs
them in a scope of its own, do the same.
-/

namespace LexCell

/-! ### Statements -/

namespace Context

variable {ctx : Context} {rec : Evaluator} {last v : Value} {xs ys : List NodeId} {f f' : Frame}

/-- Statements run one list after the other. -/
theorem statements_append (rec : Evaluator) (last : Value) (xs ys : List NodeId) :
    ctx.statements rec last (xs ++ ys) =
      ctx.statements rec last xs >>= fun v => ctx.statements rec v ys := by
  induction xs generalizing last with
  | nil => rfl
  | cons x xs ih =>
      simp only [List.cons_append, statements, bind_assoc]
      exact bind_congr fun v => ih v

/-- A stop is not followed by further statements. -/
theorem statements_append_of_error {e : Stop}
    (hx : ctx.statements rec last xs f = some (.error e, f')) :
    ctx.statements rec last (xs ++ ys) f = some (.error e, f') := by
  rw [statements_append, Action.bind_apply, hx]

/-- Further statements, if there are any, go on from the frame that is left. The value so far is
lost on them. -/
theorem statements_append_of_ok (hx : ctx.statements rec last xs f = some (.ok v, f'))
    (hy : ys ≠ []) : ctx.statements rec last (xs ++ ys) f = ctx.statements rec .void ys f' := by
  rw [statements_append, Action.bind_apply, hx]
  -- The value so far only counts when nothing follows.
  cases ys with
  | nil => exact absurd rfl hy
  | cons y ys => rfl

end Context

/-! ### Declarations -/

def Arena.Binds (a : Arena) (id : NodeId) (ds : List Declaration) : Prop :=
  ∃ span, a.node? id = some (.bind span) ∧ a.declarations? span = some ds

/-- A `let` as a statement declares in the frame itself. -/
theorem Context.statement_of_binds {ctx : Context} {id : NodeId} {ds : List Declaration}
    (h : ctx.arena.Binds id ds) (rec : Evaluator) :
    ctx.statement rec id = Frame.declareAll rec ds := by
  obtain ⟨span, hn, hd⟩ := h
  unfold Context.statement
  rw [hn, Action.deref_some, Action.pure_bind]
  dsimp only
  rw [hd]
  rfl

def Environment.bindAll (env : Environment) (pairs : List (Name × Slot)) : Environment :=
  pairs.foldl (fun env (x, s) => env.bind x s) env

/-- The cells are all different, in the order of their making, and were made while the heap grew
from `lo` cells to `hi`. -/
structure Slot.Fresh (lo hi : Nat) (slots : List Slot) : Prop where
  le : lo ≤ hi
  ascending : slots.Pairwise fun s s' => s.index < s'.index
  bounds : ∀ s ∈ slots, lo ≤ s.index ∧ s.index < hi

/-- A cell that was made before the others. -/
theorem Slot.Fresh.cons {lo mid hi : Nat} {slots : List Slot} (h : Slot.Fresh (mid + 1) hi slots)
    (hle : lo ≤ mid) : Slot.Fresh lo hi (⟨mid⟩ :: slots) := by
  obtain ⟨le, ascending, bounds⟩ := h
  refine ⟨by omega, List.pairwise_cons.mpr ⟨fun s hs => (bounds s hs).1, ascending⟩, ?_⟩
  intro s hs
  -- The first cell is the one at `mid`; the others were made after it.
  rcases List.mem_cons.mp hs with rfl | hs
  · exact ⟨hle, le⟩
  · have := bounds s hs
    omega

namespace Frame

variable {rec : Evaluator} {ds : List Declaration} {f f' : Frame}

/-- Declarations are made one list after the other. -/
theorem declareAll_append (rec : Evaluator) (ps qs : List Declaration) :
    declareAll rec (ps ++ qs) = declareAll rec ps >>= fun _ => declareAll rec qs := by
  induction ps with
  | nil => rfl
  | cons p ps ih => simp only [List.cons_append, declareAll, bind_assoc, ih]

/-- The first value of the first declaration decides how declarations go on. -/
theorem declareAll_cons (d : Declaration) (ds : List Declaration) (f : Frame) :
    declareAll rec (d :: ds) f =
      match rec d.init f.env f.heap with
      | some (.ok v, heap) =>
          declareAll rec ds ⟨f.env.bind d.name ⟨heap.size⟩, (heap.alloc v).2⟩
      | some (.error e, heap) => some (.error e, { f with heap })
      | none => none := by
  rw [declareAll, Action.bind_apply]
  unfold within
  rcases rec d.init f.env f.heap with _ | ⟨_ | v, heap⟩ <;> rfl

/-- **Declarations that succeed bind their names, each to a cell of its own.** -/
theorem declareAll_env
    (grows : ∀ {id env h r h'}, rec id env h = some (r, h') → h.size ≤ h'.size) {v : Value}
    (answer : declareAll rec ds f = some (.ok v, f')) :
    v = .void ∧ ∃ slots, slots.length = ds.length ∧ Slot.Fresh f.heap.size f'.heap.size slots ∧
      f'.env = f.env.bindAll ((ds.map Declaration.name).zip slots) := by
  induction ds generalizing f with
  | nil =>
      cases answer
      exact ⟨rfl, [], rfl, ⟨Nat.le_refl _, .nil, nofun⟩, rfl⟩
  | cons d ds ih =>
      rw [declareAll_cons] at answer
      split at answer
      · next w heap first =>
        obtain ⟨hv, slots, length, fresh, env⟩ := ih answer
        -- The cells of the rest are made after that of the first name, which is made after its
        -- value.
        rw [Heap.size_alloc] at fresh
        exact ⟨hv, ⟨heap.size⟩ :: slots, congrArg Nat.succ length, fresh.cons (grows first), env⟩
      · cases answer
      · cases answer

/-- **Declarations stop at a first value, and those before it have been made.** -/
theorem exists_of_declareAll_error {e : Stop}
    (answer : declareAll rec ds f = some (.error e, f')) :
    ∃ ps d qs heap, ds = ps ++ d :: qs ∧
      declareAll rec ps f = some (.ok .void, ⟨f'.env, heap⟩) ∧
      rec d.init f'.env heap = some (.error e, f'.heap) := by
  induction ds generalizing f with
  | nil => cases answer
  | cons d ds ih =>
      rw [declareAll_cons] at answer
      split at answer
      · next v heap first => -- the first value is there, so the stop is met further on
        obtain ⟨ps, d', qs, heap', rfl, made, stopped⟩ := ih answer
        refine ⟨d :: ps, d', qs, heap', rfl, ?_, stopped⟩
        rw [declareAll_cons, first]
        exact made
      · next e' heap first =>
        cases answer
        -- The first value itself stops, and no name has been bound.
        exact ⟨[], d, ds, f.heap, rfl, rfl, first⟩
      · cases answer

end Frame

/-! ### Blocks and programs -/

theorem Frame.enclosed_eq_some_iff {α : Type} {act : Action Frame α} {env : Environment}
    {h h' : Heap} {r : Except Stop α} :
    Frame.enclosed env act h = some (r, h') ↔ ∃ f, act ⟨env, h⟩ = some (r, f) ∧ f.heap = h' := by
  unfold Frame.enclosed
  constructor
  · intro answer
    split at answer
    · next r f run =>
      cases answer
      exact ⟨f, run, rfl⟩
    · cases answer
  · rintro ⟨f, run, rfl⟩
    rw [run]

namespace Context

variable {ctx : Context}

/-- A block runs its statements in a frame that starts with the environment of the block. -/
theorem step_block {id : NodeId} {span : Span} (hn : ctx.arena.node? id = some (.block span))
    (rec : Evaluator) (env : Environment) :
    ctx.step rec id env = Frame.enclosed env (ctx.sequence rec span) := by
  unfold step
  rw [hn]
  rfl

/-- **A program ends as a block of its statements does** where nothing is visible. -/
theorem run_iff_block {body span : Span} {id : NodeId}
    (hn : ctx.arena.node? id = some (.block span))
    (same : ctx.arena.statements? body = ctx.arena.statements? span) {r : Except Stop Value}
    {h : Heap} :
    (∃ fuel f, Program.run ⟨ctx.arena, body⟩ ctx.interner fuel = some (r, f) ∧ f.heap = h) ↔
      ctx.ExpressionEnds id .empty .empty r h := by
  -- The block costs one level more than the statements in it.
  have level (fuel : Nat) : ctx.eval (fuel + 1) id .empty .empty = some (r, h) ↔
      ∃ f, Program.run ⟨ctx.arena, body⟩ ctx.interner fuel = some (r, f) ∧ f.heap = h := by
    have block : ctx.eval (fuel + 1) id .empty =
        Frame.enclosed .empty (ctx.sequence (ctx.eval fuel) body) := by
      have sequence : ctx.sequence (ctx.eval fuel) body = ctx.sequence (ctx.eval fuel) span := by
        unfold Context.sequence
        rw [same]
      rw [sequence]
      exact step_block hn (ctx.eval fuel) .empty
    rw [block]
    exact Frame.enclosed_eq_some_iff
  constructor
  · rintro ⟨fuel, run⟩
    exact ⟨fuel + 1, (level fuel).mpr run⟩
  · rintro ⟨_ | fuel, answer⟩
    · cases answer
    · exact ⟨fuel, (level fuel).mp answer⟩

/-! ### Runs that come to an end -/

/-- No evaluation takes a cell away. -/
theorem size_le_of_eval {fuel : Nat} {id : NodeId} {env : Environment} {h h' : Heap}
    {r : Except Stop Value} (answer : ctx.eval fuel id env h = some (r, h')) :
    h.size ≤ h'.size :=
  (reaches_of_eval answer []).size_le

/-- Declarations may be cut anywhere. -/
theorem declarationsEnd_append_iff {ps qs : List Declaration} {f f' : Frame}
    {r : Except Stop Value} :
    ctx.DeclarationsEnd (ps ++ qs) f r f' ↔
      (∃ e, r = .error e ∧ ctx.DeclarationsEnd ps f r f') ∨
        ∃ v f₁, ctx.DeclarationsEnd ps f (.ok v) f₁ ∧ ctx.DeclarationsEnd qs f₁ r f' := by
  simp only [declarationsEnd_iff, Frame.declareAll_append, Action.bind_apply]
  -- The first part does not end, stops, or ends well; only then the second part has a say.
  rcases Frame.declareAll ctx.unbounded ps f with _ | ⟨e | v, f₁⟩
  · simp
  · simp only [Option.some.injEq, Prod.mk.injEq]
    constructor
    · rintro ⟨rfl, rfl⟩
      exact .inl ⟨e, rfl, rfl, rfl⟩
    · rintro (⟨_, -, same⟩ | ⟨_, _, ⟨wrong, -⟩, -⟩)
      · exact same
      · cases wrong
  · simp only [Option.some.injEq, Prod.mk.injEq]
    constructor
    · intro rest
      exact .inr ⟨v, f₁, ⟨rfl, rfl⟩, rest⟩
    · rintro (⟨_, rfl, wrong, -⟩ | ⟨_, _, ⟨-, rfl⟩, rest⟩)
      · cases wrong
      · exact rest

/-- When a first value stops, exactly the names before it are bound, each to a cell of its own. -/
theorem exists_of_declarationsEnd_error {ds : List Declaration} {f f' : Frame} {e : Stop}
    (ends : ctx.DeclarationsEnd ds f (.error e) f') :
    ∃ ps d qs slots heap, ds = ps ++ d :: qs ∧
      ctx.DeclarationsEnd ps f (.ok .void) ⟨f'.env, heap⟩ ∧
      ctx.ExpressionEnds d.init f'.env heap (.error e) f'.heap ∧
      slots.length = ps.length ∧ Slot.Fresh f.heap.size heap.size slots ∧
      f'.env = f.env.bindAll ((ps.map Declaration.name).zip slots) := by
  obtain ⟨fuel, answer⟩ := ends
  obtain ⟨ps, d, qs, heap, rfl, made, stopped⟩ := Frame.exists_of_declareAll_error answer
  obtain ⟨-, slots, length, fresh, env⟩ := Frame.declareAll_env size_le_of_eval made
  exact ⟨ps, d, qs, slots, heap, rfl, ⟨fuel, made⟩, ⟨fuel, stopped⟩, length, fresh, env⟩

/-- How runs are put together from their parts. -/
structure Composes (ctx : Context) : Prop where
  /-- A list of one statement is that statement. -/
  single : ∀ id f r f', ctx.StatementsEnd [id] f r f' ↔ ctx.StatementEnds id f r f'
  /-- If statements stop, so they do with any further ones, wherever these are, and in the same
  frame. -/
  stop : ∀ xs f e f', ctx.StatementsEnd xs f (.error e) f' → ∀ ys r f'',
    ctx.StatementsEnd (xs ++ ys) f r f'' ↔ r = .error e ∧ f'' = f'
  /-- If they yield a value, further ones do from the frame that is left what they do alone. -/
  value : ∀ xs f v f', ctx.StatementsEnd xs f (.ok v) f' → ∀ ys, ys ≠ [] → ∀ r f'',
    ctx.StatementsEnd (xs ++ ys) f r f'' ↔ ctx.StatementsEnd ys f' r f''
  /-- A `let` as a statement makes its declarations. -/
  declares : ∀ id ds, ctx.arena.Binds id ds → ∀ f r f',
    ctx.StatementEnds id f r f' ↔ ctx.DeclarationsEnd ds f r f'
  /-- These may be cut anywhere: the whole stops where the first part stops, and else ends as the
  second part does after the first. -/
  cut : ∀ ps qs f r f', ctx.DeclarationsEnd (ps ++ qs) f r f' ↔
    (∃ e, r = .error e ∧ ctx.DeclarationsEnd ps f r f') ∨
      ∃ v f₁, ctx.DeclarationsEnd ps f (.ok v) f₁ ∧ ctx.DeclarationsEnd qs f₁ r f'
  /-- When a first value stops, the frame that is left is the one in which it was evaluated. Exactly
  the names before it have been bound in it, each to a cell of its own. -/
  stopped : ∀ ds f e f', ctx.DeclarationsEnd ds f (.error e) f' →
    ∃ ps d qs slots heap, ds = ps ++ d :: qs ∧
      ctx.DeclarationsEnd ps f (.ok .void) ⟨f'.env, heap⟩ ∧
      ctx.ExpressionEnds d.init f'.env heap (.error e) f'.heap ∧
      slots.length = ps.length ∧ Slot.Fresh f.heap.size heap.size slots ∧
      f'.env = f.env.bindAll ((ps.map Declaration.name).zip slots)
  /-- A program runs its statements from nothing. -/
  program : ∀ body ids, ctx.arena.statements? body = some ids → ∀ r f,
    (∃ fuel, Program.run ⟨ctx.arena, body⟩ ctx.interner fuel = some (r, f)) ↔
      ctx.StatementsEnd ids Frame.initial r f
  /-- It ends as a block of the same statements does where nothing is visible, with the same value
  or stop and the same heap. -/
  block : ∀ body id span, ctx.arena.node? id = some (.block span) →
    ctx.arena.statements? body = ctx.arena.statements? span → ∀ r h,
      (∃ fuel f, Program.run ⟨ctx.arena, body⟩ ctx.interner fuel = some (r, f) ∧ f.heap = h) ↔
        ctx.ExpressionEnds id .empty .empty r h

/-- **Runs are put together from their parts, and a stop takes nothing back.** -/
theorem sequencing_composes (ctx : Context) : ctx.Composes where
  single id f r f' := by
    rw [statementsEnd_iff, statementEnds_iff]
    simp only [statements, bind_pure]
  stop xs f e f' ends ys r f'' := by
    rw [statementsEnd_iff, statements_append_of_error (statementsEnd_iff.mp ends)]
    constructor
    · rintro ⟨⟩
      exact ⟨rfl, rfl⟩
    · rintro ⟨rfl, rfl⟩
      rfl
  value xs f v f' ends ys hy r f'' := by
    rw [statementsEnd_iff, statementsEnd_iff,
      statements_append_of_ok (statementsEnd_iff.mp ends) hy]
  declares id ds binds f r f' := by
    rw [statementEnds_iff, declarationsEnd_iff, statement_of_binds binds]
  cut ps qs f r f' := declarationsEnd_append_iff
  stopped ds f e f' := exists_of_declarationsEnd_error
  program body ids hb r f := by
    simp only [Program.run_eq (p := ⟨ctx.arena, body⟩) hb]
    rfl
  block body id span hn same r h := run_iff_block hn same

end Context

/-- The nodes of `let x = 1; x = 2; 1 / 0`. -/
def Arena.stopping : Arena where
  nodes := #[.number 1, .bind ⟨0, 1⟩, .number 2, .assign ⟨2⟩ ⟨2⟩, .number 0, .binary .div ⟨0⟩ ⟨4⟩]
  declarations := #[⟨⟨2⟩, ⟨0⟩⟩]

/-- These statements stop at the division, also before a statement that is nowhere. The variable
stays, and so does what was written to it. -/
theorem Context.stopping_composes :
    StatementsEnd ⟨Arena.stopping, Interner.sample⟩ [⟨1⟩, ⟨3⟩, ⟨5⟩] Frame.initial
        (.error (.error ⟨.divisionByZero, some ⟨5⟩⟩)) ⟨.bind .empty ⟨2⟩ ⟨0⟩, ⟨#[.number 2]⟩⟩ ∧
      StatementsEnd ⟨Arena.stopping, Interner.sample⟩ ([⟨1⟩, ⟨3⟩, ⟨5⟩] ++ [⟨6⟩]) Frame.initial
        (.error (.error ⟨.divisionByZero, some ⟨5⟩⟩)) ⟨.bind .empty ⟨2⟩ ⟨0⟩, ⟨#[.number 2]⟩⟩ := by
  have ends : StatementsEnd ⟨Arena.stopping, Interner.sample⟩ [⟨1⟩, ⟨3⟩, ⟨5⟩] Frame.initial
      (.error (.error ⟨.divisionByZero, some ⟨5⟩⟩)) ⟨.bind .empty ⟨2⟩ ⟨0⟩, ⟨#[.number 2]⟩⟩ :=
    ⟨2, by decide +kernel⟩
  have composes := sequencing_composes ⟨Arena.stopping, Interner.sample⟩
  exact ⟨ends, (composes.stop _ _ _ _ ends [⟨6⟩] _ _).mpr ⟨rfl, rfl⟩⟩

end LexCell
