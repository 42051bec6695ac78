import LexCell.Eval
import Mathlib.Logic.Relation

/-!
# Evaluation, one move at a time

`Context.eval` answers how an evaluation ends. What holds at every moment of it, also of one that
never ends, needs the moments: a `Moment` is what is being done, what waits for it, and the heap,
and `Context.next` makes one move. Nothing is hidden in the definition of the evaluator: all that
exists at a moment, the environments of unfinished blocks and calls and the values of operands
already computed, stands in the moment itself.

A move makes at most one new cell, and `Moment.birth?` says which. `Context.Run` collects these
births along the way, so it is the history of the heap.

`LexCell.Proofs.Machine.Adequacy` shows that the moves end exactly as `Context.eval` says.
-/

namespace LexCell

inductive Focus where
  /-- The expression at a node is to be evaluated. -/
  | expression (id : NodeId) (env : Environment)
  /-- The node is to be run as a statement. -/
  | statement (id : NodeId) (env : Environment)
  /-- Statements are left; `last` is the value so far. -/
  | statements (ids : List NodeId) (last : Value) (env : Environment)
  /-- Declarations of the `let` at `bind` are left, from number `index` on. -/
  | declarations (bind : NodeId) (index : Nat) (ds : List Declaration) (env : Environment)
  /-- An expression has yielded a value or stopped. -/
  | outcome (r : Except Stop Value)
  /-- Statements or declarations have ended, or stopped, with this much visible. -/
  | ended (r : Except Stop Value) (env : Environment)

/-- What waits for an outcome, with all that it needs to go on. The node is the one whose
evaluation waits. -/
inductive Pending where
  | operand (id : NodeId) (op : UnaryOp)
  | left (id : NodeId) (op : BinaryOp) (right : NodeId) (env : Environment)
  | right (id : NodeId) (op : BinaryOp) (a : Value)
  | guard (id : NodeId) (op : LogicalOp) (right : NodeId) (env : Environment)
  | truth (id : NodeId) (op : LogicalOp)
  | test (id : NodeId) (consequent alternate : NodeId) (env : Environment)
  | callee (id : NodeId) (argument : NodeId) (env : Environment)
  | argument (id : NodeId) (c : Closure)
  | assigned (id : NodeId) (target : Name) (s : Slot)
  /-- A declared name waits for its first value. -/
  | declared (bind : NodeId) (index : Nat) (d : Declaration) (rest : List Declaration)
      (env : Environment)
  /-- An expression that is a statement; the environment goes back to the statements. -/
  | within (env : Environment)
  /-- The statements after the one that runs. -/
  | sequence (rest : List NodeId)
  /-- A scope that is forgotten at its end. -/
  | enclosed

/-- A stop of an expression passes through what waits for its value only. -/
def Pending.Passes : Pending → Prop
  -- These wait for the end of a list or for a value that becomes part of one, and turn a stop into
  -- the end of the list.
  | .declared .. | .within _ | .sequence _ | .enclosed => False
  | _ => True

structure Moment where
  focus : Focus
  pending : List Pending
  heap : Heap

/-- How a cell came to be: for a declared name, or for the argument of a call. -/
inductive Birth where
  | declaration (bind : NodeId) (index : Nat) (name : Name)
  | argument (c : Closure)

def Birth.name : Birth → Name
  | declaration _ _ name => name
  | argument c => c.param

def Stop.outcomeAt (id : NodeId) : Except EvalError.Cause Value → Except Stop Value
  | .ok v => .ok v
  | .error c => .error (.error ⟨c, some id⟩)

/-- The new cell that the next move makes, if it makes one. -/
def Moment.birth? : Moment → Option Birth
  | ⟨.outcome (.ok _), .declared bind index d _ _ :: _, _⟩ =>
      some (.declaration bind index d.name)
  | ⟨.outcome (.ok _), .argument _ c :: _, _⟩ => some (.argument c)
  | _ => none

namespace Context

variable (ctx : Context)

/-! ### Moves

The functions below make one move each, and together they are total: what is not there is a stop for
a reference that dangles. A moment without a next one is the end of the run. -/

def unboundAt (n : Name) (id : NodeId) : Stop :=
  .error ⟨.unboundIdentifier (ctx.interner.textOrNumber n), some id⟩

def enter (id : NodeId) (env : Environment) (k : List Pending) (h : Heap) : Moment :=
  match ctx.arena.node? id with
  | none => ⟨.outcome (.error .dangling), k, h⟩
  | some (.number n) => ⟨.outcome (.ok (.number n)), k, h⟩
  | some (.boolean b) => ⟨.outcome (.ok (.boolean b)), k, h⟩
  | some (.unary op operand) => ⟨.expression operand env, .operand id op :: k, h⟩
  | some (.binary op left right) => ⟨.expression left env, .left id op right env :: k, h⟩
  | some (.logical op left right) => ⟨.expression left env, .guard id op right env :: k, h⟩
  | some (.conditional test consequent alternate) =>
      ⟨.expression test env, .test id consequent alternate env :: k, h⟩
  | some (.ident n) =>
      match env.resolve n with
      | none => ⟨.outcome (.error (ctx.unboundAt n id)), k, h⟩
      | some s =>
          match h.get? s with
          | none => ⟨.outcome (.error .dangling), k, h⟩
          | some v => ⟨.outcome (.ok v), k, h⟩
  | some (.bind span) =>
      match ctx.arena.declarations? span with
      | none => ⟨.outcome (.error .dangling), k, h⟩
      | some ds => ⟨.declarations id 0 ds env, .enclosed :: k, h⟩
  | some (.function param body) => ⟨.outcome (.ok (.function ⟨env, param, body⟩)), k, h⟩
  | some (.call callee argument) => ⟨.expression callee env, .callee id argument env :: k, h⟩
  | some (.assign target value) =>
      match env.resolve target with
      | none => ⟨.outcome (.error (ctx.unboundAt target id)), k, h⟩
      | some s => ⟨.expression value env, .assigned id target s :: k, h⟩
  | some (.block span) =>
      match ctx.arena.statements? span with
      | none => ⟨.outcome (.error .dangling), k, h⟩
      | some ids => ⟨.statements ids .void env, .enclosed :: k, h⟩
  | some (.malformed token) =>
      ⟨.outcome (.error (.error
        ⟨.unknownOperator (ctx.interner.textOrNumber token), some id⟩)), k, h⟩

def perform (id : NodeId) (env : Environment) (k : List Pending) (h : Heap) : Moment :=
  match ctx.arena.node? id with
  | none => ⟨.ended (.error .dangling) env, k, h⟩
  | some (.bind span) =>
      match ctx.arena.declarations? span with
      | none => ⟨.ended (.error .dangling) env, k, h⟩
      | some ds => ⟨.declarations id 0 ds env, k, h⟩
  | some _ => ⟨.expression id env, .within env :: k, h⟩

/-- Gives a value to what waits for it. -/
def resume (v : Value) (k : List Pending) (h : Heap) : Pending → Option Moment
  | .operand id op => some ⟨.outcome (Stop.outcomeAt id (op.apply v)), k, h⟩
  | .left id op right env => some ⟨.expression right env, .right id op v :: k, h⟩
  | .right id op a => some ⟨.outcome (Stop.outcomeAt id (op.apply a v)), k, h⟩
  | .guard id op right env =>
      match v with
      | .boolean b =>
          if b = op.absorbing then some ⟨.outcome (.ok (.boolean b)), k, h⟩
          else some ⟨.expression right env, .truth id op :: k, h⟩
      | v => some ⟨.outcome (.error (.error
          ⟨.typeMismatch op.context .boolean v.kind, some id⟩)), k, h⟩
  | .truth id op =>
      match v with
      | .boolean b => some ⟨.outcome (.ok (.boolean b)), k, h⟩
      | v => some ⟨.outcome (.error (.error
          ⟨.typeMismatch op.context .boolean v.kind, some id⟩)), k, h⟩
  | .test id consequent alternate env =>
      match v with
      | .boolean true => some ⟨.expression consequent env, k, h⟩
      | .boolean false => some ⟨.expression alternate env, k, h⟩
      | v => some ⟨.outcome (.error (.error
          ⟨.typeMismatch "conditional" .boolean v.kind, some id⟩)), k, h⟩
  | .callee id argument env =>
      match v with
      | .function c => some ⟨.expression argument env, .argument id c :: k, h⟩
      | v => some ⟨.outcome (.error (.error ⟨.notCallable v.kind, some id⟩)), k, h⟩
  -- The only moves that make a cell are this one and the one for declarations.
  | .argument _ c =>
      some ⟨.expression c.body (c.env.bind c.param (h.alloc v).1), k, (h.alloc v).2⟩
  | .assigned _ _ s =>
      match h.set? s v with
      | none => some ⟨.outcome (.error .dangling), k, h⟩
      | some h => some ⟨.outcome (.ok .void), k, h⟩
  | .declared bind index d rest env =>
      some ⟨.declarations bind (index + 1) rest (env.bind d.name (h.alloc v).1), k, (h.alloc v).2⟩
  | .within env => some ⟨.ended (.ok v) env, k, h⟩
  | .sequence _ => none
  | .enclosed => none

/-- Lets a stop pass through what waits for a value. -/
def unwind (e : Stop) (k : List Pending) (h : Heap) : Pending → Option Moment
  | .declared _ _ _ _ env => some ⟨.ended (.error e) env, k, h⟩
  | .within env => some ⟨.ended (.error e) env, k, h⟩
  | .sequence _ => none
  | .enclosed => none
  | _ => some ⟨.outcome (.error e), k, h⟩

/-- Goes on after statements or declarations have ended. -/
def leave (r : Except Stop Value) (env : Environment) (k : List Pending) (h : Heap) :
    Pending → Option Moment
  | .enclosed => some ⟨.outcome r, k, h⟩
  | .sequence rest =>
      match r with
      | .ok v => some ⟨.statements rest v env, k, h⟩
      | .error e => some ⟨.ended (.error e) env, k, h⟩
  | _ => none

/-- The move from a moment to the next; there is none where nothing waits for what came out. -/
def next (m : Moment) : Option Moment :=
  match m.focus with
  | .expression id env => some (ctx.enter id env m.pending m.heap)
  | .statement id env => some (ctx.perform id env m.pending m.heap)
  | .statements [] last env => some ⟨.ended (.ok last) env, m.pending, m.heap⟩
  | .statements (id :: ids) _ env => some ⟨.statement id env, .sequence ids :: m.pending, m.heap⟩
  | .declarations _ _ [] env => some ⟨.ended (.ok .void) env, m.pending, m.heap⟩
  | .declarations bind index (d :: ds) env =>
      some ⟨.expression d.init env, .declared bind index d ds env :: m.pending, m.heap⟩
  | .outcome r =>
      match m.pending, r with
      | [], _ => none
      | p :: k, .ok v => resume v k m.heap p
      | p :: k, .error e => unwind e k m.heap p
  | .ended r env =>
      match m.pending with
      | [] => none
      | p :: k => leave r env k m.heap p

variable {ctx}

/-- A stop passes what waits for a value in one move. -/
theorem next_outcome_error (e : Stop) {p : Pending} (hp : p.Passes) (k : List Pending)
    (h : Heap) : ctx.next ⟨.outcome (.error e), p :: k, h⟩ = some ⟨.outcome (.error e), k, h⟩ := by
  cases p <;> first | rfl | cases hp

/-! ### Runs

A run is any number of moves. It need not end; nor need it be known how many moves there are. -/

variable (ctx)

def Reaches : Moment → Moment → Prop :=
  Relation.ReflTransGen fun m m' => ctx.next m = some m'

/-- Moves with the cells that they made, in order. -/
inductive Run : Moment → List Birth → Moment → Prop where
  | refl (m : Moment) : Run m [] m
  | move {m m₁ m₂ : Moment} {births : List Birth} :
      Run m births m₁ → ctx.next m₁ = some m₂ → Run m (births ++ m₁.birth?.toList) m₂

variable {ctx}

/-- A run leads somewhere. -/
theorem Run.reaches {m m' : Moment} {births : List Birth} (h : ctx.Run m births m') :
    ctx.Reaches m m' := by
  induction h with
  | refl => exact .refl
  | move _ hm ih => exact ih.tail hm

/-- Every way is a run, whose births can be collected. -/
theorem Reaches.run {m m' : Moment} (h : ctx.Reaches m m') : ∃ births, ctx.Run m births m' := by
  induction h with
  | refl => exact ⟨[], .refl m⟩
  | tail _ hm ih =>
      obtain ⟨births, hr⟩ := ih
      exact ⟨_, hr.move hm⟩

def after? (ctx : Context) : Nat → Moment → Option Moment
  | 0, m => some m
  | moves + 1, m => do after? ctx moves (← ctx.next m)

/-- What is computed is a way. -/
theorem reaches_of_after? (moves : Nat) {m m' : Moment} (h : ctx.after? moves m = some m') :
    ctx.Reaches m m' := by
  induction moves generalizing m with
  | zero =>
      cases h
      exact .refl
  | succ moves ih =>
      obtain ⟨m₁, hm, rest⟩ := Option.bind_eq_some_iff.mp h
      exact (ih rest).head hm

end Context

def Frame.start (f : Frame) (ids : List NodeId) : Moment :=
  ⟨.statements ids .void f.env, [], f.heap⟩

def Frame.finish (f : Frame) (r : Except Stop Value) : Moment :=
  ⟨.ended r f.env, [], f.heap⟩

/-- The frame of a program before its first statement: nothing is visible and there is no cell. -/
def Frame.initial : Frame := ⟨Environment.empty, Heap.empty⟩

end LexCell
