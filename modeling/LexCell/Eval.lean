import LexCell.Action
import LexCell.Interner
import LexCell.Operator.Apply

/-!
# Evaluation

Expressions are evaluated in an environment that they cannot change; statements run in a frame whose
environment grows with every `let`. Operands are evaluated from left to right, and the first stop is
the outcome of the whole run.

One level of evaluation (`step`) is written over an evaluator for the nodes below, so that every
rule stands by itself. `eval` ties the knot with fuel: the fuel bounds how deep evaluations nest.
-/

namespace LexCell

/-- Where nodes are looked up, and where the texts for error messages come from. -/
structure Context where
  arena : Arena
  interner : Interner

/-- A way of evaluating the expression at a node. -/
abbrev Evaluator : Type := NodeId → Environment → Action Heap Value

/-! ### The parts of the rules -/

/-- The truth value of an operand that the node at `id` needs. -/
def Value.expectBoolean {σ : Type} (v : Value) (context : String) (id : NodeId) : Action σ Bool :=
  match v with
  | .boolean b => pure b
  | v => .fail (.typeMismatch context .boolean v.kind) id

/-- Calls a function: its body runs where the function was made, with the parameter as a new
variable. -/
def Closure.call (c : Closure) (rec : Evaluator) (argument : Value) : Action Heap Value := do
  rec c.body (← Heap.extend c.env c.param argument)

/-- Declares names one by one, each visible to the initial values after it. -/
def Frame.declareAll (rec : Evaluator) : List Declaration → Action Frame Value
  | [] => return .void
  | d :: ds => do
      let v ← Frame.within (rec d.init)
      Frame.declare d.name v
      declareAll rec ds

namespace Context

variable (ctx : Context)

def unbound {σ α : Type} (n : Name) (id : NodeId) : Action σ α :=
  .fail (.unboundIdentifier (ctx.interner.textOrNumber n)) id

/-- A statement: a `let` declares in the frame itself, all else is an expression. -/
def statement (rec : Evaluator) (id : NodeId) : Action Frame Value := do
  match ← Action.deref (ctx.arena.node? id) with
  | .bind span => Frame.declareAll rec (← Action.deref (ctx.arena.declarations? span))
  | _ => Frame.within (rec id)

/-- Statements in order. The value is that of the last, or the one given if there is none. -/
def statements (rec : Evaluator) (last : Value) : List NodeId → Action Frame Value
  | [] => return last
  | id :: ids => do
      let v ← ctx.statement rec id
      statements rec v ids

def sequence (rec : Evaluator) (span : Span) : Action Frame Value := do
  ctx.statements rec .void (← Action.deref (ctx.arena.statements? span))

/-! ### One level -/

/-- Evaluates the node at `id`, leaving what it refers to to `rec`. -/
def step (rec : Evaluator) (id : NodeId) (env : Environment) : Action Heap Value := do
  match ← Action.deref (ctx.arena.node? id) with
  | .number n => return .number n
  | .boolean b => return .boolean b
  | .unary op operand => do
      let v ← rec operand env
      Action.ofExcept id (op.apply v)
  | .binary op left right => do
      let a ← rec left env
      let b ← rec right env
      Action.ofExcept id (op.apply a b)
  | .logical op left right => do
      let a ← (← rec left env).expectBoolean op.context id
      if a = op.absorbing then return .boolean a
      else return .boolean (← (← rec right env).expectBoolean op.context id)
  | .conditional test consequent alternate => do
      if ← (← rec test env).expectBoolean "conditional" id then rec consequent env
      else rec alternate env
  | .ident n =>
      match env.resolve n with
      | some s => Heap.fetch s
      | none => ctx.unbound n id
  | .bind span => do
      -- Outside a list of statements nothing comes after it that could see the names.
      Frame.enclosed env (Frame.declareAll rec (← Action.deref (ctx.arena.declarations? span)))
  | .function param body => return .function ⟨env, param, body⟩
  | .call callee argument => do
      -- What is called is checked before the argument is evaluated.
      match ← rec callee env with
      | .function c => do c.call rec (← rec argument env)
      | v => .fail (.notCallable v.kind) id
  | .assign target value => -- the variable is looked for before its new value is computed
      match env.resolve target with
      | some s => do
          Heap.overwrite s (← rec value env)
          return .void
      | none => ctx.unbound target id
  | .block span => Frame.enclosed env (ctx.sequence rec span)
  | .malformed token => .fail (.unknownOperator (ctx.interner.textOrNumber token)) id

/-- Evaluates the expression at a node, nesting at most `fuel` deep. -/
def eval : Nat → Evaluator
  | 0 => fun _ _ => Action.exhausted
  | fuel + 1 => ctx.step (eval fuel)

end Context

/-- Runs the statements of a program from nothing; the texts of errors come from `t`. -/
def Program.run (p : Program) (t : Interner) (fuel : Nat) : Option (Except Stop Value × Frame) :=
  let ctx : Context := ⟨p.arena, t⟩
  ctx.sequence (ctx.eval fuel) p.body ⟨Environment.empty, Heap.empty⟩

end LexCell
