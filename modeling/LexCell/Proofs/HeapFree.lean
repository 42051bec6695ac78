import LexCell.Eval

/-!
# Evaluation without a heap

Where nothing is assigned to, a name may as well stand for a value as for a cell that holds it. This
is the evaluator that does so: what is visible is a map from names to values (`Bindings`), a
function carries such a map, and an expression has nothing that it could change. The rules are those
of `Context.step`, in the same order; there is none for assignments.
-/

namespace LexCell

/-- What an expression evaluates to where there is no heap: a function carries the values that were
visible where it was made. -/
inductive PureValue where
  | number (n : Int64)
  | boolean (b : Bool)
  | function (scope : Name → Option PureValue) (param : Name) (body : NodeId)
  | void

abbrev Bindings : Type := Name → Option PureValue

namespace Bindings

def empty : Bindings := fun _ => none

def bind (ρ : Bindings) (x : Name) (v : PureValue) : Bindings := fun y =>
  if y = x then some v else ρ y

end Bindings

namespace PureValue

def kind : PureValue → Kind
  | number _ => .number
  | boolean _ => .boolean
  | function .. => .function
  | void => .void

/-- What operators see of a value. -/
def outline : PureValue → Value
  | number n => .number n
  | boolean b => .boolean b
  | function _ param body => .function ⟨Environment.empty, param, body⟩
  | void => .void

/-- A value in which nothing is carried along. -/
def ofOutline : Value → PureValue
  | .number n => number n
  | .boolean b => boolean b
  | .function c => function Bindings.empty c.param c.body
  | .void => void

end PureValue

namespace HeapFree

variable {α : Type}

abbrev Evaluator : Type := NodeId → Bindings → Action Unit PureValue

/-! ### The parts of the rules

What declares works on the visible bindings, what evaluates has no state at all, and the two
functions below lead from the one to the other. -/

def within (act : Bindings → Action Unit α) : Action Bindings α := fun ρ =>
  match act ρ () with
  | some (r, ()) => some (r, ρ)
  | none => none

/-- Runs an action on bindings of its own; what it makes visible is forgotten at its end. -/
def enclosed (ρ : Bindings) (act : Action Bindings α) : Action Unit α := fun _ =>
  match act ρ with
  | some (r, _) => some (r, ())
  | none => none

def declare (x : Name) (v : PureValue) : Action Bindings Unit := fun ρ => some (.ok (), ρ.bind x v)

def expectBoolean (v : PureValue) (context : String) (id : NodeId) : Action Unit Bool :=
  match v with
  | .boolean b => pure b
  | v => .fail (.typeMismatch context .boolean v.kind) id

def declareAll (rec : Evaluator) : List Declaration → Action Bindings PureValue
  | [] => return .void
  | d :: ds => do
      let v ← within (rec d.init)
      declare d.name v
      declareAll rec ds

variable (ctx : Context)

def statement (rec : Evaluator) (id : NodeId) : Action Bindings PureValue := do
  match ← Action.deref (ctx.arena.node? id) with
  | .bind span => declareAll rec (← Action.deref (ctx.arena.declarations? span))
  | _ => within (rec id)

def statements (rec : Evaluator) (last : PureValue) : List NodeId → Action Bindings PureValue
  | [] => return last
  | id :: ids => do
      let v ← statement ctx rec id
      statements rec v ids

def sequence (rec : Evaluator) (span : Span) : Action Bindings PureValue := do
  statements ctx rec .void (← Action.deref (ctx.arena.statements? span))

/-! ### One level

Compare this with `Context.step`: the state is gone, the environment is a map to values, and calls
bind the argument itself. -/

def step (rec : Evaluator) (id : NodeId) (ρ : Bindings) : Action Unit PureValue := do
  match ← Action.deref (ctx.arena.node? id) with
  | .number n => return .number n
  | .boolean b => return .boolean b
  -- Operators are those of the other evaluator. They look at no function, so its outline will do.
  | .unary op operand => do
      let v ← rec operand ρ
      Action.ofExcept id ((op.apply v.outline).map PureValue.ofOutline)
  | .binary op left right => do
      let a ← rec left ρ
      let b ← rec right ρ
      Action.ofExcept id ((op.apply a.outline b.outline).map PureValue.ofOutline)
  | .logical op left right => do
      let a ← expectBoolean (← rec left ρ) op.context id
      if a = op.absorbing then return .boolean a
      else return .boolean (← expectBoolean (← rec right ρ) op.context id)
  | .conditional test consequent alternate => do
      if ← expectBoolean (← rec test ρ) "conditional" id then rec consequent ρ
      else rec alternate ρ
  | .ident x =>
      match ρ x with
      | some v => return v
      | none => ctx.unbound x id
  | .bind span => do
      enclosed ρ (declareAll rec (← Action.deref (ctx.arena.declarations? span)))
  | .function param body => return .function ρ param body
  | .call callee argument => do
      match ← rec callee ρ with
      -- The argument is bound where the function was made, and there is no cell to store it in.
      | .function scope param body => do rec body (Bindings.bind scope param (← rec argument ρ))
      | v => .fail (.notCallable v.kind) id
  -- There is nothing to assign to.
  | .assign _ _ => .stop .dangling
  | .block span => enclosed ρ (sequence ctx rec span)
  | .malformed token => .fail (.unknownOperator (ctx.interner.textOrNumber token)) id

def eval : Nat → Evaluator
  | 0 => fun _ _ => Action.exhausted
  | fuel + 1 => step ctx (eval fuel)

end HeapFree

end LexCell
