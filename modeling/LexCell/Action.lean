import LexCell.EvalError
import LexCell.Heap

/-!
# Actions

An `Action σ α` reads and changes a state `σ` and either yields an `α` or stops. What was changed
before a stop stays changed, so a stop comes with a state too. An action may also run out of fuel;
then there is no outcome and no state.

A stop is an error of the program, or a reference that its table does not hold.
-/

namespace LexCell

/-- Why an action stops before it yields a value. -/
inductive Stop where
  | error (e : EvalError)
  | dangling
  deriving DecidableEq

/-- A state change that yields a value or stops, or runs out of fuel (`none`). -/
def Action (σ α : Type) : Type := σ → Option (Except Stop α × σ)

namespace Action

variable {σ α β : Type}

@[inline] protected def pure (a : α) : Action σ α := fun s => some (.ok a, s)

@[inline] protected def bind (x : Action σ α) (f : α → Action σ β) : Action σ β := fun s =>
  match x s with
  | some (.ok a, s) => f a s
  -- The state that the stop left is the one that counts.
  | some (.error e, s) => some (.error e, s)
  | none => none

instance : Monad (Action σ) where
  pure := Action.pure
  bind := Action.bind

def exhausted : Action σ α := fun _ => none

@[inline] def stop (e : Stop) : Action σ α := fun s => some (.error e, s)

/-- Offers a node to the error that an action stops with, if it does. -/
@[inline] def located (id : NodeId) (x : Action σ α) : Action σ α := fun s =>
  match x s with
  -- A reference that dangles is at no node, and is passed on as it is.
  | some (.error (.error e), s) => some (.error (.error (e.locate id)), s)
  | answer => answer

@[inline] def fail (c : EvalError.Cause) (id : NodeId) : Action σ α :=
  located id (stop (.error ⟨c, none⟩))

@[inline] def deref (x : Option α) : Action σ α :=
  match x with
  | some a => Action.pure a
  | none => stop .dangling

/-- The result of an operation; its error, which has no node yet, is offered the one given. -/
@[inline] def ofExcept (id : NodeId) (x : Except EvalError.Cause α) : Action σ α :=
  located id <|
    match x with
    | .ok a => Action.pure a
    | .error c => stop (.error ⟨c, none⟩)

/-! ### How each action runs

The monad's laws, and what each action does at a state. Runs are taken apart with these, so no proof
about the evaluator has to open `Action.bind`. -/

@[simp] theorem pure_apply (a : α) (s : σ) : (pure a : Action σ α) s = some (.ok a, s) := rfl

@[simp] theorem stop_apply (e : Stop) (s : σ) :
    (stop e : Action σ α) s = some (.error e, s) := rfl

@[simp] theorem exhausted_apply (s : σ) : (exhausted : Action σ α) s = none := rfl

/-- To open a sequence of actions at a state; `pure_bind` and `stop_bind` save that where the first
action is known. -/
theorem bind_apply (x : Action σ α) (f : α → Action σ β) (s : σ) :
    (x >>= f) s =
      match x s with
      | some (.ok a, s) => f a s
      | some (.error e, s) => some (.error e, s)
      | none => none := rfl

@[simp] theorem pure_bind (a : α) (f : α → Action σ β) : (pure a : Action σ α) >>= f = f a := rfl

@[simp] theorem stop_bind (e : Stop) (f : α → Action σ β) :
    (stop e : Action σ α) >>= f = stop e := rfl

/-- An error that has no node yet takes the first that it is offered. -/
theorem fail_eq_stop (c : EvalError.Cause) (id : NodeId) :
    (fail c id : Action σ α) = stop (.error ⟨c, some id⟩) := by
  funext s
  simp only [fail, located, stop_apply, EvalError.locate_of_none]

/-- Where every error has its node already, a node that is offered changes nothing. -/
theorem located_eq_self {id : NodeId} {x : Action σ α}
    (h : ∀ s e s', x s = some (.error (.error e), s') → e.locate id = e) : located id x = x := by
  funext s
  unfold located
  split
  · next e s' hx => rw [h s e s' hx, hx]
  · rfl

/-- Where a reference is known to hold, following it can be left out of a run. -/
@[simp] theorem deref_some (a : α) : (deref (some a) : Action σ α) = pure a := rfl

@[simp] theorem deref_none : (deref none : Action σ α) = stop .dangling := rfl

@[simp] theorem ofExcept_ok (id : NodeId) (a : α) :
    (ofExcept id (.ok a) : Action σ α) = pure a := rfl

/-- An operation that goes wrong at a node is a failure there. -/
@[simp] theorem ofExcept_error (id : NodeId) (c : EvalError.Cause) :
    (ofExcept id (.error c) : Action σ α) = fail c id := rfl

private theorem map_id_apply (x : Action σ α) (s : σ) :
    Action.bind x (fun a => Action.pure (id a)) s = x s := by
  unfold Action.bind Action.pure
  split <;> simp_all

private theorem bind_assoc_apply {γ : Type} (x : Action σ α) (f : α → Action σ β)
    (g : β → Action σ γ) (s : σ) :
    Action.bind (Action.bind x f) g s = Action.bind x (fun a => Action.bind (f a) g) s := by
  unfold Action.bind
  -- The first action decides whether the other two run at all.
  cases x s with
  | none => rfl
  | some p =>
      obtain ⟨r, s⟩ := p
      cases r <;> rfl

instance : LawfulMonad (Action σ) :=
  LawfulMonad.mk' _ (fun x => funext (map_id_apply x)) (fun _ _ => rfl)
    (fun x f g => funext (bind_assoc_apply x f g))

end Action

/-! ### Actions on the heap -/

namespace Heap

@[inline] def fetch (s : Slot) : Action Heap Value := fun h => Action.deref (h.get? s) h

@[inline] def extend (env : Environment) (n : Name) (v : Value) : Action Heap Environment := fun h =>
  let (env, h) := env.extend n v h
  some (.ok env, h)

@[inline] def overwrite (s : Slot) (v : Value) : Action Heap Unit := fun h =>
  match h.set? s v with
  | some h => some (.ok (), h)
  | none => some (.error .dangling, h)

end Heap

/-! ### Frames

Lists of statements make variables visible as they go, expressions do not. The former run on frames,
the latter on the heap, and `within` and `enclosed` lead from the one to the other. -/

/-- The state of a list of statements: what is visible so far, and the heap. -/
structure Frame where
  env : Environment
  heap : Heap
  deriving DecidableEq

namespace Frame

variable {α : Type}

/-- Runs an action of the heap in the environment of the frame. -/
@[inline] def within (act : Environment → Action Heap α) : Action Frame α := fun f =>
  match act f.env f.heap with
  | some (r, heap) => some (r, { f with heap })
  | none => none

/-- Runs an action in a frame of its own that starts with the environment given; what it makes
visible is forgotten at its end. -/
@[inline] def enclosed (env : Environment) (act : Action Frame α) : Action Heap α := fun heap =>
  match act ⟨env, heap⟩ with
  -- The heap stays as the list left it, the environment does not.
  | some (r, f) => some (r, f.heap)
  | none => none

/-- Makes a new variable visible from here on. -/
@[inline] def declare (n : Name) (v : Value) : Action Frame Unit := fun f =>
  let (env, heap) := f.env.extend n v f.heap
  some (.ok (), ⟨env, heap⟩)

end Frame

end LexCell
