import LexCell.Proofs.Machine.Visits
import LexCell.Proofs.Sequencing

/-!
# Malformed nodes are inert

A malformed node does nothing until it is evaluated, and then the run stops there. So if nodes of a
program are made malformed (`Arena.spoil`) and a run does not stop at one of them, it goes as it
would have gone with any other nodes in their places, the former ones included
(`Context.spoiled_run`). The places that a run passes over are among those: the right operand that a
left one makes superfluous, the branch that is not taken, the statements after a stop, and the
bodies of functions that nobody calls.
-/

namespace LexCell

/-! ### Making nodes malformed

Only nodes are replaced; the lists stay, so spans cover what they did, and the arena keeps its size.
-/

section Spoil

variable (a : Arena) (U : Set NodeId) [DecidablePred (· ∈ U)] (token : NodeId → Name)

/-- The nodes of the set are replaced by malformed ones, which carry the tokens given. -/
def Arena.spoil : Arena :=
  { a with nodes := a.nodes.mapIdx fun i n => if ⟨i⟩ ∈ U then .malformed (token ⟨i⟩) else n }

variable {a U token}

/-- What stands at a node after some were made malformed. -/
theorem Arena.node?_spoil (id : NodeId) :
    (a.spoil U token).node? id =
      (a.node? id).map fun n => if id ∈ U then .malformed (token id) else n :=
  Array.getElem?_mapIdx

theorem Arena.node?_spoil_of_notMem {id : NodeId} (h : id ∉ U) :
    (a.spoil U token).node? id = a.node? id := by
  rw [node?_spoil]
  simp only [if_neg h, Option.map_id']

end Spoil

/-- The stop is that of a node of the set, for the token that was put there. -/
def Stop.BlamedOn (U : Set NodeId) (token : NodeId → Name) (t : Interner) (e : Stop) : Prop :=
  ∃ id ∈ U, e = .error ⟨.unknownOperator (t.textOrNumber (token id)), some id⟩

namespace Context

variable {a b : Arena} {t : Interner} {U : Set NodeId} [DecidablePred (· ∈ U)]
  {token : NodeId → Name}

/-- Whatever nodes stand in the places, a run follows the one over the malformed nodes. -/
theorem follows_spoil (same : a.SameOutside U b) :
    Follows (Stop.BlamedOn U token t) Eq ⟨a.spoil U token, t⟩ ⟨b, t⟩ where
  statements := same.statements?
  declarations := same.declarations?
  node id := by
    dsimp only
    -- A node of the set is excused, any other is the same in both.
    by_cases hid : id ∈ U
    · rw [Arena.node?_spoil]
      cases hn : a.node? id with
      | some n => exact .inr ⟨token id, by rw [Option.map_some, if_pos hid], id, hid, rfl⟩
      | none => -- neither arena reaches that far
          have out : a.size ≤ id.index := Array.getElem?_eq_none_iff.mp hn
          exact .inl (Array.getElem?_eq_none_iff.mpr (same.size.trans_le out))
    · rw [Arena.node?_spoil_of_notMem hid]
      exact .inl (same.node id hid)
  refl _ := rfl
  unbound _ _ := rfl
  unknown _ _ := rfl

/-! ### Places that are passed over

Two rules evaluate only one of their operands, and a list ends at its first stop. What is left out
may be any node. -/

variable {ctx : Context} {fuel : Nat}

/-- The right operand is not evaluated if the left one decides. -/
theorem eval_logical_of_absorbing {id l r : NodeId} {op : LogicalOp} {env : Environment}
    {h h' : Heap} (hn : ctx.arena.node? id = some (.logical op l r))
    (hl : ctx.eval fuel l env h = some (.ok (.boolean op.absorbing), h')) :
    ctx.eval (fuel + 1) id env h = some (.ok (.boolean op.absorbing), h') := by
  show ctx.step (ctx.eval fuel) id env h = _
  unfold step
  rw [hn, Action.deref_some, Action.pure_bind]
  simp only [Action.bind_apply, hl, Value.expectBoolean, Action.pure_apply, if_true]

/-- Only the branch that the test selects is evaluated. -/
theorem eval_conditional_of_test {id x y z : NodeId} {c : Bool} {env : Environment} {h h' : Heap}
    (hn : ctx.arena.node? id = some (.conditional x y z))
    (hx : ctx.eval fuel x env h = some (.ok (.boolean c), h')) :
    ctx.eval (fuel + 1) id env h = ctx.eval fuel (if c then y else z) env h' := by
  show ctx.step (ctx.eval fuel) id env h = _
  unfold step
  rw [hn, Action.deref_some, Action.pure_bind]
  cases c <;> simp only [Action.bind_apply, hx, Value.expectBoolean, Action.pure_apply] <;> rfl

/-! ### Runs over malformed nodes -/

/-- The answer is that of every program with any nodes in the places. -/
theorem spoiled_run (same : a.SameOutside U b) {ids : List NodeId} {f f' : Frame}
    {r : Except Stop Value}
    (answer : statements ⟨a.spoil U token, t⟩ (eval ⟨a.spoil U token, t⟩ fuel) .void ids f =
      some (r, f')) :
    (∃ e, r = .error e ∧ e.BlamedOn U token t) ∨
      statements ⟨b, t⟩ (eval ⟨b, t⟩ fuel) .void ids f = some (r, f') :=
  ((follows_spoil same).run fuel ids).answer answer

theorem spoiled_eval (same : a.SameOutside U b) {id : NodeId} {env : Environment} {h h' : Heap}
    {r : Except Stop Value}
    (answer : eval ⟨a.spoil U token, t⟩ fuel id env h = some (r, h')) :
    (∃ e, r = .error e ∧ e.BlamedOn U token t) ∨ eval ⟨b, t⟩ fuel id env h = some (r, h') :=
  ((follows_spoil same).eval fuel id env).answer answer

/-- **Malformed nodes are inert unless they are evaluated.** Make the nodes of `U` malformed. If a
list of statements then comes to an end, it is stopped by one of these nodes, or it ends just so,
with the same value or stop and in the same frame, in every program that differs in nodes of `U`
only; the former program is one of them. Nodes that the run of a program does not visit may be any:
not a moment of the run changes. So nothing depends on the right operand of a logical operator whose
left operand decides, on the branch of a conditional that is not taken, on the statements after one
that stops, or on a node that is no statement, no part of a node that is visited and not the body of
a function that is called. -/
theorem malformed_nodes_are_inert (a : Arena) (t : Interner) (U : Set NodeId)
    [DecidablePred (· ∈ U)] (token : NodeId → Name) :
    (∀ fuel ids f r f',
      statements ⟨a.spoil U token, t⟩ (eval ⟨a.spoil U token, t⟩ fuel) .void ids f = some (r, f') →
      (∃ e, r = .error e ∧ e.BlamedOn U token t) ∨
        ∀ b, a.SameOutside U b →
          statements ⟨b, t⟩ (eval ⟨b, t⟩ fuel) .void ids f = some (r, f')) ∧
    (∀ m, (∀ id ∈ U, ¬ Visits ⟨a, t⟩ m id) → ∀ b, a.SameOutside U b →
      ∀ m', Reaches ⟨b, t⟩ m m' ↔ Reaches ⟨a, t⟩ m m') ∧
    (∀ fuel id op l r env h h', id ∉ U → a.node? id = some (.logical op l r) →
      eval ⟨a.spoil U token, t⟩ fuel l env h = some (.ok (.boolean op.absorbing), h') →
      ∀ b, a.SameOutside U b →
        eval ⟨b, t⟩ (fuel + 1) id env h = some (.ok (.boolean op.absorbing), h')) ∧
    (∀ fuel id x y z c env h h' r h'', id ∉ U → a.node? id = some (.conditional x y z) →
      eval ⟨a.spoil U token, t⟩ fuel x env h = some (.ok (.boolean c), h') →
      eval ⟨a.spoil U token, t⟩ fuel (if c then y else z) env h' = some (r, h'') →
      (∃ e, r = .error e ∧ e.BlamedOn U token t) ∨
        ∀ b, a.SameOutside U b → eval ⟨b, t⟩ (fuel + 1) id env h = some (r, h'')) ∧
    (∀ fuel ids f e f',
      statements ⟨a.spoil U token, t⟩ (eval ⟨a.spoil U token, t⟩ fuel) .void ids f =
        some (.error e, f') →
      e.BlamedOn U token t ∨ ∀ b, a.SameOutside U b → ∀ more,
        statements ⟨b, t⟩ (eval ⟨b, t⟩ fuel) .void (ids ++ more) f = some (.error e, f')) ∧
    ∀ (f : Frame) ids x, Visits ⟨a, t⟩ (f.start ids) x →
      x ∈ ids ∨ (∃ y, Visits ⟨a, t⟩ (f.start ids) y ∧ a.PartOf x y) ∨
        ∃ m c, Reaches ⟨a, t⟩ (f.start ids) m ∧ m.birth? = some (.argument c) ∧ c.body = x := by
  refine ⟨?_, ?_, ?_, ?_, ?_, ?_⟩
  · intro fuel ids f r f' answer
    exact or_iff_not_imp_left.mpr fun unblamed b same =>
      (spoiled_run same answer).resolve_left unblamed
  · intro m unvisited b same m'
    exact reaches_iff_of_not_visits same unvisited
  · intro fuel id op l r env h h' hid hn hl b same
    rcases spoiled_eval same hl with ⟨e, he, -⟩ | hl
    · cases he
    · exact eval_logical_of_absorbing ((same.node id hid).trans hn) hl
  · intro fuel id x y z c env h h' r h'' hid hn hx answer
    refine or_iff_not_imp_left.mpr fun unblamed b same => ?_
    rcases spoiled_eval same hx with ⟨e, he, -⟩ | hx
    · cases he
    · rw [eval_conditional_of_test ((same.node id hid).trans hn) hx]
      exact (spoiled_eval same answer).resolve_left unblamed
  · intro fuel ids f e f' answer
    refine or_iff_not_imp_left.mpr fun unblamed b same more => ?_
    rcases spoiled_run same answer with ⟨e', he, blamed⟩ | answer
    · cases he
      exact absurd blamed unblamed
    · exact statements_append_of_error answer
  · intro f ids x visits
    have line : (f.start ids).line = ids := List.append_nil ids
    have cause := visits.cause
    rwa [line] at cause

end Context

end LexCell
