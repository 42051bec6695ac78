import LexCell.Proofs.Machine.Adequacy
import LexCell.Proofs.Machine.Discipline

/-!
# No two variables share a cell

Every cell belongs to the name that it was made for (`owner`), and every environment there is, also
those of functions in cells, lets a name stand only for cells of its own (`Environment.Owned`). So
two names never stand for one cell, and a write through a name is seen through that name only, but
there by everyone who shares the cell.

This holds in a `Session`: lists of statements run one after the other in the same environment and
heap, whether they end well or stop. Nothing is asked of the arena.
-/

namespace LexCell

def owner (births : List Birth) (s : Slot) : Option Name := births[s.index]?.map Birth.name

/-- A name stands only for cells that were made for it. -/
def Environment.Owned (births : List Birth) (env : Environment) : Prop :=
  ∀ x s, env.resolve x = some s → owner births s = some x

theorem owner_append {births : List Birth} {s : Slot} {x : Name} (h : owner births s = some x)
    (more : List Birth) : owner (births ++ more) s = some x := by
  obtain ⟨birth, hb, rfl⟩ := Option.map_eq_some_iff.mp h
  refine Option.map_eq_some_iff.mpr ⟨birth, ?_, rfl⟩
  rw [List.getElem?_append_left (List.getElem?_eq_some_iff.mp hb).1]
  exact hb

/-- A new cell belongs to the name that it is made for. -/
theorem owner_concat (births : List Birth) (birth : Birth) :
    owner (births ++ [birth]) ⟨births.length⟩ = some birth.name := by
  unfold owner
  rw [List.getElem?_concat_length]
  rfl

namespace Environment.Owned

variable {births : List Birth} {env : Environment}

theorem empty : Environment.empty.Owned births := nofun

theorem append (h : env.Owned births) (more : List Birth) : env.Owned (births ++ more) :=
  fun x s hs => owner_append (h x s hs) more

/-- A new variable stands for its own cell. -/
theorem bind (h : env.Owned births) (birth : Birth) :
    (env.bind birth.name ⟨births.length⟩).Owned (births ++ [birth]) := by
  intro x s hs
  rw [Environment.resolve_bind] at hs
  split at hs
  · next hx => -- the new variable, in the cell that is made now
    cases hs
    rw [hx]
    exact owner_concat births birth
  · -- any other stands for the cell it had, which keeps its owner
    exact owner_append (h x s hs) [birth]

/-- No two names stand for one cell. -/
theorem injective (h : env.Owned births) {x y : Name} {s : Slot} (hx : env.resolve x = some s)
    (hy : env.resolve y = some s) : x = y :=
  Option.some.inj ((h x s hx).symm.trans (h y s hy))

end Environment.Owned

/-- Every environment keeps to cells of its names, and a cell is assigned to under its name. -/
def Discipline.owned (ctx : Context) : Discipline ctx where
  admits births _ env := env.Owned births
  environment births env := env.Owned births
  closure births c := c.env.Owned births
  target births n s := owner births s = some n
  follows _ _ := True
  admits_grow h := h.append _
  environment_grow h := h.append _
  closure_grow h := h.append _
  target_grow h := owner_append h _
  environment_of_admits h := h
  environment_of_closure h := h
  operand h _ _ := h
  bind h _ _ := h
  block h _ _ := h
  function h _ := h
  assign h _ hs := h _ _ hs
  init h := h
  declared h := h.bind (.declaration _ _ _)
  statement h := h
  rest h _ _ := h
  rest_of_bind _ _ := trivial
  declared_all h _ := h
  call h := h.bind (.argument _)

/-! ### Sessions -/

/-- The moments of statements that are run one list after the other, each from what the one before
left; `births` is the history of the heap and `held` what the lists so far have yielded. -/
inductive Session (ctx : Context) : List Birth → List Value → Moment → Prop where
  /-- Nothing has been run. -/
  | fresh : Session ctx [] [] (Frame.initial.finish (.ok .void))
  /-- The next list of statements, also after a stop. -/
  | start {births : List Birth} {held : List Value} {f : Frame} {r : Except Stop Value}
      (ids : List NodeId) : Session ctx births held (f.finish r) →
        Session ctx births (held ++ r.toOption.toList) (f.start ids)
  | move {births : List Birth} {held : List Value} {m m' : Moment} :
      Session ctx births held m → ctx.next m = some m' →
      Session ctx (births ++ m.birth?.toList) held m'

namespace Session

variable {ctx : Context} {births : List Birth} {held : List Value} {m : Moment}

/-- Moves go on with the session. -/
theorem run {m' : Moment} {born : List Birth} (h : Session ctx births held m)
    (hr : ctx.Run m born m') : Session ctx (births ++ born) held m' := by
  induction hr with
  | refl =>
      rw [List.append_nil]
      exact h
  | move _ hm ih =>
      rw [← List.append_assoc]
      exact ih.move hm

/-- What the evaluator answers for the next list of statements is the end of that list in the
session. -/
theorem exists_of_statements {f f' : Frame} {r r' : Except Stop Value} {ids : List NodeId}
    {fuel : Nat} (h : Session ctx births held (f.finish r))
    (e : ctx.statements (ctx.eval fuel) .void ids f = some (r', f')) :
    ∃ births' held', Session ctx births' held' (f'.finish r') := by
  obtain ⟨born, hr⟩ := (Context.reaches_finish_iff.mpr ⟨fuel, e⟩).run
  exact ⟨_, _, (h.start ids).run hr⟩

/-- Everything in a session keeps to cells of its names. -/
theorem obeys (h : Session ctx births held m) :
    m.Obeys (.owned ctx) births ∧ ∀ v ∈ held, v.Obeys (.owned ctx) births := by
  induction h with
  | fresh => exact ⟨⟨⟨Environment.Owned.empty, trivial, nofun⟩, trivial, nofun, rfl⟩, nofun⟩
  | @start births held f r ids _ ih =>
      obtain ⟨⟨focus, -, cells, size⟩, hheld⟩ := ih
      cases r with
      | ok v => -- what the list that ended has yielded is held from here on
          obtain ⟨env, value, -⟩ := focus
          refine ⟨Frame.start_obeys env cells size, ?_⟩
          intro w hw
          -- What was held before is not touched by a new list.
          rcases List.mem_append.mp hw with hw | hw
          · exact hheld w hw
          · rw [List.mem_singleton.mp hw]
            exact value
      | error e =>
          refine ⟨Frame.start_obeys focus cells size, ?_⟩
          intro w hw
          rcases List.mem_append.mp hw with hw | hw
          · exact hheld w hw
          · cases hw
  | @move births held m m' _ hm ih =>
      -- A move may make a cell, and what is held obeys as well with one more.
      refine ⟨ih.1.move hm, ?_⟩
      intro v hv
      have old := ih.2 v hv
      cases m.birth? with
      | none =>
          rw [Option.toList_none, List.append_nil]
          exact old
      | some birth => exact old.grow birth

end Session

/-- Every environment in existence: at the moment, and of the functions that have been yielded. -/
def Moment.allEnvironments (m : Moment) (held : List Value) : List Environment :=
  m.environments ++ held.flatMap Value.environments

theorem Session.owned {ctx : Context} {births : List Birth} {held : List Value} {m : Moment}
    (h : Session ctx births held m) {E : Environment} (hE : E ∈ m.allEnvironments held) :
    E.Owned births := by
  obtain ⟨obeys, hheld⟩ := h.obeys
  -- An environment is in use at the moment, or belongs to a function that is held.
  rcases List.mem_append.mp hE with hE | hE
  · exact obeys.environment hE
  · obtain ⟨v, hv, hE⟩ := List.mem_flatMap.mp hE
    have value := hheld v hv
    cases v with
    | function c =>
        rw [List.mem_singleton.mp hE]
        exact value
    | _ => cases hE

/-! ### Writes -/

namespace Environment.Owned

variable {births : List Birth} {env : Environment} {h h' : Heap} {s : Slot} {x y : Name}
  {v : Value}

/-- A write to a cell of `x` changes no variable but `x`, and only where `x` stands for the cell. -/
theorem of_lookup_ne (owned : env.Owned births) (hs : owner births s = some x)
    (e : h.set? s v = some h') (hne : env.lookup y h' ≠ env.lookup y h) :
    y = x ∧ env.resolve x = some s := by
  unfold Environment.lookup at hne
  rcases hy : env.resolve y with _ | s'
  · rw [hy] at hne
    exact absurd rfl hne
  · rw [hy] at hne
    -- If it is the cell that was written, its owner is `y`; in any other cell nothing has changed.
    by_cases same : s' = s
    · subst same
      obtain rfl : x = y := Option.some.inj (hs.symm.trans (owned y s' hy))
      exact ⟨rfl, hy⟩
    · refine absurd ?_ hne
      show some (h'.get? s') = some (h.get? s')
      rw [Heap.get?_of_set? e, if_neg same]

end Environment.Owned

/-- The new value is seen wherever the name stands for the cell. -/
theorem Environment.lookup_of_set? {env : Environment} {h h' : Heap} {s : Slot} {x : Name}
    {v : Value} (e : h.set? s v = some h') (hx : env.resolve x = some s) :
    env.lookup x h' = some (some v) := by
  unfold Environment.lookup
  rw [hx]
  show some (h'.get? s) = _
  rw [Heap.get?_of_set? e, if_pos rfl]

/-- **No two variables share a cell.** In every moment of a session one map from cells to names
serves all environments in existence, so none lets two names stand for one cell; and the write of an
assignment to `x` changes what an environment says of a name only if the name is `x` and stands for
the cell that is written, and every environment where it does sees the new value at once. -/
theorem Context.no_two_variables_share_a_cell (ctx : Context) :
    (∀ births held f r ids fuel r' f', Session ctx births held (f.finish r) →
      ctx.statements (ctx.eval fuel) .void ids f = some (r', f') →
      ∃ births' held', Session ctx births' held' (f'.finish r')) ∧
    ∀ births held m, Session ctx births held m →
      (∀ E ∈ m.allEnvironments held, ∀ x s, E.resolve x = some s → owner births s = some x) ∧
      (∀ E ∈ m.allEnvironments held, ∀ x y s,
        E.resolve x = some s → E.resolve y = some s → x = y) ∧
      ∀ v id x s k h, m = ⟨.outcome (.ok v), .assigned id x s :: k, h⟩ →
        ∃ h', ctx.next m = some ⟨.outcome (.ok .void), k, h'⟩ ∧
          ∀ E, E ∈ m.allEnvironments held ∨
              E ∈ Moment.allEnvironments ⟨.outcome (.ok .void), k, h'⟩ held →
            (∀ y, E.lookup y h' ≠ E.lookup y h → y = x ∧ E.resolve x = some s) ∧
            (E.resolve x = some s → E.lookup x h' = some (some v)) := by
  constructor
  · intro births held f r ids fuel r' f' session e
    exact session.exists_of_statements e
  intro births held m session
  refine ⟨fun E hE => session.owned hE, ?_, ?_⟩
  · intro E hE x y s hx hy
    exact (session.owned hE).injective hx hy
  · rintro v id x s k h rfl
    obtain ⟨obeys, -⟩ := session.obeys
    have hs : owner births s = some x := obeys.target List.mem_cons_self
    obtain ⟨birth, hbirth, -⟩ := Option.map_eq_some_iff.mp hs
    -- The cell has an owner, so it was born and the write goes through.
    have hlt : s.index < h.size := by
      have size : h.size = births.length := obeys.size
      rw [size]
      exact (List.getElem?_eq_some_iff.mp hbirth).1
    have e : h.set? s v = some ⟨h.cells.setIfInBounds s.index v⟩ := if_pos hlt
    have written : ctx.next ⟨.outcome (.ok v), .assigned id x s :: k, h⟩ =
        some ⟨.outcome (.ok .void), k, ⟨h.cells.setIfInBounds s.index v⟩⟩ :=
      (Context.Step.assigned e).next_eq
    refine ⟨_, written, ?_⟩
    intro E hE
    have owned : E.Owned births := by
      -- The write makes no cell, so both moments have the same history.
      rcases hE with hE | hE
      · exact session.owned hE
      · have after := session.move written
        have same : births ++ (Option.toList none) = births := List.append_nil births
        exact same ▸ after.owned hE
    exact ⟨fun y hne => owned.of_lookup_ne hs e hne, Environment.lookup_of_set? e⟩

end LexCell
