import LexCell.Proofs.Machine.Rules

/-!
# What a run keeps

A `Discipline` says in which environments a node, a list of statements or the declarations of a
`let` may be evaluated, relative to the cells that were born so far, and which closures may exist.
Its fields are the local obligations, one for each way in which an environment is passed on. A
moment that obeys a discipline (`Moment.Obeys`) is followed by moments that obey it
(`Moment.Obeys.run`): the rules are gone through here, once for all disciplines.
-/

namespace LexCell

/-! ### What exists at a moment

What can still be used is listed here: everything that the rest of a run gets its hands on comes
from one of these lists. -/

def Value.environments : Value → List Environment
  | .function c => [c.env]
  | _ => []

def Focus.frames : Focus → List Environment
  | .expression _ env | .statement _ env | .statements _ _ env | .declarations _ _ _ env
  | .ended _ env => [env]
  | .outcome _ => []

def Focus.values : Focus → List Value
  | .statements _ v _ | .outcome (.ok v) | .ended (.ok v) _ => [v]
  | _ => []

/-- The environments in which something will go on. -/
def Pending.frames : Pending → List Environment
  | .left _ _ _ env | .guard _ _ _ env | .test _ _ _ env | .callee _ _ env
  | .declared _ _ _ _ env | .within env => [env]
  | _ => []

/-- The operands that are kept until the rest of the rule. -/
def Pending.values : Pending → List Value
  | .right _ _ a => [a]
  | .argument _ c => [.function c]
  | _ => []

def Moment.values (m : Moment) : List Value :=
  m.focus.values ++ m.pending.flatMap Pending.values ++ m.heap.cells.toList

/-- Every environment there is at a moment: those in which something runs or waits to run, and
those of closures. -/
def Moment.environments (m : Moment) : List Environment :=
  m.focus.frames ++ m.pending.flatMap Pending.frames ++ m.values.flatMap Value.environments

/-! ### Disciplines

A discipline is an invariant without the stack. It says which environment may serve which use, and
the obligations follow how the rules pass environments on. New cells are recorded in the list of
births, so a condition may speak of when a variable was made. -/

inductive Use where
  | expression (id : NodeId)
  | statements (ids : List NodeId)
  | declarations (bind : NodeId) (index : Nat) (ds : List Declaration)

/-- The children of a node that are evaluated in its own environment. -/
def Node.operands : Node → List NodeId
  | .unary _ operand => [operand]
  | .binary _ left right | .logical _ left right => [left, right]
  | .conditional test consequent alternate => [test, consequent, alternate]
  | .call callee argument => [callee, argument]
  | .assign _ value => [value]
  | _ => []

/-- Conditions on environments and closures that evaluation passes on. -/
structure Discipline (ctx : Context) where
  /-- The environment may serve the use, after the cells given were born. -/
  admits : List Birth → Use → Environment → Prop
  /-- The environment may exist. -/
  environment : List Birth → Environment → Prop
  /-- The closure may exist. -/
  closure : List Birth → Closure → Prop
  /-- The cell may be assigned to under the name. -/
  target : List Birth → Name → Slot → Prop
  /-- The statements may come after the `let` at the node. -/
  follows : NodeId → List NodeId → Prop
  admits_grow : ∀ {births birth use env},
    admits births use env → admits (births ++ [birth]) use env
  environment_grow : ∀ {births birth env},
    environment births env → environment (births ++ [birth]) env
  closure_grow : ∀ {births birth c}, closure births c → closure (births ++ [birth]) c
  target_grow : ∀ {births birth n s}, target births n s → target (births ++ [birth]) n s
  environment_of_admits : ∀ {births use env}, admits births use env → environment births env
  environment_of_closure : ∀ {births c}, closure births c → environment births c.env
  operand : ∀ {births id env n c}, admits births (.expression id) env →
    ctx.arena.node? id = some n → c ∈ n.operands → admits births (.expression c) env
  bind : ∀ {births id env span ds}, admits births (.expression id) env →
    ctx.arena.node? id = some (.bind span) → ctx.arena.declarations? span = some ds →
    admits births (.declarations id 0 ds) env
  block : ∀ {births id env span ids}, admits births (.expression id) env →
    ctx.arena.node? id = some (.block span) → ctx.arena.statements? span = some ids →
    admits births (.statements ids) env
  function : ∀ {births id env param body}, admits births (.expression id) env →
    ctx.arena.node? id = some (.function param body) → closure births ⟨env, param, body⟩
  assign : ∀ {births id env n v s}, admits births (.expression id) env →
    ctx.arena.node? id = some (.assign n v) → env.resolve n = some s → target births n s
  init : ∀ {births bind index d ds env}, admits births (.declarations bind index (d :: ds)) env →
    admits births (.expression d.init) env
  declared : ∀ {births bind index d ds env},
    admits births (.declarations bind index (d :: ds)) env →
    admits (births ++ [.declaration bind index d.name]) (.declarations bind (index + 1) ds)
      (env.bind d.name ⟨births.length⟩)
  statement : ∀ {births id ids env}, admits births (.statements (id :: ids)) env →
    admits births (.expression id) env
  rest : ∀ {births id ids env n}, admits births (.statements (id :: ids)) env →
    ctx.arena.node? id = some n → (∀ span, n ≠ .bind span) → admits births (.statements ids) env
  rest_of_bind : ∀ {births id ids env span}, admits births (.statements (id :: ids)) env →
    ctx.arena.node? id = some (.bind span) → follows id ids
  declared_all : ∀ {births bind index ids env}, admits births (.declarations bind index []) env →
    follows bind ids → admits births (.statements ids) env
  call : ∀ {births c}, closure births c →
    admits (births ++ [.argument c]) (.expression c.body) (c.env.bind c.param ⟨births.length⟩)

variable {ctx : Context} {D : Discipline ctx} {births : List Birth}

def Value.Obeys (D : Discipline ctx) (births : List Birth) : Value → Prop
  | .function c => D.closure births c
  | _ => True

def Pending.Obeys (D : Discipline ctx) (births : List Birth) : Pending → Prop
  | .left _ _ id env | .guard _ _ id env => D.admits births (.expression id) env
  | .right _ _ a => a.Obeys D births
  | .test _ consequent alternate env =>
      D.admits births (.expression consequent) env ∧ D.admits births (.expression alternate) env
  | .callee _ id env => D.admits births (.expression id) env
  | .argument _ c => D.closure births c
  | .assigned _ n s => D.target births n s
  | .declared bind index d rest env => D.admits births (.declarations bind index (d :: rest)) env
  | .within env => D.environment births env
  | .operand .. | .truth .. | .sequence _ | .enclosed => True

/-- The statements that wait, if any, may go on in the environment. -/
def Discipline.Accepts (D : Discipline ctx) (births : List Birth) (env : Environment)
    (k : List Pending) : Prop :=
  ∀ rest k', k = .sequence rest :: k' → D.admits births (.statements rest) env

/-- The statements that wait, if any, may come after the `let`. -/
def Discipline.Follows (D : Discipline ctx) (bind : NodeId) (k : List Pending) : Prop :=
  ∀ rest k', k = .sequence rest :: k' → D.follows bind rest

/-- The work that waits next is not more statements of the same list. -/
def Closes (k : List Pending) : Prop := ∀ rest k', k ≠ .sequence rest :: k'

/-- What the work that waits next may hand to what waits behind it. -/
def Pending.Hands (D : Discipline ctx) (births : List Birth) (k : List Pending) : Pending → Prop
  | .within env => D.Accepts births env k
  | .declared bind .. => D.Follows bind k
  | .sequence _ => Closes k
  | _ => True

def Discipline.Stack (D : Discipline ctx) (births : List Birth) : List Pending → Prop
  | [] => True
  | p :: k => p.Obeys D births ∧ p.Hands D births k ∧ D.Stack births k

def Focus.Obeys (D : Discipline ctx) (births : List Birth) (k : List Pending) : Focus → Prop
  | .expression id env => D.admits births (.expression id) env
  | .statement id env =>
      D.admits births (.expression id) env ∧
        ∀ rest k', k = .sequence rest :: k' → D.admits births (.statements (id :: rest)) env
  | .statements ids last env =>
      D.admits births (.statements ids) env ∧ last.Obeys D births ∧ Closes k
  | .declarations bind index ds env =>
      D.admits births (.declarations bind index ds) env ∧ D.Follows bind k
  | .outcome (.ok v) => v.Obeys D births
  | .outcome (.error _) => True
  | .ended (.ok v) env => D.environment births env ∧ v.Obeys D births ∧ D.Accepts births env k
  | .ended (.error _) env => D.environment births env

/-- The moment obeys the discipline: all that runs, waits or is stored does. -/
structure Moment.Obeys (D : Discipline ctx) (births : List Birth) (m : Moment) : Prop where
  focus : m.focus.Obeys D births m.pending
  pending : D.Stack births m.pending
  cells : ∀ s v, m.heap.get? s = some v → v.Obeys D births
  -- So the next cell has the number of the births so far.
  size : m.heap.size = births.length

/-! ### Operators yield no closures

Functions only come from function expressions, from cells and from calls; so the results of
operators obey any discipline. -/

/-- No unary operator yields a function. -/
theorem UnaryOp.apply_ne_function {op : UnaryOp} {v w : Value} (h : op.apply v = .ok w)
    (c : Closure) : w ≠ .function c := by
  rintro rfl
  unfold UnaryOp.apply at h
  split at h <;> cases h

/-- No binary operator yields a function. -/
theorem BinaryOp.apply_ne_function {op : BinaryOp} {a b w : Value} (h : op.apply a b = .ok w)
    (c : Closure) : w ≠ .function c := by
  rintro rfl
  unfold BinaryOp.apply at h
  split at h
  · unfold BinaryOp.applyNumbers at h
    split at h <;> first | cases h | (split at h <;> cases h)
  · cases h
  · cases h

/-! ### The cells that are born later

A birth makes nothing wrong that was right. Each part of a moment is carried over by the field of
the discipline that is about it. -/

/-- A value that obeys does so after a birth. -/
theorem Value.Obeys.grow {v : Value} (h : v.Obeys D births) (birth : Birth) :
    v.Obeys D (births ++ [birth]) := by
  cases v with
  | function c => exact D.closure_grow h
  | _ => trivial

/-- What waits obeys as before. -/
theorem Pending.Obeys.grow {p : Pending} (h : p.Obeys D births) (birth : Birth) :
    p.Obeys D (births ++ [birth]) := by
  cases p with
  | left | guard | callee | declared => exact D.admits_grow h
  | right => exact Value.Obeys.grow h birth
  | test => exact ⟨D.admits_grow h.1, D.admits_grow h.2⟩
  | argument => exact D.closure_grow h
  | assigned => exact D.target_grow h
  | within => exact D.environment_grow h
  | operand | truth | sequence | enclosed => trivial

theorem Discipline.Accepts.grow {env : Environment} {k : List Pending}
    (h : D.Accepts births env k) (birth : Birth) : D.Accepts (births ++ [birth]) env k :=
  fun rest k' hk => D.admits_grow (h rest k' hk)

theorem Pending.Hands.grow {p : Pending} {k : List Pending} (h : p.Hands D births k)
    (birth : Birth) : p.Hands D (births ++ [birth]) k := by
  cases p with
  | within => exact Discipline.Accepts.grow h birth
  | declared | sequence => exact h
  | _ => trivial

/-- The whole stack obeys as before. -/
theorem Discipline.Stack.grow {k : List Pending} (h : D.Stack births k) (birth : Birth) :
    D.Stack (births ++ [birth]) k := by
  induction k with
  | nil => trivial
  | cons p k ih => exact ⟨h.1.grow birth, h.2.1.grow birth, ih h.2.2⟩

namespace Moment.Obeys

/-- A step that makes no cell leaves the history as it is. -/
private theorem unborn {m : Moment} (h : m.Obeys D births) :
    m.Obeys D (births ++ Option.toList none) := by
  rw [Option.toList_none, List.append_nil]
  exact h

/-- An allocation, for the birth that is recorded. -/
private theorem cells_alloc {h : Heap} (cells : ∀ s v, h.get? s = some v → v.Obeys D births)
    {v : Value} (hv : v.Obeys D births) (birth : Birth) (s : Slot) (w : Value)
    (hw : (h.alloc v).2.get? s = some w) : w.Obeys D (births ++ [birth]) := by
  rw [Heap.get?_alloc] at hw
  split at hw
  · cases hw
    exact hv.grow birth
  · exact (cells s w hw).grow birth

private theorem cells_set {h h' : Heap} (cells : ∀ s v, h.get? s = some v → v.Obeys D births)
    {v : Value} (hv : v.Obeys D births) {s₀ : Slot} (e : h.set? s₀ v = some h') (s : Slot)
    (w : Value) (hw : h'.get? s = some w) : w.Obeys D births := by
  rw [Heap.get?_of_set? e] at hw
  split at hw
  · cases hw
    exact hv
  · exact cells s w hw

private theorem size_alloc {h : Heap} (size : h.size = births.length) (v : Value)
    (birth : Birth) : (h.alloc v).2.size = (births ++ [birth]).length := by
  rw [Heap.size_alloc, size, List.length_append]
  rfl

private theorem outcomeAt {id : NodeId} {x : Except EvalError.Cause Value} {k : List Pending}
    (hx : ∀ v, x = .ok v → ∀ c, v ≠ .function c) :
    (Focus.outcome (Stop.outcomeAt id x)).Obeys D births k := by
  cases x with
  | error c => trivial
  | ok v =>
      cases v with
      | function c => exact absurd rfl (hx _ rfl c)
      | _ => trivial

/-! ### Steps

What the rules do to the stack is the same for all disciplines, so it is gone through once, and each
case cites the field for what it passes on. -/

/-- **A step keeps the discipline.** -/
theorem step {m m' : Moment} {b : Option Birth} (h : m.Obeys D births) (hs : ctx.Step m b m') :
    m'.Obeys D (births ++ b.toList) := by
  obtain ⟨focus, stack, cells, size⟩ := h
  cases hs with
  | no_node | number | boolean | ident_unbound | ident_dangling | bind_dangling | assign_unbound
  | block_dangling | malformed => exact unborn ⟨trivial, stack, cells, size⟩
  | unary hn =>
      have operand := D.operand focus hn (List.mem_singleton_self _)
      exact unborn ⟨operand, ⟨trivial, trivial, stack⟩, cells, size⟩
  | binary hn | logical hn | call hn =>
      -- Two parts in the environment of the node: the one is evaluated now, the other waits.
      have first := D.operand focus hn List.mem_cons_self
      have second := D.operand focus hn (List.mem_cons_of_mem _ List.mem_cons_self)
      exact unborn ⟨first, ⟨second, trivial, stack⟩, cells, size⟩
  | conditional hn =>
      have test := D.operand focus hn List.mem_cons_self
      have consequent := D.operand focus hn (List.mem_cons_of_mem _ List.mem_cons_self)
      have alternate := D.operand focus hn
        (List.mem_cons_of_mem _ (List.mem_cons_of_mem _ List.mem_cons_self))
      exact unborn ⟨test, ⟨⟨consequent, alternate⟩, trivial, stack⟩, cells, size⟩
  -- The value of a cell obeys since all cells do.
  | ident _ _ hv => exact unborn ⟨cells _ _ hv, stack, cells, size⟩
  | bind hn hd =>
      exact unborn ⟨⟨D.bind focus hn hd, nofun⟩, ⟨trivial, trivial, stack⟩, cells, size⟩
  | function hn => exact unborn ⟨D.function focus hn, stack, cells, size⟩
  | assign hn hs =>
      have value := D.operand focus hn (List.mem_singleton_self _)
      exact unborn ⟨value, ⟨D.assign focus hn hs, trivial, stack⟩, cells, size⟩
  | block hn hd =>
      exact unborn ⟨⟨D.block focus hn hd, trivial, nofun⟩, ⟨trivial, trivial, stack⟩, cells, size⟩
  | statement_no_node | statement_dangling =>
      exact unborn ⟨D.environment_of_admits focus.1, stack, cells, size⟩
  | statement_bind hn hd =>
      obtain ⟨admitted, rest⟩ := focus
      refine unborn ⟨⟨D.bind admitted hn hd, ?_⟩, stack, cells, size⟩
      exact fun ids k' hk => D.rest_of_bind (rest ids k' hk) hn
  | statement_expression hn hb =>
      obtain ⟨admitted, rest⟩ := focus
      refine unborn ⟨admitted, ⟨D.environment_of_admits admitted, ?_, stack⟩, cells, size⟩
      exact fun ids k' hk => D.rest (rest ids k' hk) hn hb
  | statements_nil =>
      obtain ⟨admitted, hv, closes⟩ := focus
      -- A list is a body of its own, so what waits next is no rest of another list.
      refine unborn ⟨⟨D.environment_of_admits admitted, hv, ?_⟩, stack, cells, size⟩
      exact fun rest k' e => absurd e (closes rest k')
  | statements_cons =>
      obtain ⟨admitted, -, closes⟩ := focus
      refine unborn ⟨⟨D.statement admitted, ?_⟩, ⟨trivial, closes, stack⟩, cells, size⟩
      rintro rest k' ⟨⟩
      exact admitted
  | declarations_nil => -- the statements after the `let` go on with all that it has declared
      obtain ⟨admitted, follows⟩ := focus
      refine unborn ⟨⟨D.environment_of_admits admitted, trivial, ?_⟩, stack, cells, size⟩
      exact fun rest k' e => D.declared_all admitted (follows rest k' e)
  | declarations_cons =>
      obtain ⟨admitted, follows⟩ := focus
      exact unborn ⟨D.init admitted, ⟨admitted, follows, stack⟩, cells, size⟩
  | @operand _ _ op =>
      refine unborn ⟨outcomeAt ?_, stack.2.2, cells, size⟩
      exact fun w hw => op.apply_ne_function hw
  | @right _ _ op =>
      refine unborn ⟨outcomeAt ?_, stack.2.2, cells, size⟩
      exact fun w hw => op.apply_ne_function hw
  | left => exact unborn ⟨stack.1, ⟨focus, trivial, stack.2.2⟩, cells, size⟩
  | guard_long => exact unborn ⟨stack.1, ⟨trivial, trivial, stack.2.2⟩, cells, size⟩
  | guard_short | guard_kind | truth | truth_kind | test_kind | callee_kind | assigned_dangling
  | passes => exact unborn ⟨trivial, stack.2.2, cells, size⟩
  | @test b =>
      cases b with
      | true => exact unborn ⟨stack.1.1, stack.2.2, cells, size⟩
      | false => exact unborn ⟨stack.1.2, stack.2.2, cells, size⟩
  | callee => exact unborn ⟨stack.1, ⟨focus, trivial, stack.2.2⟩, cells, size⟩
  | assigned hs =>
      have size' := (Heap.size_of_set? hs).trans size
      exact unborn ⟨trivial, stack.2.2, cells_set cells focus hs, size'⟩
  | @argument _ _ c _ h =>
      have size : h.size = births.length := size
      refine ⟨?_, stack.2.2.grow _, cells_alloc cells focus _, size_alloc size _ _⟩
      -- The next cell has the number of all cells so far, which is the length of the history.
      show D.admits _ _ (c.env.bind c.param ⟨h.size⟩)
      rw [size]
      exact D.call stack.1
  | @declared _ _ _ d _ env _ h =>
      have size : h.size = births.length := size
      refine ⟨⟨?_, stack.2.1⟩, stack.2.2.grow _, cells_alloc cells focus _, size_alloc size _ _⟩
      show D.admits _ _ (env.bind d.name ⟨h.size⟩)
      rw [size]
      exact D.declared stack.1
  | within => exact unborn ⟨⟨stack.1, focus, stack.2.1⟩, stack.2.2, cells, size⟩
  | declared_error => exact unborn ⟨D.environment_of_admits stack.1, stack.2.2, cells, size⟩
  | within_error => exact unborn ⟨stack.1, stack.2.2, cells, size⟩
  | sequence => -- the rest of the list goes on where the statement has ended
      obtain ⟨-, hv, accepts⟩ := focus
      exact unborn ⟨⟨accepts _ _ rfl, hv, stack.2.1⟩, stack.2.2, cells, size⟩
  | sequence_error => exact unborn ⟨focus, stack.2.2, cells, size⟩
  | @enclosed r =>
      cases r with
      | ok v => exact unborn ⟨focus.2.1, stack.2.2, cells, size⟩
      | error e => exact unborn ⟨trivial, stack.2.2, cells, size⟩

/-- A move is a step. -/
theorem move {m m' : Moment} (h : m.Obeys D births) (hm : ctx.next m = some m') :
    m'.Obeys D (births ++ m.birth?.toList) := h.step (Context.next_step hm)

/-- **A run keeps the discipline.** -/
theorem run {m m' : Moment} {born : List Birth} (h : m.Obeys D births)
    (hr : ctx.Run m born m') : m'.Obeys D (births ++ born) := by
  induction hr with
  | refl =>
      rw [List.append_nil]
      exact h
  | move _ hm ih => -- births are recorded in the order of the moves
      rw [← List.append_assoc]
      exact ih.move hm

/-! ### What there is at a moment that obeys

From the parts of the moment to the lists of what exists at it. -/

private theorem pending_of_mem {k : List Pending} (h : D.Stack births k) {p : Pending}
    (hp : p ∈ k) : p.Obeys D births := by
  induction k with
  | nil => cases hp
  | cons q k ih =>
      rcases List.mem_cons.mp hp with rfl | hp
      · exact h.1
      · exact ih h.2.2 hp

private theorem value_of_focus {f : Focus} {k : List Pending} (h : f.Obeys D births k) {v : Value}
    (hv : v ∈ f.values) : v.Obeys D births := by
  cases f with
  | statements =>
      rw [List.mem_singleton.mp hv]
      exact h.2.1
  | outcome r =>
      cases r with
      | ok w =>
          rw [List.mem_singleton.mp hv]
          exact h
      | error e => cases hv
  | ended r env =>
      cases r with
      | ok w =>
          rw [List.mem_singleton.mp hv]
          exact h.2.1
      | error e => cases hv
  | _ => cases hv

private theorem value_of_pending {p : Pending} (h : p.Obeys D births) {v : Value}
    (hv : v ∈ p.values) : v.Obeys D births := by
  cases p with
  | right | argument =>
      rw [List.mem_singleton.mp hv]
      exact h
  | _ => cases hv

/-- Every value there is at the moment obeys. -/
theorem value {m : Moment} (h : m.Obeys D births) {v : Value} (hv : v ∈ m.values) :
    v.Obeys D births := by
  unfold Moment.values at hv
  rcases List.mem_append.mp hv with hv | hv
  · rcases List.mem_append.mp hv with hv | hv
    · exact value_of_focus h.focus hv
    · obtain ⟨p, hp, hv⟩ := List.mem_flatMap.mp hv
      exact value_of_pending (pending_of_mem h.pending hp) hv
  · obtain ⟨i, hi⟩ := List.getElem?_of_mem hv
    rw [Array.getElem?_toList] at hi
    exact h.cells ⟨i⟩ v hi

private theorem environment_of_focus {f : Focus} {k : List Pending} (h : f.Obeys D births k)
    {E : Environment} (hE : E ∈ f.frames) : D.environment births E := by
  cases f with
  | outcome r => cases hE
  | expression =>
      rw [List.mem_singleton.mp hE]
      exact D.environment_of_admits h
  | statement | statements | declarations =>
      rw [List.mem_singleton.mp hE]
      exact D.environment_of_admits h.1
  | ended r env =>
      rw [List.mem_singleton.mp hE]
      cases r with
      | ok v => exact h.1
      | error e => exact h

private theorem environment_of_pending {p : Pending} (h : p.Obeys D births) {E : Environment}
    (hE : E ∈ p.frames) : D.environment births E := by
  cases p with
  | left | guard | callee | declared =>
      rw [List.mem_singleton.mp hE]
      exact D.environment_of_admits h
  | test =>
      rw [List.mem_singleton.mp hE]
      exact D.environment_of_admits h.1
  | within =>
      rw [List.mem_singleton.mp hE]
      exact h
  | _ => cases hE

/-- Every environment there is at the moment is one that the discipline lets exist. -/
theorem environment {m : Moment} (h : m.Obeys D births) {E : Environment}
    (hE : E ∈ m.environments) : D.environment births E := by
  unfold Moment.environments at hE
  rcases List.mem_append.mp hE with hE | hE
  · rcases List.mem_append.mp hE with hE | hE
    · exact environment_of_focus h.focus hE
    · obtain ⟨p, hp, hE⟩ := List.mem_flatMap.mp hE
      exact environment_of_pending (pending_of_mem h.pending hp) hE
  · obtain ⟨v, hv, hE⟩ := List.mem_flatMap.mp hE
    have obeys := h.value hv
    cases v with
    | function c =>
        rw [List.mem_singleton.mp hE]
        exact D.environment_of_closure obeys
    | _ => cases hE

/-- What waits for a value of an expression that is assigned may be assigned to. -/
theorem target {m : Moment} (h : m.Obeys D births) {id : NodeId} {n : Name} {s : Slot}
    (hp : .assigned id n s ∈ m.pending) : D.target births n s :=
  pending_of_mem h.pending hp

end Moment.Obeys

/-- The first moment of a list of statements obeys if its frame does. -/
theorem Frame.start_obeys {f : Frame} {ids : List NodeId}
    (admitted : D.admits births (.statements ids) f.env)
    (cells : ∀ s v, f.heap.get? s = some v → v.Obeys D births)
    (size : f.heap.size = births.length) : (f.start ids).Obeys D births :=
  ⟨⟨admitted, trivial, nofun⟩, trivial, cells, size⟩

end LexCell
