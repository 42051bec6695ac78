import LexCell.Proofs.Ownership
import LexCell.Proofs.Scope.Lexical
import LexCell.Proofs.Tree.Notation

/-!
# Functions without a parameter

A function that declares no parameter takes an argument all the same, under the empty name. So a
call of it adds nothing to what is visible but the empty name, and the cell of the argument is
hidden from every other name, in every environment of every moment of a run
(`Program.unnamed_arguments`).

The empty name is an ordinary name of the table, and an identifier may carry it: a document that
does so sees the argument of the function around it (`Program.unnamed_argument_seen`).
-/

namespace LexCell

/-! ### From documents to nodes -/

/-- A function that declares no parameter is described with the empty name. -/
theorem Denotes.unnamed {e : Element} {x : Tree String} (h : Denotes (.element e x))
    (kind : e.kind = "FunctionExpression" ∨ e.kind = "ArrowFunctionExpression")
    (params : e.Holds "params" (.array [])) : ∃ body, x = .function "" body := by
  cases h with
  | function _ declares =>
      cases declares with
      | none => exact ⟨_, rfl⟩
      | one declared => -- one parameter was declared, but the list is empty
          have same := params.1.symm.trans declared.1
          cases same
  | _ => simp_all

/-- Where a function with the empty name is written, the node has the empty name. -/
theorem Arena.node?_of_unnamed {a : Arena} {t : Interner} (ht : t.Proper) {f : NodeId}
    {x : Tree String} (h : a.textTree? t f = some (.function "" x)) :
    ∃ body, a.node? f = some (.function .empty body) ∧ a.textTree? t body = some x := by
  obtain ⟨u, hu, hx⟩ := Option.bind_eq_some_iff.mp h
  obtain ⟨n, hn, layer⟩ := Arena.layer_of_tree? hu
  cases layer with
  | @function param body u below =>
      rw [Tree.traverse] at hx
      obtain ⟨text, htext, hx⟩ := Option.bind_eq_some_iff.mp hx
      obtain ⟨y, hy, hx⟩ := Option.bind_eq_some_iff.mp hx
      cases hx
      -- Only one name has the empty text.
      rw [ht.text?_eq_empty_iff.mp htext] at hn
      exact ⟨body, hn, Option.bind_eq_some_iff.mpr ⟨u, below, hy⟩⟩
  | _ =>
      unfold Tree.traverse at hx
      simp [Option.bind_eq_some_iff] at hx

/-! ### Calls -/

namespace Context

variable {ctx : Context}

/-- A call of a function with the empty name makes nothing else visible. -/
theorem next_of_unnamed (v : Value) (id : NodeId) {c : Closure} (hc : c.param = .empty)
    (k : List Pending) (h : Heap) :
    ∃ env, ctx.next ⟨.outcome (.ok v), .argument id c :: k, h⟩ =
        some ⟨.expression c.body env, k, (h.alloc v).2⟩ ∧
      env.resolve .empty = some (h.alloc v).1 ∧
      ∀ x, x ≠ .empty → env.resolve x = c.env.resolve x := by
  refine ⟨c.env.bind c.param (h.alloc v).1, rfl, ?_, ?_⟩
  · rw [Environment.resolve_bind, if_pos hc.symm]
  · intro x hx
    rw [Environment.resolve_bind, hc, if_neg hx]

/-- A run from nothing keeps every cell to the name it was made for. -/
theorem Run.owned {ids : List NodeId} {births : List Birth} {m : Moment}
    (hr : ctx.Run (Frame.initial.start ids) births m) : m.Obeys (.owned ctx) births := by
  have start : (Frame.initial.start ids).Obeys (.owned ctx) [] :=
    Frame.start_obeys Environment.Owned.empty nofun rfl
  exact start.run hr

/-- Only the name of the parameter stands for the cell of an argument, and only under that name
something is assigned to it. -/
theorem Run.argument_owned {ids : List NodeId} {births : List Birth} {m : Moment}
    (hr : ctx.Run (Frame.initial.start ids) births m) {s : Slot} {c : Closure}
    (hs : births[s.index]? = some (.argument c)) :
    (∀ E ∈ m.environments, ∀ x, E.resolve x = some s → x = c.param) ∧
      ∀ id x, .assigned id x s ∈ m.pending → x = c.param := by
  -- The cell was made for the parameter, so it belongs to that name.
  have owned : owner births s = some c.param := by
    rw [owner, hs]
    rfl
  constructor
  · intro E hE x hx
    have visible : E.Owned births := hr.owned.environment hE
    exact Option.some.inj ((visible x s hx).symm.trans owned)
  · intro id x waits
    have target : owner births s = some x := hr.owned.target waits
    exact Option.some.inj (target.symm.trans owned)

end Context

/-! ### Programs -/

/-- **A function declared without a parameter introduces no name but the empty one.** Such a
function is described, and laid out, with the empty name, which is the name of the empty text. In
every run of what a document describes, a call of it starts on a body with the visible names of the
function, and every name but the empty one stands for the cell that it stands for there, or for
none. The cell of the argument is reached under the empty name only, whether it is read or assigned
to. -/
theorem Program.unnamed_arguments {doc : Json} {history : List String} {p : Program} {t : Interner}
    (laidOut : Program.ofJson doc (Interner.initial.internAll history) = (.ok p, t)) :
    ∃ ids ts, p.statements? = some ids ∧ p.textTrees? t = some ts ∧ doc.DescribesProgram ts ∧
      (∀ n, t.text? n = some "" ↔ n = .empty) ∧
      (∀ e x, Denotes (.element e x) →
        e.kind = "FunctionExpression" ∨ e.kind = "ArrowFunctionExpression" →
        e.Holds "params" (.array []) → ∃ body, x = .function "" body) ∧
      (∀ f x, p.arena.textTree? t f = some (.function "" x) →
        ∃ body, p.arena.node? f = some (.function .empty body) ∧
          p.arena.textTree? t body = some x) ∧
      ∀ births m, Context.Run ⟨p.arena, t⟩ (Frame.initial.start ids) births m →
        (∀ v id c k h, m = ⟨.outcome (.ok v), .argument id c :: k, h⟩ → c.param = .empty →
          (∃ f, p.arena.node? f = some (.function .empty c.body)) ∧
          ∃ env, Context.next ⟨p.arena, t⟩ m = some ⟨.expression c.body env, k, (h.alloc v).2⟩ ∧
            env.resolve .empty = some (h.alloc v).1 ∧
            ∀ x, x ≠ .empty → env.resolve x = c.env.resolve x) ∧
        ∀ s c, births[s.index]? = some (.argument c) → c.param = .empty →
          (∀ E ∈ m.environments, ∀ x, E.resolve x = some s → x = .empty) ∧
          ∀ id x, .assigned id x s ∈ m.pending → x = .empty := by
  obtain ⟨ids, wf⟩ := Program.wellFormed_of_ofJson laidOut
  obtain ⟨ts, outcome, trees⟩ := Program.exists_textTrees? laidOut
  have proper := Program.proper_of_ofJson (Interner.proper_initial.internAll history) laidOut
  refine ⟨ids, ts, wf.body, trees, Json.outcome_program_eq_ok_iff.mp outcome,
    fun n => proper.text?_eq_empty_iff, fun e x h => h.unnamed,
    fun f x => Arena.node?_of_unnamed proper, ?_⟩
  intro births m hr
  constructor
  · rintro v id c k h rfl hc
    -- A function that waits for its argument was made by a node, with the body that it has.
    obtain ⟨f, σ, made, -⟩ := (wf.lexical_of_run hr).pending.1
    rw [hc] at made
    exact ⟨⟨f, made⟩, Context.next_of_unnamed v id hc k h⟩
  · intro s c hs hc
    rw [← hc]
    exact hr.argument_owned hs

/-! ### Two calls without a parameter -/

/-- The program `let x = 1; (() => name)(5)`, for a name. -/
def Json.unnamedCall (name : String) : Json :=
  .object [("type", .string "Program"), ("body", .array [
    .object [("type", .string "VariableDeclaration"), ("declarations", .array [
      .object [("type", .string "VariableDeclarator"),
        ("id", .object [("type", .string "Identifier"), ("name", .string "x")]),
        ("init", .object [("type", .string "Literal"), ("value", .number (.integer 1))])]])],
    .object [("type", .string "CallExpression"),
      ("callee", .object [("type", .string "ArrowFunctionExpression"), ("params", .array []),
        ("body", .object [("type", .string "Identifier"), ("name", .string name)])]),
      ("arguments", .array [
        .object [("type", .string "Literal"), ("value", .number (.integer 5))]])]])]

def Program.unnamedCall (name : Name) : Program where
  arena := {
    nodes := #[.number 1, .bind ⟨0, 1⟩, .ident name, .function .empty ⟨2⟩, .number 5,
      .call ⟨3⟩ ⟨4⟩]
    statementLists := #[⟨1⟩, ⟨5⟩]
    declarations := #[⟨⟨1⟩, ⟨0⟩⟩] }
  body := ⟨0, 2⟩

namespace Context

/-- The run of the program from its start to the call. -/
theorem run_unnamedCall (name : Name) :
    ∃ births, Context.Run ⟨(Program.unnamedCall name).arena, ⟨#["", "x"]⟩⟩
      (Frame.initial.start [⟨1⟩, ⟨5⟩]) births
      ⟨.outcome (.ok (.number 5)), .argument ⟨5⟩ ⟨Environment.empty.bind ⟨1⟩ ⟨0⟩, .empty, ⟨2⟩⟩ ::
        [.within (Environment.empty.bind ⟨1⟩ ⟨0⟩), .sequence []],
        (Heap.empty.alloc (.number 1)).2⟩ :=
  (Context.reaches_of_after? 13 rfl).run

end Context

/-- In the body of the function `x` stands for the cell that it stood for where it was made. -/
theorem Program.unnamedCall_keeps_names :
    ∃ births v id c k h env,
      Context.Run ⟨(Program.unnamedCall ⟨1⟩).arena, ⟨#["", "x"]⟩⟩
        (Frame.initial.start [⟨1⟩, ⟨5⟩]) births ⟨.outcome (.ok v), .argument id c :: k, h⟩ ∧
      Context.next ⟨(Program.unnamedCall ⟨1⟩).arena, ⟨#["", "x"]⟩⟩
          ⟨.outcome (.ok v), .argument id c :: k, h⟩ =
        some ⟨.expression ⟨2⟩ env, k, (h.alloc v).2⟩ ∧
      env.resolve ⟨1⟩ = some ⟨0⟩ := by
  have laidOut : Program.ofJson (Json.unnamedCall "x") (Interner.initial.internAll []) =
      (.ok (Program.unnamedCall ⟨1⟩), ⟨#["", "x"]⟩) := by
    decide +kernel
  obtain ⟨ids, ts, statements, -, -, -, -, -, runs⟩ := Program.unnamed_arguments laidOut
  have statements' : (Program.unnamedCall ⟨1⟩).statements? = some [⟨1⟩, ⟨5⟩] := by decide
  obtain rfl := Option.some.inj (statements'.symm.trans statements)
  obtain ⟨births, hr⟩ := Context.run_unnamedCall ⟨1⟩
  -- The call is the move that the theorem speaks of.
  obtain ⟨-, env, next, -, kept⟩ := (runs births _ hr).1 _ _ _ _ _ rfl rfl
  refine ⟨births, _, _, _, _, _, env, hr, next, ?_⟩
  rw [kept ⟨1⟩ (by decide)]
  rfl

/-- **An identifier with the empty text sees the argument** of a function that declares no
parameter: where the function was made the name stands for nothing, in its body it stands for the
cell of the argument, and the program yields the argument. -/
theorem Program.unnamed_argument_seen :
    Program.ofJson (Json.unnamedCall "") Interner.initial =
        (.ok (Program.unnamedCall .empty), ⟨#["", "x"]⟩) ∧
      (Program.unnamedCall .empty).statements? = some [⟨1⟩, ⟨5⟩] ∧
      (Program.unnamedCall .empty).arena.node? ⟨3⟩ = some (.function .empty ⟨2⟩) ∧
      (Program.unnamedCall .empty).arena.node? ⟨2⟩ = some (.ident .empty) ∧
      (∃ births v id c k h env,
        Context.Run ⟨(Program.unnamedCall .empty).arena, ⟨#["", "x"]⟩⟩
          (Frame.initial.start [⟨1⟩, ⟨5⟩]) births ⟨.outcome (.ok v), .argument id c :: k, h⟩ ∧
        Context.next ⟨(Program.unnamedCall .empty).arena, ⟨#["", "x"]⟩⟩
            ⟨.outcome (.ok v), .argument id c :: k, h⟩ =
          some ⟨.expression ⟨2⟩ env, k, (h.alloc v).2⟩ ∧
        c.env.resolve .empty = none ∧ env.resolve .empty = some (h.alloc v).1) ∧
      ∃ f, (Program.unnamedCall .empty).run ⟨#["", "x"]⟩ 4 = some (.ok (.number 5), f) := by
  refine ⟨by decide +kernel, by decide, by decide, by decide, ?_, _, rfl⟩
  obtain ⟨births, hr⟩ := Context.run_unnamedCall .empty
  exact ⟨births, _, _, _, _, _, _, hr, rfl, rfl, rfl⟩

end LexCell
