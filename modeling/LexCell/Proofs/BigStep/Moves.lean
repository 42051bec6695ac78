import LexCell.Proofs.BigStep.Reading
import LexCell.Proofs.Machine.Rules

/-!
# Moves follow derivations

Whatever `BigStep` derives for trees, the moves do for nodes with these trees below them
(`BigStep.follows`). The proof goes by induction on the derivation, and there is one lemma for each
rule (`Task.Follows.binary`, `Task.Follows.call` and so on): if the parts are followed, so is the
whole. Moves of operands and of the rest of a rule are put together by the lemmas about
`Context.Evaluates` and `Context.Resumes`, which are about any work that waits.

The rules for a first operand that stops are all alike: whatever waits for the operand passes the
stop on. They share the lemma `Task.Follows.first_error`, and each kind of tree says where it begins
(`Tree.Begins`).
-/

namespace LexCell

namespace Context

variable {ctx : Context}

/-- The moves of a node end with the outcome, whatever waits for it. -/
def Evaluates (ctx : Context) (id : NodeId) (env : Environment) (h : Heap)
    (r : Except Stop Value) (h' : Heap) : Prop :=
  ∀ k, ctx.Reaches ⟨.expression id env, k, h⟩ ⟨.outcome r, k, h'⟩

/-- What waits for a value makes the outcome of it, whatever waits for that. -/
def Resumes (ctx : Context) (p : Pending) (v : Value) (h : Heap) (r : Except Stop Value)
    (h' : Heap) : Prop :=
  ∀ k, ctx.Reaches ⟨.outcome (.ok v), p :: k, h⟩ ⟨.outcome r, k, h'⟩

section Sequencing

variable {id x : NodeId} {env : Environment} {h h₁ h₂ h' : Heap} {p q : Pending} {v w : Value}
  {e : Stop} {r : Except Stop Value} {b : Option Birth}

/-- A node that is done in a single move. -/
theorem Evaluates.of_step
    (step : ∀ k, ctx.Step ⟨.expression id env, k, h⟩ b ⟨.outcome r, k, h'⟩) :
    ctx.Evaluates id env h r h' :=
  fun k => .single (step k).next_eq

/-- A first operand, and then the rest of the rule. -/
theorem Evaluates.first
    (begins : ∀ k, ctx.Step ⟨.expression id env, k, h⟩ b ⟨.expression x env, p :: k, h⟩)
    (hx : ctx.Evaluates x env h (.ok v) h₁) (hp : ctx.Resumes p v h₁ r h') :
    ctx.Evaluates id env h r h' :=
  fun k => .head (begins k).next_eq (.trans (hx (p :: k)) (hp k))

/-- A first operand that stops, and nothing else is done. -/
theorem Evaluates.first_error
    (begins : ∀ k, ctx.Step ⟨.expression id env, k, h⟩ b ⟨.expression x env, p :: k, h⟩)
    (hp : p.Passes) (hx : ctx.Evaluates x env h (.error e) h') :
    ctx.Evaluates id env h (.error e) h' :=
  -- The stop comes out on top of what waits, which hands it on in one move.
  fun k => .head (begins k).next_eq (.tail (hx (p :: k)) (next_outcome_error e hp k h'))

/-- A rule that ends with the value it waited for. -/
theorem Resumes.of_step
    (step : ∀ k, ctx.Step ⟨.outcome (.ok v), p :: k, h⟩ b ⟨.outcome r, k, h'⟩) :
    ctx.Resumes p v h r h' :=
  fun k => .single (step k).next_eq

/-- A further operand, and then the rest of the rule. -/
theorem Resumes.next
    (resumes : ∀ k, ctx.Step ⟨.outcome (.ok v), p :: k, h⟩ b ⟨.expression x env, q :: k, h₁⟩)
    (hx : ctx.Evaluates x env h₁ (.ok w) h₂) (hq : ctx.Resumes q w h₂ r h') :
    ctx.Resumes p v h r h' :=
  fun k => .head (resumes k).next_eq (.trans (hx (q :: k)) (hq k))

/-- A further operand that stops. -/
theorem Resumes.next_error
    (resumes : ∀ k, ctx.Step ⟨.outcome (.ok v), p :: k, h⟩ b ⟨.expression x env, q :: k, h₁⟩)
    (hq : q.Passes) (hx : ctx.Evaluates x env h₁ (.error e) h') :
    ctx.Resumes p v h (.error e) h' :=
  fun k => .head (resumes k).next_eq (.tail (hx (q :: k)) (next_outcome_error e hq k h'))

/-- An expression whose outcome is that of the whole. -/
theorem Resumes.last
    (resumes : ∀ k, ctx.Step ⟨.outcome (.ok v), p :: k, h⟩ b ⟨.expression x env, k, h₁⟩)
    (hx : ctx.Evaluates x env h₁ r h') : ctx.Resumes p v h r h' :=
  fun k => .head (resumes k).next_eq (hx k)

end Sequencing

/-- What was evaluated as a statement ends it, and nothing new is visible. -/
theorem next_within (r : Except Stop Value) (env : Environment) (k : List Pending) (h : Heap) :
    ctx.next ⟨.outcome r, .within env :: k, h⟩ = some ⟨.ended r env, k, h⟩ := by
  cases r <;> rfl

end Context

/-! ### Derivations

What a derivation says of trees is said of nodes by `Task.Follows`: one clause for each kind of
task, all of the same form. Reading a node as a tree gives its layer, and with it the nodes of the
parts. -/

/-- The moves of whatever reads as the task end as a derivation for the task says. -/
def Task.Follows (ctx : Context) (cs : Cells) (out : Except Fault TreeValue) (env' : Environment)
    (cs' : Cells) : Task → Prop
  | .expression t env => ∀ id h, ctx.arena.tree? id = some t → h.Reads ctx.arena cs →
      ∃ r h', OutcomeReads ctx.arena r out ∧ h'.Reads ctx.arena cs' ∧ ctx.Evaluates id env h r h'
  | .statement t env => ∀ id h, ctx.arena.tree? id = some t → h.Reads ctx.arena cs →
      ∃ r h', OutcomeReads ctx.arena r out ∧ h'.Reads ctx.arena cs' ∧
        ∀ k, ctx.Reaches ⟨.statement id env, k, h⟩ ⟨.ended r env', k, h'⟩
  | .declarations es env => ∀ ds h,
      List.Forall₂ (fun d e => d.name = e.1 ∧ ctx.arena.tree? d.init = some e.2) ds es →
      h.Reads ctx.arena cs →
      ∃ r h', OutcomeReads ctx.arena r out ∧ h'.Reads ctx.arena cs' ∧
        ∀ bind index k, ctx.Reaches ⟨.declarations bind index ds env, k, h⟩ ⟨.ended r env', k, h'⟩
  | .statements ts last env => ∀ ids v h,
      List.Forall₂ (fun id t => ctx.arena.tree? id = some t) ids ts → v.Reads ctx.arena last →
      h.Reads ctx.arena cs →
      ∃ r h', OutcomeReads ctx.arena r out ∧ h'.Reads ctx.arena cs' ∧
        ∀ k, ctx.Reaches ⟨.statements ids v env, k, h⟩ ⟨.ended r env', k, h'⟩

/-- The moves of whatever reads as the expression end so. -/
abbrev Tree.Follows (ctx : Context) (t : Tree Name) (env : Environment) (cs : Cells)
    (out : Except Fault TreeValue) (cs' : Cells) : Prop :=
  (Task.expression t env).Follows ctx cs out env cs'

/-- Nodes that read as the tree `t` first evaluate a node that reads as `x`, and what waits for its
value passes a stop on. -/
def Tree.Begins (ctx : Context) (env : Environment) (t x : Tree Name) : Prop :=
  ∀ id, ctx.arena.tree? id = some t → ∃ i p, ctx.arena.tree? i = some x ∧
    (∀ k h, ctx.Step ⟨.expression id env, k, h⟩ none ⟨.expression i env, p :: k, h⟩) ∧ p.Passes

namespace Task.Follows

open Context Arena EvalError

variable {ctx : Context} {cs cs₁ cs₂ cs₃ cs' : Cells} {env env₁ env₂ env' : Environment}
  {n : Name} {t l r c a body : Tree Name} {v w : TreeValue} {f : Fault}
  {out : Except Fault TreeValue}

/-! ### Parts of a rule

By induction the parts of a rule are followed. What the rule needs of a part depends on whether it
has a value: then there is a value that reads as it, else there is a stop. -/

/-- A part that has a value. -/
theorem value (ih : t.Follows ctx env cs (.ok w) cs') {id : NodeId} {h : Heap}
    (ht : ctx.arena.tree? id = some t) (hh : h.Reads ctx.arena cs) :
    ∃ v h', v.Reads ctx.arena w ∧ h'.Reads ctx.arena cs' ∧
      ctx.Evaluates id env h (.ok v) h' := by
  obtain ⟨r, h', out, hh', ev⟩ := ih id h ht hh
  obtain ⟨v, rfl, hv⟩ := out.exists_ok
  exact ⟨v, h', hv, hh', ev⟩

/-- A part that stops. -/
theorem stop (ih : t.Follows ctx env cs (.error f) cs') {id : NodeId} {h : Heap}
    (ht : ctx.arena.tree? id = some t) (hh : h.Reads ctx.arena cs) :
    ∃ e h', OutcomeReads ctx.arena (.error e) (.error f) ∧ h'.Reads ctx.arena cs' ∧
      ctx.Evaluates id env h (.error e) h' := by
  obtain ⟨r, h', out, hh', ev⟩ := ih id h ht hh
  obtain ⟨e, rfl⟩ := out.exists_error
  exact ⟨e, h', out, hh', ev⟩

/-- **A first operand that stops is the outcome of the whole.** -/
theorem first_error (begins : t.Begins ctx env l) (ih : l.Follows ctx env cs (.error f) cs') :
    t.Follows ctx env cs (.error f) cs' := by
  intro id h ht hh
  obtain ⟨i, p, hl, step, passes⟩ := begins id ht
  obtain ⟨e, h₁, oe, hh₁, ev⟩ := ih.stop hl hh
  exact ⟨_, h₁, oe, hh₁, .first_error (fun k => step k h) passes ev⟩

/-! ### Literals, names and functions -/

theorem number (n : Int64) : (Tree.number n).Follows ctx env cs (.ok (.number n)) cs := by
  intro id h ht hh
  have ⟨_, hn, .number _⟩ := layer_of_tree? ht
  exact ⟨_, h, .ok (.number n), hh, .of_step fun _ => .number hn⟩

theorem boolean (b : Bool) : (Tree.boolean b).Follows ctx env cs (.ok (.boolean b)) cs := by
  intro id h ht hh
  have ⟨_, hn, .boolean _⟩ := layer_of_tree? ht
  exact ⟨_, h, .ok (.boolean b), hh, .of_step fun _ => .boolean hn⟩

theorem ident {s : Slot} (hs : env.resolve n = some s) (hw : cs[s.index]? = some w) :
    (Tree.ident n).Follows ctx env cs (.ok w) cs := by
  intro id h ht hh
  have ⟨_, hn, .ident _⟩ := layer_of_tree? ht
  obtain ⟨v, hget, hv⟩ := hh.exists_get? hw
  exact ⟨_, h, .ok hv, hh, .of_step fun _ => .ident hn hs hget⟩

theorem ident_unbound (hs : env.resolve n = none) :
    (Tree.ident n).Follows ctx env cs
      (.error ⟨.unboundIdentifier (ctx.interner.textOrNumber n), .ident n⟩) cs := by
  intro id h ht hh
  have ⟨_, hn, .ident _⟩ := layer_of_tree? ht
  exact ⟨_, h, .error ht, hh, .of_step fun _ => .ident_unbound hn hs⟩

theorem function (n : Name) (body : Tree Name) :
    (Tree.function n body).Follows ctx env cs (.ok (.function env n body)) cs := by
  intro id h ht hh
  have ⟨_, hn, .function hx⟩ := layer_of_tree? ht
  exact ⟨_, h, .ok (.function hx), hh, .of_step fun _ => .function hn⟩

theorem malformed (n : Name) :
    (Tree.malformed n).Follows ctx env cs
      (.error ⟨.unknownOperator (ctx.interner.textOrNumber n), .malformed n⟩) cs := by
  intro id h ht hh
  have ⟨_, hn, .malformed _⟩ := layer_of_tree? ht
  exact ⟨_, h, .error ht, hh, .of_step fun _ => .malformed hn⟩

/-! ### Operators

A layer is read, the operands are followed in their order, and the last move applies the operator to
values that read as those of the derivation. -/

section Unary

variable {op : UnaryOp}

theorem unary_begins : (Tree.unary op t).Begins ctx env t := by
  intro id ht
  have ⟨_, hn, .unary hx⟩ := layer_of_tree? ht
  exact ⟨_, _, hx, fun _ _ => .unary hn, trivial⟩

theorem unary (ih : t.Follows ctx env cs (.ok v) cs₁) :
    (Tree.unary op t).Follows ctx env cs (Fault.at (.unary op t) (op.meaning v)) cs₁ := by
  intro id h ht hh
  have ⟨_, hn, .unary hx⟩ := layer_of_tree? ht
  obtain ⟨v, h₁, hv, hh₁, ev⟩ := ih.value hx hh
  refine ⟨_, h₁, (op.apply_reads hv).outcomeAt ht, hh₁, ?_⟩
  exact .first (fun _ => .unary hn) ev (.of_step fun _ => .operand)

end Unary

section Binary

variable {op : BinaryOp}

theorem binary_begins : (Tree.binary op l r).Begins ctx env l := by
  intro id ht
  have ⟨_, hn, .binary hl hr⟩ := layer_of_tree? ht
  exact ⟨_, _, hl, fun _ _ => .binary hn, trivial⟩

theorem binary (ihl : l.Follows ctx env cs (.ok v) cs₁) (ihr : r.Follows ctx env cs₁ (.ok w) cs₂) :
    (Tree.binary op l r).Follows ctx env cs (Fault.at (.binary op l r) (op.meaning v w)) cs₂ := by
  intro id h ht hh
  have ⟨_, hn, .binary hl hr⟩ := layer_of_tree? ht
  obtain ⟨v, h₁, hv, hh₁, evl⟩ := ihl.value hl hh
  obtain ⟨w, h₂, hw, hh₂, evr⟩ := ihr.value hr hh₁
  refine ⟨_, h₂, (op.apply_reads hv hw).outcomeAt ht, hh₂, .first (fun _ => .binary hn) evl ?_⟩
  exact .next (fun _ => .left) evr (.of_step fun _ => .right)

theorem binary_right_error (ihl : l.Follows ctx env cs (.ok v) cs₁)
    (ihr : r.Follows ctx env cs₁ (.error f) cs₂) :
    (Tree.binary op l r).Follows ctx env cs (.error f) cs₂ := by
  intro id h ht hh
  have ⟨_, hn, .binary hl hr⟩ := layer_of_tree? ht
  obtain ⟨v, h₁, -, hh₁, evl⟩ := ihl.value hl hh
  obtain ⟨e, h₂, oe, hh₂, evr⟩ := ihr.stop hr hh₁
  refine ⟨_, h₂, oe, hh₂, .first (fun _ => .binary hn) evl ?_⟩
  exact .next_error (fun _ => .left) trivial evr

end Binary

section Logical

variable {op : LogicalOp} {b b' : Bool}

theorem logical_begins : (Tree.logical op l r).Begins ctx env l := by
  intro id ht
  have ⟨_, hn, .logical hl hr⟩ := layer_of_tree? ht
  exact ⟨_, _, hl, fun _ _ => .logical hn, trivial⟩

theorem logical_short (ih : l.Follows ctx env cs (.ok (.boolean op.absorbing)) cs₁) :
    (Tree.logical op l r).Follows ctx env cs (.ok (.boolean op.absorbing)) cs₁ := by
  intro id h ht hh
  have ⟨_, hn, .logical hl hr⟩ := layer_of_tree? ht
  have ⟨_, h₁, .boolean _, hh₁, ev⟩ := ih.value hl hh
  refine ⟨_, h₁, .ok (.boolean _), hh₁, .first (fun _ => .logical hn) ev ?_⟩
  exact .of_step fun _ => .guard_short

theorem logical_long (ihl : l.Follows ctx env cs (.ok (.boolean b)) cs₁) (hb : b ≠ op.absorbing)
    (ihr : r.Follows ctx env cs₁ (.ok (.boolean b')) cs₂) :
    (Tree.logical op l r).Follows ctx env cs (.ok (.boolean b')) cs₂ := by
  intro id h ht hh
  have ⟨_, hn, .logical hl hr⟩ := layer_of_tree? ht
  have ⟨_, h₁, .boolean _, hh₁, evl⟩ := ihl.value hl hh
  have ⟨_, h₂, .boolean _, hh₂, evr⟩ := ihr.value hr hh₁
  refine ⟨_, h₂, .ok (.boolean b'), hh₂, .first (fun _ => .logical hn) evl ?_⟩
  exact .next (fun _ => .guard_long hb) evr (.of_step fun _ => .truth)

/-- A value is of the same kind as its reading, so it is the wrong one for both. -/
theorem logical_left_kind (ih : l.Follows ctx env cs (.ok v) cs₁) (hk : v.kind ≠ .boolean) :
    (Tree.logical op l r).Follows ctx env cs
      (.error ⟨.typeMismatch op.context .boolean v.kind, .logical op l r⟩) cs₁ := by
  intro id h ht hh
  have ⟨_, hn, .logical hl hr⟩ := layer_of_tree? ht
  obtain ⟨v, h₁, hv, hh₁, ev⟩ := ih.value hl hh
  -- The message names the kind of the value, which is that of its reading.
  rw [← hv.kind] at hk ⊢
  refine ⟨_, h₁, .error ht, hh₁, .first (fun _ => .logical hn) ev ?_⟩
  exact .of_step fun _ => .guard_kind hk

theorem logical_right_error (ihl : l.Follows ctx env cs (.ok (.boolean b)) cs₁)
    (hb : b ≠ op.absorbing) (ihr : r.Follows ctx env cs₁ (.error f) cs₂) :
    (Tree.logical op l r).Follows ctx env cs (.error f) cs₂ := by
  intro id h ht hh
  have ⟨_, hn, .logical hl hr⟩ := layer_of_tree? ht
  have ⟨_, h₁, .boolean _, hh₁, evl⟩ := ihl.value hl hh
  obtain ⟨e, h₂, oe, hh₂, evr⟩ := ihr.stop hr hh₁
  refine ⟨_, h₂, oe, hh₂, .first (fun _ => .logical hn) evl ?_⟩
  exact .next_error (fun _ => .guard_long hb) trivial evr

theorem logical_right_kind (ihl : l.Follows ctx env cs (.ok (.boolean b)) cs₁)
    (hb : b ≠ op.absorbing) (ihr : r.Follows ctx env cs₁ (.ok v) cs₂) (hk : v.kind ≠ .boolean) :
    (Tree.logical op l r).Follows ctx env cs
      (.error ⟨.typeMismatch op.context .boolean v.kind, .logical op l r⟩) cs₂ := by
  intro id h ht hh
  have ⟨_, hn, .logical hl hr⟩ := layer_of_tree? ht
  have ⟨_, h₁, .boolean _, hh₁, evl⟩ := ihl.value hl hh
  obtain ⟨w, h₂, hw, hh₂, evr⟩ := ihr.value hr hh₁
  rw [← hw.kind] at hk ⊢
  refine ⟨_, h₂, .error ht, hh₂, .first (fun _ => .logical hn) evl ?_⟩
  exact .next (fun _ => .guard_long hb) evr (.of_step fun _ => .truth_kind hk)

end Logical

/-! ### Conditionals -/

section Conditional

variable {b : Bool}

theorem conditional_begins : (Tree.conditional t c a).Begins ctx env t := by
  intro id ht
  have ⟨_, hn, .conditional hl hc ha⟩ := layer_of_tree? ht
  exact ⟨_, _, hl, fun _ _ => .conditional hn, trivial⟩

/-- Only the branch that is taken is followed; the other one need not be. -/
theorem conditional (iht : t.Follows ctx env cs (.ok (.boolean b)) cs₁)
    (ihb : (if b then c else a).Follows ctx env cs₁ out cs₂) :
    (Tree.conditional t c a).Follows ctx env cs out cs₂ := by
  intro id h ht hh
  have ⟨.conditional _ y z, hn, .conditional hl hc ha⟩ := layer_of_tree? ht
  have ⟨_, h₁, .boolean _, hh₁, evt⟩ := iht.value hl hh
  -- Taking a branch commutes with reading.
  have branch : ctx.arena.tree? (if b then y else z) = some (if b then c else a) := by
    cases b with
    | true => exact hc
    | false => exact ha
  obtain ⟨r, h₂, out, hh₂, evb⟩ := ihb _ h₁ branch hh₁
  exact ⟨r, h₂, out, hh₂, .first (fun _ => .conditional hn) evt (.last (fun _ => .test) evb)⟩

theorem conditional_kind (ih : t.Follows ctx env cs (.ok v) cs₁) (hk : v.kind ≠ .boolean) :
    (Tree.conditional t c a).Follows ctx env cs
      (.error ⟨.typeMismatch "conditional" .boolean v.kind, .conditional t c a⟩) cs₁ := by
  intro id h ht hh
  have ⟨_, hn, .conditional hl hc ha⟩ := layer_of_tree? ht
  obtain ⟨v, h₁, hv, hh₁, ev⟩ := ih.value hl hh
  rw [← hv.kind] at hk ⊢
  refine ⟨_, h₁, .error ht, hh₁, .first (fun _ => .conditional hn) ev ?_⟩
  exact .of_step fun _ => .test_kind hk

end Conditional

/-! ### Calls -/

theorem call_begins : (Tree.call t a).Begins ctx env t := by
  intro id ht
  have ⟨_, hn, .call hc ha⟩ := layer_of_tree? ht
  exact ⟨_, _, hc, fun _ _ => .call hn, trivial⟩

/-- The body is evaluated in the environment of the function, with the argument in a cell of its
own. -/
theorem call (ihc : t.Follows ctx env cs (.ok (.function env' n body)) cs₁)
    (iha : a.Follows ctx env cs₁ (.ok v) cs₂)
    (ihb : body.Follows ctx (env'.bind n ⟨cs₂.length⟩) (cs₂ ++ [v]) out cs₃) :
    (Tree.call t a).Follows ctx env cs out cs₃ := by
  intro id h ht hh
  have ⟨_, hn, .call hc ha⟩ := layer_of_tree? ht
  have ⟨_, h₁, .function hbody, hh₁, evc⟩ := ihc.value hc hh
  obtain ⟨v, h₂, hv, hh₂, eva⟩ := iha.value ha hh₁
  obtain ⟨r, h₃, out, hh₃, evb⟩ := ihb _ _ hbody (hh₂.alloc hv)
  -- The argument gets the same slot on both sides.
  rw [← hh₂.slot_alloc v] at evb
  refine ⟨r, h₃, out, hh₃, .first (fun _ => .call hn) evc ?_⟩
  exact .next (fun _ => .callee) eva (.last (fun _ => .argument) evb)

theorem call_kind (ih : t.Follows ctx env cs (.ok v) cs₁) (hk : v.kind ≠ .function) :
    (Tree.call t a).Follows ctx env cs (.error ⟨.notCallable v.kind, .call t a⟩) cs₁ := by
  intro id h ht hh
  have ⟨_, hn, .call hc ha⟩ := layer_of_tree? ht
  obtain ⟨v, h₁, hv, hh₁, ev⟩ := ih.value hc hh
  rw [← hv.kind] at hk ⊢
  refine ⟨_, h₁, .error ht, hh₁, .first (fun _ => .call hn) ev ?_⟩
  exact .of_step fun _ => .callee_kind hk

/-- The argument is evaluated only after the callee turned out to be a function. -/
theorem call_argument_error (ihc : t.Follows ctx env cs (.ok (.function env' n body)) cs₁)
    (iha : a.Follows ctx env cs₁ (.error f) cs₂) :
    (Tree.call t a).Follows ctx env cs (.error f) cs₂ := by
  intro id h ht hh
  have ⟨_, hn, .call hc ha⟩ := layer_of_tree? ht
  have ⟨_, h₁, .function _, hh₁, evc⟩ := ihc.value hc hh
  obtain ⟨e, h₂, oe, hh₂, eva⟩ := iha.stop ha hh₁
  refine ⟨_, h₂, oe, hh₂, .first (fun _ => .call hn) evc ?_⟩
  exact .next_error (fun _ => .callee) trivial eva

/-! ### Assignments -/

section Assign

variable {s : Slot}

theorem assign_begins (hs : env.resolve n = some s) : (Tree.assign n t).Begins ctx env t := by
  intro id ht
  have ⟨_, hn, .assign hx⟩ := layer_of_tree? ht
  exact ⟨_, _, hx, fun _ _ => .assign hn hs, trivial⟩

/-- A variable that is in scope has a cell, which is the one that is overwritten. -/
theorem assign (hs : env.resolve n = some s) (ih : t.Follows ctx env cs (.ok v) cs₁)
    (hlt : s.index < cs₁.length) :
    (Tree.assign n t).Follows ctx env cs (.ok .void) (cs₁.set s.index v) := by
  intro id h ht hh
  have ⟨_, hn, .assign hx⟩ := layer_of_tree? ht
  obtain ⟨v, h₁, hv, hh₁, ev⟩ := ih.value hx hh
  obtain ⟨h₂, hset, hh₂⟩ := hh₁.exists_set? hv hlt
  refine ⟨_, h₂, .ok .void, hh₂, ?_⟩
  exact .first (fun _ => .assign hn hs) ev (.of_step fun _ => .assigned hset)

/-- The new value is not computed. -/
theorem assign_unbound (hs : env.resolve n = none) :
    (Tree.assign n t).Follows ctx env cs
      (.error ⟨.unboundIdentifier (ctx.interner.textOrNumber n), .assign n t⟩) cs := by
  intro id h ht hh
  have ⟨_, hn, .assign hx⟩ := layer_of_tree? ht
  exact ⟨_, h, .error ht, hh, .of_step fun _ => .assign_unbound hn hs⟩

end Assign

/-! ### Scopes and lists

A block and a `let` that is an expression are lists in a scope of their own: they end where the list
ends, but for what it made visible. -/

section Lists

variable {ts : List (Tree Name)} {es : List (Name × Tree Name)} {last : TreeValue}

theorem bind (ih : (Task.declarations es env).Follows ctx cs out env' cs₁) :
    (Tree.bind es).Follows ctx env cs out cs₁ := by
  intro id h ht hh
  have ⟨_, hn, .bind hd hes⟩ := layer_of_tree? ht
  obtain ⟨r, h₁, out, hh₁, ev⟩ := ih _ h hes hh
  refine ⟨r, h₁, out, hh₁, fun k => ?_⟩
  exact .head (Step.bind hn hd).next_eq (.tail (ev id 0 (.enclosed :: k)) rfl)

theorem block (ih : (Task.statements ts .void env).Follows ctx cs out env' cs₁) :
    (Tree.block ts).Follows ctx env cs out cs₁ := by
  intro id h ht hh
  have ⟨_, hn, .block hd hts⟩ := layer_of_tree? ht
  obtain ⟨r, h₁, out, hh₁, ev⟩ := ih _ .void h hts .void hh
  refine ⟨r, h₁, out, hh₁, fun k => ?_⟩
  exact .head (Step.block hn hd).next_eq (.tail (ev (.enclosed :: k)) rfl)

theorem statement_bind (ih : (Task.declarations es env).Follows ctx cs out env' cs₁) :
    (Task.statement (.bind es) env).Follows ctx cs out env' cs₁ := by
  intro id h ht hh
  have ⟨_, hn, .bind hd hes⟩ := layer_of_tree? ht
  obtain ⟨r, h₁, out, hh₁, ev⟩ := ih _ h hes hh
  refine ⟨r, h₁, out, hh₁, fun k => ?_⟩
  exact .head (Step.statement_bind hn hd).next_eq (ev id 0 k)

/-- A statement that declares nothing is an expression, and the environment stays. -/
theorem statement_expression (notBind : ∀ es, t ≠ .bind es) (ih : t.Follows ctx env cs out cs₁) :
    (Task.statement t env).Follows ctx cs out env cs₁ := by
  intro id h ht hh
  obtain ⟨n, hn, layer⟩ := layer_of_tree? ht
  -- A node reads as a `let` only if it is one.
  have other (span : Span) : n ≠ .bind span := by
    rintro rfl
    cases layer with
    | bind _ _ => exact notBind _ rfl
  obtain ⟨r, h₁, out, hh₁, ev⟩ := ih id h ht hh
  refine ⟨r, h₁, out, hh₁, fun k => ?_⟩
  exact .head (Step.statement_expression hn other).next_eq (.tail (ev _) (next_within r _ k h₁))

theorem declarations_nil : (Task.declarations [] env).Follows ctx cs (.ok .void) env cs := by
  rintro _ h ⟨⟩ hh
  exact ⟨_, h, .ok .void, hh, fun _ _ _ => .single rfl⟩

/-- The rest of the declarations sees the new variable. -/
theorem declarations_cons (ihx : t.Follows ctx env cs (.ok v) cs₁)
    (ihs : (Task.declarations es (env.bind n ⟨cs₁.length⟩)).Follows ctx (cs₁ ++ [v]) out env' cs₂) :
    (Task.declarations ((n, t) :: es) env).Follows ctx cs out env' cs₂ := by
  rintro _ h (_ | ⟨⟨rfl, hx⟩, hds⟩) hh
  obtain ⟨v, h₁, hv, hh₁, ev⟩ := ihx.value hx hh
  obtain ⟨r, h₂, out, hh₂, evs⟩ := ihs _ _ hds (hh₁.alloc hv)
  refine ⟨r, h₂, out, hh₂, fun bind index k => ?_⟩
  -- The slots agree, since heap and list of cells have the same size.
  rw [← hh₁.slot_alloc v] at evs
  exact .head rfl (.trans (ev _) (.head rfl (evs bind (index + 1) k)))

theorem declarations_error (ih : t.Follows ctx env cs (.error f) cs₁) :
    (Task.declarations ((n, t) :: es) env).Follows ctx cs (.error f) env cs₁ := by
  rintro _ h (_ | ⟨⟨rfl, hx⟩, -⟩) hh
  obtain ⟨e, h₁, oe, hh₁, ev⟩ := ih.stop hx hh
  exact ⟨_, h₁, oe, hh₁, fun _ _ _ => .head rfl (.tail (ev _) rfl)⟩

theorem statements_nil : (Task.statements [] last env).Follows ctx cs (.ok last) env cs := by
  rintro _ v h ⟨⟩ hv hh
  exact ⟨_, h, .ok hv, hh, fun _ => .single rfl⟩

/-- The value of the statement is carried to the rest, which may be empty. -/
theorem statements_cons (ihx : (Task.statement t env).Follows ctx cs (.ok v) env₁ cs₁)
    (ihs : (Task.statements ts v env₁).Follows ctx cs₁ out env₂ cs₂) :
    (Task.statements (t :: ts) last env).Follows ctx cs out env₂ cs₂ := by
  rintro _ _ h (_ | ⟨hx, hts⟩) - hh
  obtain ⟨_, h₁, ov, hh₁, ev⟩ := ihx _ h hx hh
  obtain ⟨w, rfl, hw⟩ := ov.exists_ok
  obtain ⟨r, h₂, out, hh₂, evs⟩ := ihs _ w h₁ hts hw hh₁
  exact ⟨r, h₂, out, hh₂, fun k => .head rfl (.trans (ev _) (.head rfl (evs k)))⟩

theorem statements_error (ih : (Task.statement t env).Follows ctx cs (.error f) env₁ cs₁) :
    (Task.statements (t :: ts) last env).Follows ctx cs (.error f) env₁ cs₁ := by
  rintro _ _ h (_ | ⟨hx, -⟩) - hh
  obtain ⟨_, h₁, oe, hh₁, ev⟩ := ih _ h hx hh
  obtain ⟨e, rfl⟩ := oe.exists_error
  exact ⟨_, h₁, oe, hh₁, fun k => .head rfl (.tail (ev _) rfl)⟩

end Lists

end Task.Follows

/-- **Moves follow derivations**: what is derived for a task is what the moves do with any nodes
that read as it. -/
theorem BigStep.follows {ctx : Context} {task : Task} {cs cs' : Cells}
    {out : Except Fault TreeValue} {env' : Environment}
    (h : BigStep ctx.interner.textOrNumber task cs out env' cs') :
    task.Follows ctx cs out env' cs' := by
  induction h with
  | number n => exact Task.Follows.number n
  | boolean b => exact Task.Follows.boolean b
  | ident hs hw => exact Task.Follows.ident hs hw
  | ident_unbound hs => exact Task.Follows.ident_unbound hs
  | function n body => exact Task.Follows.function n body
  | malformed n => exact Task.Follows.malformed n
  -- Operators.
  | unary _ ih => exact Task.Follows.unary ih
  | unary_error _ ih => exact Task.Follows.first_error Task.Follows.unary_begins ih
  | binary _ _ ihl ihr => exact Task.Follows.binary ihl ihr
  | binary_left_error _ ih => exact Task.Follows.first_error Task.Follows.binary_begins ih
  | binary_right_error _ _ ihl ihr => exact Task.Follows.binary_right_error ihl ihr
  | logical_short _ ih => exact Task.Follows.logical_short ih
  | logical_long _ hb _ ihl ihr => exact Task.Follows.logical_long ihl hb ihr
  | logical_left_error _ ih => exact Task.Follows.first_error Task.Follows.logical_begins ih
  | logical_left_kind _ hk ih => exact Task.Follows.logical_left_kind ih hk
  | logical_right_error _ hb _ ihl ihr => exact Task.Follows.logical_right_error ihl hb ihr
  | logical_right_kind _ hb _ hk ihl ihr => exact Task.Follows.logical_right_kind ihl hb ihr hk
  -- Conditionals, calls and assignments.
  | conditional _ _ iht ihb => exact Task.Follows.conditional iht ihb
  | conditional_error _ ih => exact Task.Follows.first_error Task.Follows.conditional_begins ih
  | conditional_kind _ hk ih => exact Task.Follows.conditional_kind ih hk
  | call _ _ _ ihc iha ihb => exact Task.Follows.call ihc iha ihb
  | call_callee_error _ ih => exact Task.Follows.first_error Task.Follows.call_begins ih
  | call_kind _ hk ih => exact Task.Follows.call_kind ih hk
  | call_argument_error _ _ ihc iha => exact Task.Follows.call_argument_error ihc iha
  | assign hs _ hlt ih => exact Task.Follows.assign hs ih hlt
  | assign_unbound hs => exact Task.Follows.assign_unbound hs
  | assign_error hs _ ih => exact Task.Follows.first_error (Task.Follows.assign_begins hs) ih
  -- Scopes and lists.
  | bind _ ih => exact Task.Follows.bind ih
  | block _ ih => exact Task.Follows.block ih
  | statement_bind _ ih => exact Task.Follows.statement_bind ih
  | statement_expression notBind _ ih => exact Task.Follows.statement_expression notBind ih
  | declarations_nil => exact Task.Follows.declarations_nil
  | declarations_cons _ _ ihx ihs => exact Task.Follows.declarations_cons ihx ihs
  | declarations_error _ ih => exact Task.Follows.declarations_error ih
  | statements_nil => exact Task.Follows.statements_nil
  | statements_cons _ _ ihx ihs => exact Task.Follows.statements_cons ihx ihs
  | statements_error _ ih => exact Task.Follows.statements_error ih

end LexCell
