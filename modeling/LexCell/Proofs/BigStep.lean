import LexCell.Heap
import LexCell.Operator.Apply

/-!
# Evaluation of trees

The meaning of programs as a relation on trees. There are no tables, no references into them and no
fuel: a function keeps the tree of its body, an error the tree at fault, cells are a list, and what
has no end has no derivation. Operators are explained by the integers; only their results are
brought back into 64 bits.

`BigStep` has one rule for each way in which an evaluation can end. Expressions and statements, the
declarations of a `let` and lists of statements depend on each other, so the relation is one, on
tasks.
-/

namespace LexCell

open EvalError (Cause)

/-! ### Values and outcomes

Cells are never given back, so the contents of all of them are a list that only grows, and a slot is
a position in it. -/

inductive TreeValue where
  | number (n : Int64)
  | boolean (b : Bool)
  | function (env : Environment) (param : Name) (body : Tree Name)
  | void

def TreeValue.kind : TreeValue → Kind
  | number _ => .number
  | boolean _ => .boolean
  | function .. => .function
  | void => .void

/-- Why an evaluation stops, and the tree at fault. -/
structure Fault where
  cause : Cause
  site : Tree Name

/-- The contents of all cells, in the order of their slots. -/
abbrev Cells : Type := List TreeValue

def Fault.at (site : Tree Name) : Except Cause TreeValue → Except Fault TreeValue
  | .ok v => .ok v
  | .error c => .error ⟨c, site⟩

/-! ### Operators

The results are computed in the integers, where no case needs an argument about overflow, and
`Int64.ofInt` takes them back into the words once. Which operand is at fault follows the order of
evaluation: the left one is checked first. -/

/-- Unary plus is the absolute value, unary minus changes nothing. -/
def UnaryOp.meaning : UnaryOp → TreeValue → Except Cause TreeValue
  | not, .boolean b => .ok (.boolean !b)
  | plus, .number n => .ok (.number (Int64.ofInt n.toInt.natAbs))
  | minus, .number n => .ok (.number n)
  | op, v => .error (.typeMismatch op.context op.operandKind v.kind)

def BinaryOp.onIntegers (op : BinaryOp) (a b : Int) : Except Cause TreeValue :=
  match op with
  | add => .ok (.number (Int64.ofInt (a + b)))
  | sub => .ok (.number (Int64.ofInt (a - b)))
  | mul => .ok (.number (Int64.ofInt (a * b)))
  -- Toward zero, as machine division does it; the least word by `-1` is wrapped back to itself.
  | div => if b = 0 then .error .divisionByZero else .ok (.number (Int64.ofInt (a.tdiv b)))
  | eq => .ok (.boolean (a = b))
  | ne => .ok (.boolean (a ≠ b))
  | lt => .ok (.boolean (a < b))
  | le => .ok (.boolean (a ≤ b))
  | gt => .ok (.boolean (b < a))
  | ge => .ok (.boolean (b ≤ a))

/-- Both operands must be numbers; the first that is none is at fault. -/
def BinaryOp.meaning (op : BinaryOp) : TreeValue → TreeValue → Except Cause TreeValue
  | .number a, .number b => op.onIntegers a.toInt b.toInt
  | .number _, v => .error (.typeMismatch op.context .number v.kind)
  | v, _ => .error (.typeMismatch op.context .number v.kind)

/-! ### The relation

Every rule names the cells before and after, so the order of evaluation can be read off it: the
cells that one premise leaves are the ones the next premise starts from. -/

inductive Task where
  | expression (t : Tree Name) (env : Environment)
  | statement (t : Tree Name) (env : Environment)
  | declarations (ds : List (Name × Tree Name)) (env : Environment)
  /-- `last` is the value if no statement is left. -/
  | statements (ts : List (Tree Name)) (last : TreeValue) (env : Environment)

/-- From the cells given, the task has the outcome, what is visible afterwards, and the cells
afterwards. An expression makes nothing visible. Errors print names as `text` says. -/
inductive BigStep (text : Name → String) :
    Task → Cells → Except Fault TreeValue → Environment → Cells → Prop where
  | number (n : Int64) (env : Environment) (cs : Cells) :
      BigStep text (.expression (.number n) env) cs (.ok (.number n)) env cs
  | boolean (b : Bool) (env : Environment) (cs : Cells) :
      BigStep text (.expression (.boolean b) env) cs (.ok (.boolean b)) env cs
  | unary {op : UnaryOp} {t : Tree Name} {env : Environment} {cs cs₁ : Cells} {v : TreeValue} :
      BigStep text (.expression t env) cs (.ok v) env cs₁ →
      BigStep text (.expression (.unary op t) env) cs (Fault.at (.unary op t) (op.meaning v)) env
        cs₁
  | unary_error {op : UnaryOp} {t : Tree Name} {env : Environment} {cs cs₁ : Cells} {e : Fault} :
      BigStep text (.expression t env) cs (.error e) env cs₁ →
      BigStep text (.expression (.unary op t) env) cs (.error e) env cs₁
  | binary {op : BinaryOp} {l r : Tree Name} {env : Environment} {cs cs₁ cs₂ : Cells}
      {v w : TreeValue} :
      BigStep text (.expression l env) cs (.ok v) env cs₁ →
      BigStep text (.expression r env) cs₁ (.ok w) env cs₂ →
      BigStep text (.expression (.binary op l r) env) cs
        (Fault.at (.binary op l r) (op.meaning v w)) env cs₂
  | binary_left_error {op : BinaryOp} {l r : Tree Name} {env : Environment} {cs cs₁ : Cells}
      {e : Fault} :
      BigStep text (.expression l env) cs (.error e) env cs₁ →
      BigStep text (.expression (.binary op l r) env) cs (.error e) env cs₁
  | binary_right_error {op : BinaryOp} {l r : Tree Name} {env : Environment}
      {cs cs₁ cs₂ : Cells} {v : TreeValue} {e : Fault} :
      BigStep text (.expression l env) cs (.ok v) env cs₁ →
      BigStep text (.expression r env) cs₁ (.error e) env cs₂ →
      BigStep text (.expression (.binary op l r) env) cs (.error e) env cs₂
  /-- The left operand decides, and the right one is not evaluated. -/
  | logical_short {op : LogicalOp} {l r : Tree Name} {env : Environment} {cs cs₁ : Cells} :
      BigStep text (.expression l env) cs (.ok (.boolean op.absorbing)) env cs₁ →
      BigStep text (.expression (.logical op l r) env) cs (.ok (.boolean op.absorbing)) env cs₁
  | logical_long {op : LogicalOp} {l r : Tree Name} {env : Environment} {cs cs₁ cs₂ : Cells}
      {b b' : Bool} :
      BigStep text (.expression l env) cs (.ok (.boolean b)) env cs₁ → b ≠ op.absorbing →
      BigStep text (.expression r env) cs₁ (.ok (.boolean b')) env cs₂ →
      BigStep text (.expression (.logical op l r) env) cs (.ok (.boolean b')) env cs₂
  | logical_left_error {op : LogicalOp} {l r : Tree Name} {env : Environment} {cs cs₁ : Cells}
      {e : Fault} :
      BigStep text (.expression l env) cs (.error e) env cs₁ →
      BigStep text (.expression (.logical op l r) env) cs (.error e) env cs₁
  | logical_left_kind {op : LogicalOp} {l r : Tree Name} {env : Environment} {cs cs₁ : Cells}
      {v : TreeValue} :
      BigStep text (.expression l env) cs (.ok v) env cs₁ → v.kind ≠ .boolean →
      BigStep text (.expression (.logical op l r) env) cs
        (.error ⟨.typeMismatch op.context .boolean v.kind, .logical op l r⟩) env cs₁
  | logical_right_error {op : LogicalOp} {l r : Tree Name} {env : Environment}
      {cs cs₁ cs₂ : Cells} {b : Bool} {e : Fault} :
      BigStep text (.expression l env) cs (.ok (.boolean b)) env cs₁ → b ≠ op.absorbing →
      BigStep text (.expression r env) cs₁ (.error e) env cs₂ →
      BigStep text (.expression (.logical op l r) env) cs (.error e) env cs₂
  | logical_right_kind {op : LogicalOp} {l r : Tree Name} {env : Environment}
      {cs cs₁ cs₂ : Cells} {b : Bool} {v : TreeValue} :
      BigStep text (.expression l env) cs (.ok (.boolean b)) env cs₁ → b ≠ op.absorbing →
      BigStep text (.expression r env) cs₁ (.ok v) env cs₂ → v.kind ≠ .boolean →
      BigStep text (.expression (.logical op l r) env) cs
        (.error ⟨.typeMismatch op.context .boolean v.kind, .logical op l r⟩) env cs₂
  /-- One branch is evaluated, whichever outcome it has. -/
  | conditional {t c a : Tree Name} {env : Environment} {cs cs₁ cs₂ : Cells} {b : Bool}
      {r : Except Fault TreeValue} :
      BigStep text (.expression t env) cs (.ok (.boolean b)) env cs₁ →
      BigStep text (.expression (if b then c else a) env) cs₁ r env cs₂ →
      BigStep text (.expression (.conditional t c a) env) cs r env cs₂
  | conditional_error {t c a : Tree Name} {env : Environment} {cs cs₁ : Cells} {e : Fault} :
      BigStep text (.expression t env) cs (.error e) env cs₁ →
      BigStep text (.expression (.conditional t c a) env) cs (.error e) env cs₁
  | conditional_kind {t c a : Tree Name} {env : Environment} {cs cs₁ : Cells} {v : TreeValue} :
      BigStep text (.expression t env) cs (.ok v) env cs₁ → v.kind ≠ .boolean →
      BigStep text (.expression (.conditional t c a) env) cs
        (.error ⟨.typeMismatch "conditional" .boolean v.kind, .conditional t c a⟩) env cs₁
  | ident {n : Name} {env : Environment} {cs : Cells} {s : Slot} {v : TreeValue} :
      env.resolve n = some s → cs[s.index]? = some v →
      BigStep text (.expression (.ident n) env) cs (.ok v) env cs
  | ident_unbound {n : Name} {env : Environment} {cs : Cells} :
      env.resolve n = none →
      BigStep text (.expression (.ident n) env) cs
        (.error ⟨.unboundIdentifier (text n), .ident n⟩) env cs
  /-- A `let` that is an expression: its names are forgotten. -/
  | bind {ds : List (Name × Tree Name)} {env env' : Environment} {cs cs₁ : Cells}
      {r : Except Fault TreeValue} :
      BigStep text (.declarations ds env) cs r env' cs₁ →
      BigStep text (.expression (.bind ds) env) cs r env cs₁
  | function (n : Name) (body : Tree Name) (env : Environment) (cs : Cells) :
      BigStep text (.expression (.function n body) env) cs (.ok (.function env n body)) env cs
  /-- The body runs where the function was made, with the parameter as a new variable. -/
  | call {t a body : Tree Name} {n : Name} {env env' : Environment} {cs cs₁ cs₂ cs₃ : Cells}
      {v : TreeValue} {r : Except Fault TreeValue} :
      BigStep text (.expression t env) cs (.ok (.function env' n body)) env cs₁ →
      BigStep text (.expression a env) cs₁ (.ok v) env cs₂ →
      BigStep text (.expression body (env'.bind n ⟨cs₂.length⟩)) (cs₂ ++ [v]) r
        (env'.bind n ⟨cs₂.length⟩) cs₃ →
      BigStep text (.expression (.call t a) env) cs r env cs₃
  | call_callee_error {t a : Tree Name} {env : Environment} {cs cs₁ : Cells} {e : Fault} :
      BigStep text (.expression t env) cs (.error e) env cs₁ →
      BigStep text (.expression (.call t a) env) cs (.error e) env cs₁
  /-- What is called is checked before the argument is evaluated. -/
  | call_kind {t a : Tree Name} {env : Environment} {cs cs₁ : Cells} {v : TreeValue} :
      BigStep text (.expression t env) cs (.ok v) env cs₁ → v.kind ≠ .function →
      BigStep text (.expression (.call t a) env) cs (.error ⟨.notCallable v.kind, .call t a⟩) env
        cs₁
  | call_argument_error {t a body : Tree Name} {n : Name} {env env' : Environment}
      {cs cs₁ cs₂ : Cells} {e : Fault} :
      BigStep text (.expression t env) cs (.ok (.function env' n body)) env cs₁ →
      BigStep text (.expression a env) cs₁ (.error e) env cs₂ →
      BigStep text (.expression (.call t a) env) cs (.error e) env cs₂
  | assign {n : Name} {t : Tree Name} {env : Environment} {cs cs₁ : Cells} {s : Slot}
      {v : TreeValue} :
      env.resolve n = some s → BigStep text (.expression t env) cs (.ok v) env cs₁ →
      s.index < cs₁.length →
      BigStep text (.expression (.assign n t) env) cs (.ok .void) env (cs₁.set s.index v)
  /-- The variable is looked for before its new value is computed. -/
  | assign_unbound {n : Name} {t : Tree Name} {env : Environment} {cs : Cells} :
      env.resolve n = none →
      BigStep text (.expression (.assign n t) env) cs
        (.error ⟨.unboundIdentifier (text n), .assign n t⟩) env cs
  | assign_error {n : Name} {t : Tree Name} {env : Environment} {cs cs₁ : Cells} {s : Slot}
      {e : Fault} :
      env.resolve n = some s → BigStep text (.expression t env) cs (.error e) env cs₁ →
      BigStep text (.expression (.assign n t) env) cs (.error e) env cs₁
  /-- What a block makes visible is forgotten at its end. -/
  | block {ts : List (Tree Name)} {env env' : Environment} {cs cs₁ : Cells}
      {r : Except Fault TreeValue} :
      BigStep text (.statements ts .void env) cs r env' cs₁ →
      BigStep text (.expression (.block ts) env) cs r env cs₁
  | malformed (n : Name) (env : Environment) (cs : Cells) :
      BigStep text (.expression (.malformed n) env) cs
        (.error ⟨.unknownOperator (text n), .malformed n⟩) env cs
  /-- A `let` that is a statement: its names are visible from here on. -/
  | statement_bind {ds : List (Name × Tree Name)} {env env' : Environment} {cs cs₁ : Cells}
      {r : Except Fault TreeValue} :
      BigStep text (.declarations ds env) cs r env' cs₁ →
      BigStep text (.statement (.bind ds) env) cs r env' cs₁
  | statement_expression {t : Tree Name} {env : Environment} {cs cs₁ : Cells}
      {r : Except Fault TreeValue} :
      (∀ ds, t ≠ .bind ds) → BigStep text (.expression t env) cs r env cs₁ →
      BigStep text (.statement t env) cs r env cs₁
  | declarations_nil (env : Environment) (cs : Cells) :
      BigStep text (.declarations [] env) cs (.ok .void) env cs
  /-- A declared name is visible to the initial values after it. -/
  | declarations_cons {n : Name} {t : Tree Name} {ds : List (Name × Tree Name)}
      {env env' : Environment} {cs cs₁ cs₂ : Cells} {v : TreeValue}
      {r : Except Fault TreeValue} :
      BigStep text (.expression t env) cs (.ok v) env cs₁ →
      BigStep text (.declarations ds (env.bind n ⟨cs₁.length⟩)) (cs₁ ++ [v]) r env' cs₂ →
      BigStep text (.declarations ((n, t) :: ds) env) cs r env' cs₂
  | declarations_error {n : Name} {t : Tree Name} {ds : List (Name × Tree Name)}
      {env : Environment} {cs cs₁ : Cells} {e : Fault} :
      BigStep text (.expression t env) cs (.error e) env cs₁ →
      BigStep text (.declarations ((n, t) :: ds) env) cs (.error e) env cs₁
  | statements_nil (last : TreeValue) (env : Environment) (cs : Cells) :
      BigStep text (.statements [] last env) cs (.ok last) env cs
  | statements_cons {t : Tree Name} {ts : List (Tree Name)} {last v : TreeValue}
      {env env₁ env₂ : Environment} {cs cs₁ cs₂ : Cells} {r : Except Fault TreeValue} :
      BigStep text (.statement t env) cs (.ok v) env₁ cs₁ →
      BigStep text (.statements ts v env₁) cs₁ r env₂ cs₂ →
      BigStep text (.statements (t :: ts) last env) cs r env₂ cs₂
  /-- The first error ends the whole list. -/
  | statements_error {t : Tree Name} {ts : List (Tree Name)} {last : TreeValue}
      {env env₁ : Environment} {cs cs₁ : Cells} {e : Fault} :
      BigStep text (.statement t env) cs (.error e) env₁ cs₁ →
      BigStep text (.statements (t :: ts) last env) cs (.error e) env₁ cs₁

/-! ### Logical operators

The rules for `&&` and `||` leave the right operand out where the left one decides. This does not
show in the value, which is that of the truth table, but in the cells: only an operand that is
evaluated can change them. -/

/-- Where both operands have values, the outcome is that of the truth table, and the cells are those
after the last operand that was evaluated. -/
theorem BigStep.logical {text : Name → String} {op : LogicalOp} {l r : Tree Name}
    {env : Environment} {cs cs₁ cs₂ : Cells} {a b : Bool}
    (left : BigStep text (.expression l env) cs (.ok (.boolean a)) env cs₁)
    (right : BigStep text (.expression r env) cs₁ (.ok (.boolean b)) env cs₂) :
    BigStep text (.expression (.logical op l r) env) cs (.ok (.boolean (op.meaning a b))) env
      (if a = op.absorbing then cs₁ else cs₂) := by
  by_cases h : a = op.absorbing
  · -- the left operand decides, so there is no derivation of the right one to use
    subst h
    rw [op.meaning_absorbing, if_pos rfl]
    exact .logical_short left
  · rw [LogicalOp.meaning_of_ne_absorbing h, if_neg h]
    exact .logical_long left h right

end LexCell
