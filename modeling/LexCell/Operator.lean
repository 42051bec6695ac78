/-!
# Operators

The operators of the language, how they are written, and back. A token that no `ofSymbol?` knows
is not an operator at all.
-/

namespace LexCell

inductive UnaryOp where
  | not
  | plus
  | minus
  deriving DecidableEq

/-- Operators that evaluate both operands. -/
inductive BinaryOp where
  | add
  | sub
  | mul
  | div
  | eq
  | ne
  | lt
  | le
  | gt
  | ge
  deriving DecidableEq

/-- What a binary operator yields: a number or a truth value. -/
inductive BinaryOp.Family where
  | arithmetic
  | relational
  deriving DecidableEq

/-- Operators that may leave their right operand unevaluated. -/
inductive LogicalOp where
  | and
  | or
  deriving DecidableEq

namespace UnaryOp

def symbol : UnaryOp → String
  | not => "!"
  | plus => "+"
  | minus => "-"

def ofSymbol? : String → Option UnaryOp
  | "!" => some not
  | "+" => some plus
  | "-" => some minus
  | _ => none

/-- What is written is read back. No two operators of a kind are written alike. -/
@[simp] theorem ofSymbol?_symbol (op : UnaryOp) : ofSymbol? op.symbol = some op := by
  cases op <;> rfl

end UnaryOp

namespace BinaryOp

def symbol : BinaryOp → String
  | add => "+"
  | sub => "-"
  | mul => "*"
  | div => "/"
  | eq => "=="
  | ne => "!="
  | lt => "<"
  | le => "<="
  | gt => ">"
  | ge => ">="

def ofSymbol? : String → Option BinaryOp
  | "+" => some add
  | "-" => some sub
  | "*" => some mul
  | "/" => some div
  | "==" => some eq
  | "!=" => some ne
  | "<" => some lt
  | "<=" => some le
  | ">" => some gt
  | ">=" => some ge
  | _ => none

@[simp] theorem ofSymbol?_symbol (op : BinaryOp) : ofSymbol? op.symbol = some op := by
  cases op <;> rfl

def family : BinaryOp → Family
  | add | sub | mul | div => .arithmetic
  | eq | ne | lt | le | gt | ge => .relational

def Family.label : Family → String
  | .arithmetic => "arithmetic"
  | .relational => "relational"

end BinaryOp

namespace LogicalOp

def symbol : LogicalOp → String
  | and => "&&"
  | or => "||"

def ofSymbol? : String → Option LogicalOp
  | "&&" => some and
  | "||" => some or
  | _ => none

@[simp] theorem ofSymbol?_symbol (op : LogicalOp) : ofSymbol? op.symbol = some op := by
  cases op <;> rfl

/-- The truth table. -/
def meaning : LogicalOp → Bool → Bool → Bool
  | and, a, b => a && b
  | or, a, b => a || b

/-- The left operand that decides the result alone. -/
def absorbing : LogicalOp → Bool
  | and => false
  | or => true

/-- `&&` absorbs with `false` and `||` with `true`: the right operand does not count. -/
theorem meaning_absorbing (op : LogicalOp) (b : Bool) :
    op.meaning op.absorbing b = op.absorbing := by
  cases op <;> rfl

/-- Any other left operand leaves the result to the right one. -/
theorem meaning_of_ne_absorbing {op : LogicalOp} {a : Bool} (h : a ≠ op.absorbing) (b : Bool) :
    op.meaning a b = b := by
  -- Of the four cases two are excluded by the hypothesis.
  cases op <;> cases a <;> first | rfl | exact absurd rfl h

end LogicalOp

end LexCell
