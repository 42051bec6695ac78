import LexCell.EvalError

/-!
# Applying operators to values

Arithmetic is that of 64-bit words: it wraps, and division truncates toward zero. A mismatch names
the operator and the first operand, from the left, of the wrong kind.
-/

namespace LexCell

open EvalError (Cause)

/-- How a mismatch of an operand names its operator. -/
def UnaryOp.context (op : UnaryOp) : String := "unary `" ++ op.symbol ++ "`"

def BinaryOp.context (op : BinaryOp) : String := "`" ++ op.symbol ++ "`"

def LogicalOp.context (op : LogicalOp) : String := "`" ++ op.symbol ++ "`"

def UnaryOp.operandKind : UnaryOp → Kind
  | not => .boolean
  | plus | minus => .number

/-- Unary plus is the absolute value, where the least number is its own; unary minus leaves a number
as it is. -/
def UnaryOp.apply : UnaryOp → Value → Except Cause Value
  | not, .boolean b => .ok (.boolean !b)
  | plus, .number n => .ok (.number (if n < 0 then -n else n))
  | minus, .number n => .ok (.number n)
  | op, v => .error (.typeMismatch op.context op.operandKind v.kind)

/-- A binary operator on numbers; only a division can fail. -/
def BinaryOp.applyNumbers (op : BinaryOp) (a b : Int64) : Except Cause Value :=
  match op with
  | add => .ok (.number (a + b))
  | sub => .ok (.number (a - b))
  | mul => .ok (.number (a * b))
  -- The least number by -1 wraps, as everything else does.
  | div => if b = 0 then .error .divisionByZero else .ok (.number (a / b))
  | eq => .ok (.boolean (a == b))
  | ne => .ok (.boolean (a != b))
  | lt => .ok (.boolean (a < b))
  | le => .ok (.boolean (a ≤ b))
  | gt => .ok (.boolean (a > b))
  | ge => .ok (.boolean (a ≥ b))

def BinaryOp.apply (op : BinaryOp) : Value → Value → Except Cause Value
  | .number a, .number b => op.applyNumbers a b
  | .number _, v => .error (.typeMismatch op.context .number v.kind)
  -- The left operand is looked at first.
  | v, _ => .error (.typeMismatch op.context .number v.kind)

end LexCell
