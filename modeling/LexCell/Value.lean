import LexCell.Arena
import LexCell.Decimal.Digits
import LexCell.Tree
import LexCell.Environment

/-!
# Values

What an expression evaluates to: a 64-bit number, a truth value, a function together with the
environment it was created in, or nothing (`void`). A function's environment holds slots, not
values, so the type is not recursive.
-/

namespace LexCell

/-- A function value: its parameter, its body, and what was visible where it was created. -/
structure Closure where
  env : Environment
  param : Name
  body : NodeId
  deriving DecidableEq

inductive Value where
  | number (n : Int64)
  | boolean (b : Bool)
  | function (closure : Closure)
  | void
  deriving DecidableEq

/-- The kinds that errors speak of. -/
inductive Kind where
  | number
  | boolean
  | function
  | void
  deriving DecidableEq

def Kind.label : Kind → String
  | number => "number"
  | boolean => "boolean"
  | function => "function"
  | void => "void"

namespace Value

def kind : Value → Kind
  | number _ => .number
  | boolean _ => .boolean
  | function _ => .function
  | void => .void

def number? : Value → Option Int64
  | number n => some n
  | _ => none

def boolean? : Value → Option Bool
  | boolean b => some b
  | _ => none

def isVoid : Value → Bool
  | void => true
  | _ => false

/-- The short form of a value; all functions look alike. -/
def display : Value → String
  | number n => "(number " ++ decimal n ++ ")"
  | boolean b => "(boolean " ++ truth b ++ ")"
  -- Neither the body nor the environment is shown.
  | function _ => "(function)"
  | void => "void"

def describe : Value → String
  | number n => "a number value of " ++ decimal n
  | boolean b => "a boolean value of " ++ truth b
  | function _ => "a function value"
  | void => "a void value"

end Value

end LexCell
