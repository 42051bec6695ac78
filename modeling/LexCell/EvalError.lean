import LexCell.Value

/-!
# What can go wrong in a run

An `EvalError` is a cause and the node at which it arose. The node is recorded once: whoever passes
the error on may offer its own node with `locate`, but the innermost one, which came first, stays.
-/

namespace LexCell

namespace EvalError

inductive Cause where
  | unboundIdentifier (name : String)
  | typeMismatch (context : String) (expected got : Kind)
  | divisionByZero
  | notCallable (got : Kind)
  | unknownOperator (token : String)
  deriving DecidableEq

/-- The cause in words. Names and tokens are printed as they are. -/
def Cause.message : Cause → String
  | unboundIdentifier name => "unbound identifier: `" ++ name ++ "`"
  | typeMismatch context expected got =>
      "type mismatch in " ++ context ++ ": expected " ++ expected.label ++ ", got " ++ got.label
  | divisionByZero => "division by zero"
  | notCallable got => "`" ++ got.label ++ "` is not callable"
  | unknownOperator token => "unknown operator `" ++ token ++ "`"

end EvalError

/-- A cause, and the node at fault once it is known. -/
structure EvalError where
  cause : EvalError.Cause
  node : Option NodeId := none
  deriving DecidableEq

namespace EvalError

/-- Records the node at fault, unless a node further in has been recorded. -/
def locate (e : EvalError) (id : NodeId) : EvalError :=
  { e with node := e.node <|> some id }

def message (e : EvalError) : String := e.cause.message

@[simp] theorem locate_of_none (c : Cause) (id : NodeId) :
    locate ⟨c, none⟩ id = ⟨c, some id⟩ := rfl

/-- The node that came first stays. -/
@[simp] theorem locate_of_some (c : Cause) (id id' : NodeId) :
    locate ⟨c, some id⟩ id' = ⟨c, some id⟩ := rfl

end EvalError

end LexCell
