/-!
# What can be wrong with a document

A document is JSON, but need not describe a program. A `DocumentError` says what was found in place
of what the grammar of documents asks for.
-/

namespace LexCell

/-- Why a document is no program. -/
inductive DocumentError where
  | expectedNode (found : String)
  | notAProgram (kind : String)
  | missingField (node field : String)
  | wrongFieldType (node field expected : String)
  | unknownNodeType (kind : String)
  | emptyBlock
  | emptyProgram
  | tooManyParameters (count : Nat)
  | argumentCount (count : Nat)
  | invalidAssignmentTarget (kind : String)
  | invalidLiteral (text : String)
  deriving DecidableEq

def DocumentError.message : DocumentError → String
  | expectedNode found => "expected a node object, found " ++ found
  | notAProgram kind => "expected a `Program` node, found `" ++ kind ++ "`"
  | missingField node field => "`" ++ node ++ "` node is missing field `" ++ field ++ "`"
  | wrongFieldType node field expected =>
      "field `" ++ field ++ "` of `" ++ node ++ "` node must be " ++ expected
  | unknownNodeType kind => "unknown node type `" ++ kind ++ "`"
  | emptyBlock => "block statement has no statements"
  | emptyProgram => "program has no statements"
  | tooManyParameters count =>
      "function declares " ++ toString count ++ " parameters, at most one is supported"
  | argumentCount count =>
      "call passes " ++ toString count ++ " arguments, exactly one is required"
  | invalidAssignmentTarget kind => "cannot assign to `" ++ kind ++ "` node"
  | invalidLiteral text => "invalid literal `" ++ text ++ "`"

end LexCell
