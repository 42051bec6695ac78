/-!
# The command line

Arguments are read from the left. Flags may come in any order around at most one operand, the
program's file (`-` for standard input); the first argument that asks for help or the version, is
unknown, or is a second operand decides the outcome whatever follows it.
-/

namespace LexCell

inductive Input where
  | stdin
  | file (name : String)
  deriving DecidableEq

structure Options where
  input : Input := .stdin
  printTree : Bool := false
  describe : Bool := false
  deriving DecidableEq

inductive Command where
  | run (options : Options)
  | help
  | version
  deriving DecidableEq

inductive UsageError where
  | unknownOption (argument : String)
  | extraArgument (argument : String)
  deriving DecidableEq

def UsageError.message : UsageError → String
  | unknownOption a => "unknown option `" ++ a ++ "`"
  | extraArgument a => "unexpected argument `" ++ a ++ "`: only one input file is accepted"

namespace Command

/-- What a single argument means by itself. -/
inductive Argument where
  | help
  | version
  | printTree
  | describe
  | unknown
  | operand (input : Input)
  deriving DecidableEq

def Argument.ofString (a : String) : Argument :=
  match a with
  | "-h" | "--help" => .help
  | "-V" | "--version" => .version
  | "--print-ast" => .printTree
  | "--describe" => .describe
  | "-" => .operand .stdin
  | a => if a.toList.head? = some '-' then .unknown else .operand (.file a)

/-- Reads the arguments that are left; `operand` is the one met so far. -/
def read (options : Options) (operand : Option Input) : List String → Except UsageError Command
  | [] => .ok (.run { options with input := operand.getD .stdin })
  | a :: rest =>
      match Argument.ofString a with
      | .help => .ok .help
      | .version => .ok .version
      | .printTree => read { options with printTree := true } operand rest
      | .describe => read { options with describe := true } operand rest
      -- What is left is not looked at.
      | .unknown => .error (.unknownOption a)
      -- A second operand is one too many.
      | .operand input =>
          match operand with
          | none => read options (some input) rest
          | some _ => .error (.extraArgument a)

def ofArguments (arguments : List String) : Except UsageError Command :=
  read {} none arguments

end Command

end LexCell
