import LexCell.Command
import LexCell.Directory
import LexCell.Eval
import LexCell.Arena.ReadBack
import LexCell.Program
import LexCell.Text.Quoted

/-!
# Reports

What a use of the command prints and how it exits. A run reads the program text, lists its trees if
asked to, evaluates it, and prints its value on one line, short or in prose; an error is printed on
one line in quotes, and the node at fault on the other stream.

What is said of a text that is no JSON belongs to the reader of JSON. Reports take it as a
parameter: `words` gives it for each text.
-/

namespace LexCell

/-- How a use of the command ends. `fault` is for a reference that dangles. -/
inductive Exit where
  | success
  | unreadable
  | runtimeError
  | malformed
  | usage
  | fault
  deriving DecidableEq

def Exit.code : Exit → Nat
  | success => 0
  | unreadable => 1
  | runtimeError => 2
  | malformed => 3
  | usage => 64
  | fault => 101

/-- An exit, and what was written to the two output streams. -/
structure Report where
  exit : Exit
  out : String
  err : String
  deriving DecidableEq

def SourceError.exit : SourceError → Exit
  | invalidJson _ => .unreadable
  | invalidDocument _ => .malformed

def SourceError.message : SourceError → String
  | invalidJson detail => "invalid JSON: " ++ detail
  | invalidDocument e => e.message

namespace Report

def fault : Report := ⟨.fault, "", ""⟩

/-! ### Runs

A run has one outcome and prints one line for it. The listing comes first, so it is printed also
where the run stops. -/

def valueLine (options : Options) (v : Value) : String :=
  if options.describe then v.describe ++ "\n" else "(value " ++ v.display ++ ")\n"

def errorLine (e : EvalError) : String := "(error " ++ Text.quote e.message ++ ")\n"

/-- The note on the node at fault; `none` if it has no written form. -/
def siteNote? (p : Program) (t : Interner) (e : EvalError) : Option String :=
  match e.node with
  | none => some ""
  | some id => (p.arena.render? t id).map fun text => "  in " ++ text ++ "\n"

def listing? (options : Options) (p : Program) (t : Interner) : Option String :=
  if options.printTree then (p.render? t).map (· ++ "\n") else some ""

def ofOutcome (options : Options) (p : Program) (t : Interner) (listing : String) :
    Except Stop Value → Report
  | .ok v => ⟨.success, listing ++ valueLine options v, ""⟩
  | .error (.error e) =>
      match siteNote? p t e with
      | some note => ⟨.runtimeError, listing ++ errorLine e, note⟩
      -- The node at fault is not in the tables.
      | none => fault
  | .error .dangling => fault

/-- Runs a program text, evaluations nesting at most `fuel` deep. -/
def ofSource (words : String → String) (source : String) (options : Options) (fuel : Nat) :
    Option Report :=
  match Program.ofText (words source) source Interner.initial with
  | (.error e, _) => some ⟨e.exit, "", "error: " ++ e.message ++ "\n"⟩
  | (.ok p, t) =>
      match listing? options p t with
      -- A reference dangles somewhere below the statements.
      | none => some fault
      | some listing => (p.run t fuel).map fun r => ofOutcome options p t listing r.1

/-! ### The command -/

def version : String := "inter 0.1.0\n"

def usageLine : String := "Usage: inter [--print-ast] [--describe] [FILE]\n"

def help : String :=
  "Inter - evaluate ESTree JSON programs\n" ++
  "\n" ++
  "Usage: inter [OPTIONS] [FILE]\n" ++
  "\n" ++
  "Reads the program from FILE, or from stdin when FILE is absent or `-`.\n" ++
  "\n" ++
  "Options:\n" ++
  "  --print-ast    Print each top-level statement before evaluating\n" ++
  "  --describe     Render the result in prose\n" ++
  "  -h, --help     Print this help\n" ++
  "  -V, --version  Print the version\n" ++
  "\n" ++
  "Exit status:\n" ++
  "  0   success\n" ++
  "  1   input unreadable or not JSON\n" ++
  "  2   runtime error\n" ++
  "  3   malformed program\n" ++
  "  64  usage error\n"

/-- How a message names where the program should have come from. -/
def origin : Input → String
  | .stdin => "stdin"
  | .file name => "'" ++ name ++ "'"

def ofUnreadable (input : Input) (e : ReadError) : Report :=
  ⟨.unreadable, "", "error: unable to read " ++ origin input ++ ": " ++ e.message ++ "\n"⟩

def ofUsageError (e : UsageError) : Report :=
  ⟨.usage, "", "error: " ++ e.message ++ "\n" ++ usageLine⟩

/-- A whole use of the command; `read` gives the text of an input or the reason why there is
none. -/
def ofArguments (words : String → String) (arguments : List String)
    (read : Input → Except ReadError String) (fuel : Nat) : Option Report :=
  match Command.ofArguments arguments with
  | .error e => some (ofUsageError e)
  | .ok .help => some ⟨.success, help, ""⟩
  | .ok .version => some ⟨.success, version, ""⟩
  | .ok (.run options) => -- the text is read only for a run
      match read options.input with
      | .error e => some (ofUnreadable options.input e)
      | .ok source => ofSource words source options fuel

/-- A whole use of the command in a directory, with a text on standard input. -/
def inDirectory (words : String → String) (arguments : List String) (d : Directory)
    (stdin : String) (fuel : Nat) : Option Report :=
  let read : Input → Except ReadError String
    | .stdin => .ok stdin
    | .file path => d.read path
  ofArguments words arguments read fuel

end Report

end LexCell
