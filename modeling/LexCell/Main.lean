import LexCell.Report

/-!
# The command

Fetches the arguments and the program text, prints the report and exits with its code.
-/

namespace LexCell

/-- How deep evaluations may nest. -/
def maxNesting : Nat := 10000000

/-- What is said of a text that is no JSON. -/
def notJson (_source : String) : String := "the text does not follow the grammar"

def readError : IO.Error → ReadError
  | .noFileOrDirectory .. => .missing
  | e => .other (toString e)

def fetch : Input → IO String
  | .stdin => do (← IO.getStdin).readToEnd
  | .file name => IO.FS.readFile name

/-- The text of the input that the arguments name, if they ask for a run. -/
def fetchFor (arguments : List String) : IO (Except ReadError String) := do
  match Command.ofArguments arguments with
  | .ok (.run options) =>
      try return .ok (← fetch options.input)
      catch e => return .error (readError e)
  -- No other use of the command reads anything.
  | _ => return .ok ""

/-- Prints the report of a use of the command and answers its exit code. -/
def runCommand (arguments : List String) : IO UInt32 := do
  let text ← fetchFor arguments
  match Report.ofArguments notJson arguments (fun _ => text) maxNesting with
  -- The code of a process that aborts.
  | none =>
      IO.eprint "error: evaluation nests too deeply\n"
      return 134
  | some report =>
      IO.print report.out
      IO.eprint report.err
      return report.exit.code.toUInt32

end LexCell

def main (arguments : List String) : IO UInt32 := LexCell.runCommand arguments
