import LexCell.Action
import LexCell.Arena
import LexCell.Arena.Layout
import LexCell.Arena.Printer
import LexCell.Arena.ReadBack
import LexCell.Assoc
import LexCell.Command
import LexCell.Decimal.Digits
import LexCell.Decimal.Shortest
import LexCell.Directory
import LexCell.Document
import LexCell.Document.Element
import LexCell.Document.Error
import LexCell.Environment
import LexCell.Eval
import LexCell.EvalError
import LexCell.Heap
import LexCell.Interner
import LexCell.Interner.Handles
import LexCell.Json
import LexCell.Json.Number
import LexCell.Json.Parser
import LexCell.Json.Printer
import LexCell.Main
import LexCell.Name
import LexCell.Operator
import LexCell.Operator.Apply
import LexCell.Program
import LexCell.Report
import LexCell.Store
import LexCell.Text.Printable
import LexCell.Text.Quoted
import LexCell.Tree
import LexCell.Value
import LexCell.Proofs.Machine
import LexCell.Proofs.Machine.Adequacy
import LexCell.Proofs.Arena.Layout
import LexCell.Proofs.Machine.Discipline
import LexCell.Proofs.Arena.ReadBack
import LexCell.Proofs.Machine.InRange
import LexCell.Proofs.Safety
import LexCell.Proofs.BigStep
import LexCell.Proofs.BigStep.Reading
import LexCell.Proofs.BigStep.Moves
import LexCell.Proofs.BigStep.Answers
import LexCell.Proofs.BigStep.Agreement
import LexCell.Proofs.Scope
import LexCell.Proofs.Machine.Unwinding
import LexCell.Proofs.Scope.Lexical
import LexCell.Proofs.Ownership
import LexCell.Proofs.Decimal
import LexCell.Proofs.Grammar
import LexCell.Proofs.Grammar.Parts
import LexCell.Proofs.Grammar.Sound
import LexCell.Proofs.Grammar.Complete
import LexCell.Proofs.Arena.Faithful
import LexCell.Proofs.Acceptance
import LexCell.Proofs.Faults
import LexCell.Proofs.Lockstep
import LexCell.Proofs.Locality
import LexCell.Proofs.HeapFree
import LexCell.Proofs.HeapFree.Constant
import LexCell.Proofs.HeapFree.Agreement
import LexCell.Proofs.Following
import LexCell.Proofs.Machine.Visits
import LexCell.Proofs.Inert
import LexCell.Proofs.Encoding
import LexCell.Proofs.Interner
import LexCell.Proofs.Arena.Canonical
import LexCell.Proofs.Arena.Printer
import LexCell.Proofs.Correspondence
import LexCell.Proofs.Arena.Renaming
import LexCell.Proofs.History
import LexCell.Proofs.Isolation
import LexCell.Proofs.Unbounded
import LexCell.Proofs.Sequencing
import LexCell.Proofs.Application
import LexCell.Proofs.Irrelevance
import LexCell.Proofs.Command
import LexCell.Proofs.Report
import LexCell.Proofs.Text.Quoted
import LexCell.Proofs.OutcomeLine
import LexCell.Proofs.Interner.Indexed
import LexCell.Proofs.Interner.Handles
import LexCell.Proofs.Sexp
import LexCell.Proofs.Tree.Notation
import LexCell.Proofs.Unnamed
import LexCell.Proofs.Json.Place
import LexCell.Proofs.Relevance
import LexCell.Proofs.Json.Written
import LexCell.Proofs.IntegerLiteral
import LexCell.Proofs.Termination
import LexCell.Proofs.Arithmetic
import LexCell.Proofs.Allocation
import LexCell.Proofs.Store
import LexCell.Proofs.Command.Decisive
import LexCell.Proofs.Foreign
import LexCell.Proofs.Interner.Interleaving
import LexCell.Proofs.Arena.Handles
