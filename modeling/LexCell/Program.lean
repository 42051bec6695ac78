import LexCell.Arena.Layout
import LexCell.Document
import LexCell.Json.Parser

/-!
# Programs from documents

The way from program text to a program laid out in tables: the text is read as JSON, the document as
trees, and the trees are laid out. The interner grows by the names that the document mentions, up to
the first violation if there is one.
-/

namespace LexCell

/-- Why a text is no program. The reader of JSON adds a detail in its own words. -/
inductive SourceError where
  | invalidJson (detail : String)
  | invalidDocument (e : DocumentError)
  deriving DecidableEq

def Program.ofJson (doc : Json) (t : Interner) : Except DocumentError Program × Interner :=
  let reading := doc.program
  match reading.outcome with
  | .ok statements =>
      let (p, t) := Program.ofTrees statements t
      (.ok p, t)
  -- What was met before the violation has been interned.
  | .error e => (.error e, t.internAll reading.names)

/-- The program that a text describes, and the interner with its names; `detail` is what there is to
say of the text if it is no JSON. -/
def Program.ofText (detail source : String) (t : Interner) :
    Except SourceError Program × Interner :=
  match Json.parse? source with
  | none => (.error (.invalidJson detail), t)
  | some doc =>
      match Program.ofJson doc t with
      | (.ok p, t) => (.ok p, t)
      | (.error e, t) => (.error (.invalidDocument e), t)

end LexCell
