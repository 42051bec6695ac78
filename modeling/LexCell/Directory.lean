/-!
# Directories

A `Directory` holds texts, each under the parts of its path. A path is walked from the directory
itself, part by part: an empty part or `.` stays, `..` goes back, and any other part goes to the
entry of that name. A part is only looked for in a directory, and what the whole path leads to has
to be a file. What lies outside of the directory counts as missing.
-/

namespace LexCell

/-- Why a path leads to no text. -/
inductive ReadError where
  | missing
  | notDirectory
  | isDirectory
  | other (reason : String)
  deriving DecidableEq

def ReadError.message : ReadError → String
  | missing => "No such file or directory (os error 2)"
  | notDirectory => "Not a directory (os error 20)"
  | isDirectory => "Is a directory (os error 21)"
  | other reason => reason

/-- Files by the parts of their paths. A directory within is there if it holds a file. -/
structure Directory where
  files : List (List String × String)

namespace Directory

def parts (path : String) : List String := (path.toList.splitOn '/').map String.ofList

def ofList (files : List (String × String)) : Directory :=
  -- Slashes that stand together, or at an end, separate nothing.
  ⟨files.map fun (path, text) => ((parts path).filter (· ≠ ""), text)⟩

def text? (d : Directory) (place : List String) : Option String := d.files.lookup place

def contains (d : Directory) (place : List String) : Bool :=
  d.files.any fun (path, _) => place.isPrefixOf path

def step (d : Directory) (place : List String) (part : String) : Except ReadError (List String) :=
  match d.text? place with
  -- A file has no parts, and not even `.` stays at it.
  | some _ => .error .notDirectory
  | none =>
      if part = "" ∨ part = "." then .ok place
      else if part = ".." then
        -- What lies outside counts as missing.
        if place = [] then .error .missing else .ok place.dropLast
      else if d.contains (place ++ [part]) then .ok (place ++ [part])
      else .error .missing

/-- The text that a path leads to. The empty path leads nowhere, and one that starts with a slash
leads outside. -/
def read (d : Directory) (path : String) : Except ReadError String :=
  if path = "" ∨ path.toList.head? = some '/' then .error .missing
  else do
    let place ← (parts path).foldlM d.step []
    match d.text? place with
    | some text => .ok text
    | none => .error .isDirectory

end Directory

end LexCell
