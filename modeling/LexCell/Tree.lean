import LexCell.Decimal.Digits
import LexCell.Operator

/-!
# Expression trees

A program is a list of trees. The type of names is a parameter: a tree read from a document holds
strings, a tree read back from an arena holds names of an interner, and `traverse` turns the one
into the other.

`render` writes a tree as an s-expression, an empty name as `_`.
-/

namespace LexCell

/-- An expression or statement with its parts. -/
inductive Tree (ν : Type) where
  | number (n : Int64)
  | boolean (b : Bool)
  | unary (op : UnaryOp) (operand : Tree ν)
  | binary (op : BinaryOp) (left right : Tree ν)
  | logical (op : LogicalOp) (left right : Tree ν)
  | conditional (test consequent alternate : Tree ν)
  | ident (name : ν)
  | bind (declarations : List (ν × Tree ν))
  | function (param : ν) (body : Tree ν)
  | call (callee argument : Tree ν)
  | assign (target : ν) (value : Tree ν)
  | block (statements : List (Tree ν))
  | malformed (token : ν)

def truth (b : Bool) : String := if b then "true" else "false"

namespace Tree

variable {ν μ : Type}

/-! ### Changing the names

The shape stays: `traverse` fails only where a name has no replacement. -/

mutual

/-- Replaces every name, if each has a replacement. -/
def traverse (f : ν → Option μ) : Tree ν → Option (Tree μ)
  | number n => some (number n)
  | boolean b => some (boolean b)
  | unary op t => do some (unary op (← traverse f t))
  | binary op l r => do some (binary op (← traverse f l) (← traverse f r))
  | logical op l r => do some (logical op (← traverse f l) (← traverse f r))
  | conditional t c a => do
      some (conditional (← traverse f t) (← traverse f c) (← traverse f a))
  | ident n => do some (ident (← f n))
  | bind ds => do some (bind (← traverseDeclarations f ds))
  | function p b => do some (function (← f p) (← traverse f b))
  | call c a => do some (call (← traverse f c) (← traverse f a))
  | assign n v => do some (assign (← f n) (← traverse f v))
  | block ss => do some (block (← traverseAll f ss))
  | malformed n => do some (malformed (← f n))

def traverseAll (f : ν → Option μ) : List (Tree ν) → Option (List (Tree μ))
  | [] => some []
  | t :: ts => do some ((← traverse f t) :: (← traverseAll f ts))

def traverseDeclarations (f : ν → Option μ) : List (ν × Tree ν) → Option (List (μ × Tree μ))
  | [] => some []
  | (n, t) :: ds => do
      some ((← f n, ← traverse f t) :: (← traverseDeclarations f ds))

end

/-! ### Writing trees

Every form is in brackets except a name. A list of parts has no brackets of its own and brings its
blanks along. -/

/-- A name as it is written: the empty one as `_`. -/
def label (name : String) : String := if name = "" then "_" else name

mutual

def render : Tree String → String
  | number n => "(number " ++ decimal n ++ ")"
  | boolean b => "(boolean " ++ truth b ++ ")"
  | unary op t => "(unary " ++ op.symbol ++ " " ++ render t ++ ")"
  -- Arithmetic and comparisons are told apart in writing.
  | binary op l r =>
      "(" ++ op.family.label ++ " " ++ op.symbol ++ " " ++ render l ++ " " ++ render r ++ ")"
  | logical op l r => "(logical " ++ op.symbol ++ " " ++ render l ++ " " ++ render r ++ ")"
  | conditional t c a =>
      "(conditional " ++ render t ++ " " ++ render c ++ " " ++ render a ++ ")"
  | ident n => label n
  | bind ds => "(let" ++ renderDeclarations ds ++ ")"
  | function p b => "(function " ++ label p ++ " " ++ render b ++ ")"
  | call c a => "(call " ++ render c ++ " " ++ render a ++ ")"
  | assign n v => "(assign " ++ label n ++ " " ++ render v ++ ")"
  | block ss => "(block" ++ renderAll ss ++ ")"
  | malformed n => "(malformed " ++ label n ++ ")"

/-- Trees with a blank before each. -/
def renderAll : List (Tree String) → String
  | [] => ""
  | t :: ts => " " ++ render t ++ renderAll ts

/-- Bracketed pairs with a blank before each. -/
def renderDeclarations : List (String × Tree String) → String
  | [] => ""
  | (n, t) :: ds => " [" ++ label n ++ " " ++ render t ++ "]" ++ renderDeclarations ds

end

def renderLines (statements : List (Tree String)) : String :=
  "\n".intercalate (statements.map render)

end Tree

end LexCell
