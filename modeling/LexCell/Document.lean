import LexCell.Document.Element
import LexCell.Json.Printer
import LexCell.Tree

/-!
# Documents

A document is a JSON value that describes a program as a tree of elements. Reading one goes from the
root down, from left to right, and stops at the first violation; it gives the trees of the program's
statements and, in the order in which they were met, the strings that become names. The strings met
before a violation are part of the result, so reading is `Reading`: a log of names and an outcome.

An operator that is not one of the language is no violation. Its element becomes a `malformed` tree
that carries the token, and its operands are not looked at.
-/

namespace LexCell

/-! ### The types of elements -/

inductive ElementType where
  | program
  | expressionStatement
  | returnStatement
  | variableDeclaration
  | blockStatement
  | literal
  | identifier
  | unaryExpression
  | binaryExpression
  | logicalExpression
  | conditionalExpression
  | functionExpression
  | callExpression
  | assignmentExpression
  deriving DecidableEq

/-- The type that a text names; functions have two spellings. -/
def ElementType.ofText? : String → Option ElementType
  | "Program" => some program
  | "ExpressionStatement" => some expressionStatement
  | "ReturnStatement" => some returnStatement
  | "VariableDeclaration" => some variableDeclaration
  | "BlockStatement" => some blockStatement
  | "Literal" => some literal
  | "Identifier" => some identifier
  | "UnaryExpression" => some unaryExpression
  | "BinaryExpression" => some binaryExpression
  | "LogicalExpression" => some logicalExpression
  | "ConditionalExpression" => some conditionalExpression
  | "FunctionExpression" => some functionExpression
  | "ArrowFunctionExpression" => some functionExpression
  | "CallExpression" => some callExpression
  | "AssignmentExpression" => some assignmentExpression
  | _ => none

def Element.type? (e : Element) : Option ElementType := ElementType.ofText? e.kind

/-! ### Readings -/

/-- The names met so far, and what came out. -/
structure Reading (α : Type) where
  names : List String
  outcome : Except DocumentError α

namespace Reading

variable {α β : Type}

protected def pure (a : α) : Reading α := ⟨[], .ok a⟩

protected def bind (r : Reading α) (f : α → Reading β) : Reading β :=
  match r.outcome with
  | .ok a =>
      let s := f a
      ⟨r.names ++ s.names, s.outcome⟩
  | .error e => ⟨r.names, .error e⟩

instance : Monad Reading where
  pure := Reading.pure
  bind := Reading.bind

def fail (e : DocumentError) : Reading α := ⟨[], .error e⟩

def check (x : Except DocumentError α) : Reading α := ⟨[], x⟩

def meet (name : String) : Reading String := ⟨[name], .ok name⟩

@[simp] theorem pure_bind (a : α) (f : α → Reading β) : (pure a : Reading α) >>= f = f a := rfl

@[simp] theorem fail_bind (e : DocumentError) (f : α → Reading β) :
    (fail e : Reading α) >>= f = fail e := rfl

@[simp] theorem check_ok (a : α) : (check (.ok a) : Reading α) = pure a := rfl

@[simp] theorem check_error (e : DocumentError) : (check (.error e) : Reading α) = fail e := rfl

private theorem map_id_eq (r : Reading α) : Reading.bind r (fun a => Reading.pure (id a)) = r := by
  obtain ⟨names, outcome⟩ := r
  cases outcome with
  | error => rfl
  | ok a => simp [Reading.bind, Reading.pure]

private theorem bind_assoc_eq {γ : Type} (r : Reading α) (f : α → Reading β) (g : β → Reading γ) :
    Reading.bind (Reading.bind r f) g = Reading.bind r fun a => Reading.bind (f a) g := by
  obtain ⟨names, outcome⟩ := r
  cases outcome with
  | error => rfl
  | ok a =>
      simp only [Reading.bind]
      cases (f a).outcome <;> simp

instance : LawfulMonad Reading :=
  LawfulMonad.mk' _ map_id_eq (fun _ _ => rfl) bind_assoc_eq

end Reading

/-! ### Literals -/

/-- A `value` that is neither absent nor `null`. -/
def literalOfJson (j : Json) : Except DocumentError (Tree String) :=
  match j with
  | .boolean b => .ok (.boolean b)
  | .number (.integer n) =>
      match wordOf? n with
      | some n => .ok (.number n)
      | none => .error (.invalidLiteral j.compact)
  | j => .error (.invalidLiteral j.compact)

def literalOfText (raw : String) : Except DocumentError (Tree String) :=
  if raw = "true" then .ok (.boolean true)
  else if raw = "false" then .ok (.boolean false)
  else
    match ofDecimal? raw with
    | some n => .ok (.number n)
    | none => .error (.invalidLiteral raw)

/-- A literal has a `value`, or else `raw` text. -/
def Element.literal (e : Element) : Except DocumentError (Tree String) :=
  match e.field? "value" with
  | some j => literalOfJson j.val
  | none => do literalOfText (← e.text "raw")

/-! ### Names in elements -/

def Element.name (e : Element) : Reading String := do
  Reading.meet (← Reading.check (e.text "name"))

/-- A token in operator position that is no operator. -/
def malformed (token : String) : Reading (Tree String) := do
  return .malformed (← Reading.meet token)

/-- The parameter of a function: the empty name if it declares none. -/
def Element.parameter (e : Element) : Reading String := do
  let params ← Reading.check (e.items "params")
  match params.val with
  | [] => return ""
  | [p] =>
      let p ← Reading.check (Element.ofJson p)
      if p.val.type? = some .identifier then p.val.name
      else Reading.fail (.wrongFieldType e.kind "params" "a list of identifiers")
  | ps => Reading.fail (.tooManyParameters ps.length)

def Element.argument (e : Element) :
    Except DocumentError { j : Json // sizeOf j < e.size } := do
  match ← e.items "arguments" with
  | ⟨[j], h⟩ => .ok ⟨j, by simp only [List.cons.sizeOf_spec] at h; omega⟩
  | js => .error (.argumentCount js.val.length)

/-! ### Trees -/

mutual

/-- The tree that an element describes. -/
def Element.tree (e : Element) : Reading (Tree String) :=
  match e.type? with
  | none | some .program => Reading.fail (.unknownNodeType e.kind)
  | some .expressionStatement => do
      let c ← Reading.check (e.child "expression")
      c.val.tree
  | some .returnStatement => do
      let c ← Reading.check (e.child "argument")
      c.val.tree
  | some .variableDeclaration => do
      let ds ← Reading.check (e.items "declarations")
      return .bind (← declarations ds.val)
  | some .blockStatement => do
      let body ← Reading.check (e.items "body")
      if body.val.isEmpty then Reading.fail .emptyBlock
      else return .block (← statements body.val)
  | some .literal => Reading.check e.literal
  | some .identifier => do return .ident (← e.name)
  | some .unaryExpression => do
      let token ← Reading.check (e.text "operator")
      match UnaryOp.ofSymbol? token with
      | none => malformed token
      | some op => do
          let operand ← Reading.check (e.child "argument")
          return .unary op (← operand.val.tree)
  | some .binaryExpression => do
      let token ← Reading.check (e.text "operator")
      match BinaryOp.ofSymbol? token with
      | none => malformed token
      | some op => do
          let left ← Reading.check (e.child "left")
          let l ← left.val.tree
          let right ← Reading.check (e.child "right")
          return .binary op l (← right.val.tree)
  | some .logicalExpression => do
      let token ← Reading.check (e.text "operator")
      match LogicalOp.ofSymbol? token with
      | none => malformed token
      | some op => do
          let left ← Reading.check (e.child "left")
          let l ← left.val.tree
          let right ← Reading.check (e.child "right")
          return .logical op l (← right.val.tree)
  | some .conditionalExpression => do
      let test ← Reading.check (e.child "test")
      let t ← test.val.tree
      let consequent ← Reading.check (e.child "consequent")
      let c ← consequent.val.tree
      let alternate ← Reading.check (e.child "alternate")
      return .conditional t c (← alternate.val.tree)
  | some .functionExpression => do
      let param ← e.parameter
      let body ← Reading.check (e.child "body")
      return .function param (← body.val.tree)
  | some .callExpression => do
      let argument ← Reading.check e.argument
      let callee ← Reading.check (e.child "callee")
      let c ← callee.val.tree
      let a ← Reading.check (Element.ofJson argument.val)
      return .call c (← a.val.tree)
  | some .assignmentExpression => do
      let target ← Reading.check (e.child "left")
      if target.val.type? = some .identifier then
        let token ← Reading.check (e.text "operator")
        if token = "=" then
          let name ← target.val.name
          let value ← Reading.check (e.child "right")
          return .assign name (← value.val.tree)
        else malformed token
      else Reading.fail (.invalidAssignmentTarget target.val.kind)
termination_by e.size
decreasing_by
  all_goals first
    | exact c.property
    | exact ds.property
    | exact body.property
    | exact operand.property
    | exact left.property
    | exact right.property
    | exact test.property
    | exact consequent.property
    | exact alternate.property
    | exact callee.property
    | exact value.property
    | exact Nat.lt_trans a.property argument.property

def statements (js : List Json) : Reading (List (Tree String)) :=
  match js with
  | [] => return []
  | j :: rest => do
      let e ← Reading.check (Element.ofJson j)
      let t ← e.val.tree
      return t :: (← statements rest)
termination_by sizeOf js
decreasing_by
  · have := e.property
    simp only [List.cons.sizeOf_spec]
    omega
  · simp only [List.cons.sizeOf_spec]
    omega

/-- The declared names of a list of declarators, each with the tree of its first value. -/
def declarations (js : List Json) : Reading (List (String × Tree String)) :=
  match js with
  | [] => return []
  | j :: rest => do
      let d ← Reading.check (Element.ofJson j)
      let id ← Reading.check (d.val.child "id")
      if id.val.type? = some .identifier then
        let name ← id.val.name
        let init ← Reading.check (d.val.child "init")
        let t ← init.val.tree
        return (name, t) :: (← declarations rest)
      else Reading.fail (.wrongFieldType d.val.kind "id" "an identifier")
termination_by sizeOf js
decreasing_by
  · have := Nat.lt_trans init.property d.property
    simp only [List.cons.sizeOf_spec]
    omega
  · simp only [List.cons.sizeOf_spec]
    omega

end

/-- The statements of the program that a document describes. -/
def Json.program (doc : Json) : Reading (List (Tree String)) := do
  let root ← Reading.check (Element.ofJson doc)
  if root.val.type? = some .program then
    let body ← Reading.check (root.val.items "body")
    if body.val.isEmpty then Reading.fail .emptyProgram
    else statements body.val
  else Reading.fail (.notAProgram root.val.kind)

end LexCell
