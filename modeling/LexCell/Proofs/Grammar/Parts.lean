import LexCell.Proofs.Grammar

/-!
# Reading by parts

What an element is read as depends on its type. Here is one equation for each type
(`Element.tree_binary`, `Element.tree_call` and so on), in terms of the trees that values and fields
are read as (`Json.tree`, `Element.subtree`). Nothing after this has to open the reader: what holds
of every reading is shown for each type by its equation.
-/

namespace LexCell

open Reading

/-! ### Types

The grammar speaks of the texts that stand in the field `type`, the reader of the types that they
name. Only one type has two texts. -/

def ElementType.texts : ElementType → List String
  | program => ["Program"]
  | expressionStatement => ["ExpressionStatement"]
  | returnStatement => ["ReturnStatement"]
  | variableDeclaration => ["VariableDeclaration"]
  | blockStatement => ["BlockStatement"]
  | literal => ["Literal"]
  | identifier => ["Identifier"]
  | unaryExpression => ["UnaryExpression"]
  | binaryExpression => ["BinaryExpression"]
  | logicalExpression => ["LogicalExpression"]
  | conditionalExpression => ["ConditionalExpression"]
  | functionExpression => ["FunctionExpression", "ArrowFunctionExpression"]
  | callExpression => ["CallExpression"]
  | assignmentExpression => ["AssignmentExpression"]

/-- A text names a type exactly if it is among the texts of the type. -/
theorem ElementType.ofText?_eq_some_iff {text : String} {k : ElementType} :
    ofText? text = some k ↔ text ∈ k.texts := by
  constructor
  · intro h
    unfold ofText? at h
    split at h <;> cases h <;> simp [texts]
  · intro h
    cases k with
    -- The one type that has two texts.
    | functionExpression =>
        simp only [texts, List.mem_cons, List.not_mem_nil, or_false] at h
        obtain rfl | rfl := h <;> rfl
    | _ =>
        obtain rfl := List.mem_singleton.mp h
        rfl

namespace Element

theorem type?_eq_some_iff {e : Element} {k : ElementType} :
    e.type? = some k ↔ e.kind ∈ k.texts :=
  ElementType.ofText?_eq_some_iff

theorem type?_eq_program_iff {e : Element} : e.type? = some .program ↔ e.kind = "Program" :=
  type?_eq_some_iff.trans List.mem_singleton

theorem type?_eq_identifier_iff {e : Element} :
    e.type? = some .identifier ↔ e.kind = "Identifier" :=
  type?_eq_some_iff.trans List.mem_singleton

theorem type?_eq_functionExpression_iff {e : Element} :
    e.type? = some .functionExpression ↔
      e.kind = "FunctionExpression" ∨ e.kind = "ArrowFunctionExpression" := by
  rw [type?_eq_some_iff]
  simp [ElementType.texts]

/-- The kind of an element whose type has only one text. -/
theorem kind_of_type? {e : Element} {k : ElementType} {text : String} (h : e.type? = some k)
    (only : k.texts = [text]) : e.kind = text :=
  List.mem_singleton.mp (only ▸ type?_eq_some_iff.mp h)

theorem type?_of_kind {e : Element} {k : ElementType} {text : String} (kind : e.kind = text)
    (names : ElementType.ofText? text = some k) : e.type? = some k := by
  rw [type?, kind, names]

/-- An element is unknown exactly if no type is found for it, or one that stands only at the
root. -/
theorem unknown_iff {e : Element} :
    e.Unknown ↔ e.type? = none ∨ e.type? = some .program := by
  unfold Unknown type? ElementType.ofText?
  split <;> simp_all

end Element

/-! ### Values and fields

The reader takes an object for an element and goes on with its type. Where that is done for a value,
a field or a declarator the composite has a name here, so a rule of the reader is one for its parts.
-/

def Json.tree (j : Json) : Reading (Tree String) := do
  let e ← Reading.check (Element.ofJson j)
  e.val.tree

/-- The tree that the value of a field describes. -/
def Element.subtree (e : Element) (key : String) : Reading (Tree String) := do
  let c ← Reading.check (e.child key)
  c.val.tree

def Json.declarator (j : Json) : Reading (String × Tree String) := do
  let d ← Reading.check (Element.ofJson j)
  let id ← Reading.check (d.val.child "id")
  if id.val.type? = some .identifier then
    let name ← id.val.name
    let init ← Reading.check (d.val.child "init")
    return (name, ← init.val.tree)
  else Reading.fail (.wrongFieldType d.val.kind "id" "an identifier")

/-- A declarator in terms of the field of its initial value. -/
theorem Json.declarator_eq (j : Json) :
    j.declarator = (do
      let d ← check (Element.ofJson j)
      let id ← check (d.val.child "id")
      if id.val.type? = some .identifier then return (← id.val.name, ← d.val.subtree "init")
      else fail (.wrongFieldType d.val.kind "id" "an identifier")) := by
  rw [declarator]
  simp only [Element.subtree, bind_assoc]

/-! ### Lists

A list is read from the front, so its first element is read before any other. -/

theorem statements_cons (j : Json) (js : List Json) :
    statements (j :: js) = do return (← j.tree) :: (← statements js) := by
  rw [statements, Json.tree, bind_assoc]

theorem declarations_cons (j : Json) (js : List Json) :
    declarations (j :: js) = do return (← j.declarator) :: (← declarations js) := by
  rw [declarations, Json.declarator]
  simp only [bind_assoc]
  -- Both sides look at the element and at the identifier that it declares in the same way; only
  -- what is read afterwards is grouped differently.
  congr 1
  funext d
  congr 1
  funext id
  split
  · simp only [bind_assoc, LawfulMonad.pure_bind]
  · rfl

/-! ### Elements, type by type

Each equation opens the definition of the reader once, with the type known. -/

namespace Element

variable {e : Element}

theorem tree_unknown (h : e.Unknown) : e.tree = fail (.unknownNodeType e.kind) := by
  obtain h | h := unknown_iff.mp h <;> rw [tree, h]

theorem tree_expressionStatement (h : e.type? = some .expressionStatement) :
    e.tree = e.subtree "expression" := by
  rw [tree, h]
  rfl

theorem tree_returnStatement (h : e.type? = some .returnStatement) :
    e.tree = e.subtree "argument" := by
  rw [tree, h]
  rfl

theorem tree_variableDeclaration (h : e.type? = some .variableDeclaration) :
    e.tree = do
      let ds ← check (e.items "declarations")
      return .bind (← declarations ds.val) := by
  rw [tree, h]

theorem tree_blockStatement (h : e.type? = some .blockStatement) :
    e.tree = do
      let body ← check (e.items "body")
      if body.val.isEmpty then fail .emptyBlock else return .block (← statements body.val) := by
  rw [tree, h]

theorem tree_literal (h : e.type? = some .literal) : e.tree = check e.literal := by
  rw [tree, h]

theorem tree_identifier (h : e.type? = some .identifier) :
    e.tree = do return .ident (← e.name) := by
  rw [tree, h]

theorem tree_unaryExpression (h : e.type? = some .unaryExpression) :
    e.tree = do
      let token ← check (e.text "operator")
      match UnaryOp.ofSymbol? token with
      | none => malformed token
      | some op => return .unary op (← e.subtree "argument") := by
  rw [tree, h]
  refine bind_congr fun token => ?_
  cases UnaryOp.ofSymbol? token with
  | none => rfl
  | some op => simp only [subtree, bind_assoc]

theorem tree_binaryExpression (h : e.type? = some .binaryExpression) :
    e.tree = do
      let token ← check (e.text "operator")
      match BinaryOp.ofSymbol? token with
      | none => malformed token
      | some op => return .binary op (← e.subtree "left") (← e.subtree "right") := by
  rw [tree, h]
  refine bind_congr fun token => ?_
  cases BinaryOp.ofSymbol? token with
  | none => rfl
  | some op => simp only [subtree, bind_assoc]

theorem tree_logicalExpression (h : e.type? = some .logicalExpression) :
    e.tree = do
      let token ← check (e.text "operator")
      match LogicalOp.ofSymbol? token with
      | none => malformed token
      | some op => return .logical op (← e.subtree "left") (← e.subtree "right") := by
  rw [tree, h]
  refine bind_congr fun token => ?_
  cases LogicalOp.ofSymbol? token with
  | none => rfl
  | some op => simp only [subtree, bind_assoc]

theorem tree_conditionalExpression (h : e.type? = some .conditionalExpression) :
    e.tree = do
      return .conditional (← e.subtree "test") (← e.subtree "consequent")
        (← e.subtree "alternate") := by
  rw [tree, h]
  simp only [subtree, bind_assoc]

theorem tree_functionExpression (h : e.type? = some .functionExpression) :
    e.tree = do return .function (← e.parameter) (← e.subtree "body") := by
  rw [tree, h]
  simp only [subtree, bind_assoc]

theorem tree_callExpression (h : e.type? = some .callExpression) :
    e.tree = do
      let argument ← check e.argument
      return .call (← e.subtree "callee") (← argument.val.tree) := by
  rw [tree, h]
  simp only [subtree, Json.tree, bind_assoc]

theorem tree_assignmentExpression (h : e.type? = some .assignmentExpression) :
    e.tree = (do
      let target ← check (e.child "left")
      if target.val.type? = some .identifier then
        let token ← check (e.text "operator")
        if token = "=" then return .assign (← target.val.name) (← e.subtree "right")
        else malformed token
      else fail (.invalidAssignmentTarget target.val.kind)) := by
  rw [tree, h]
  simp only [subtree, bind_assoc]

end Element

end LexCell
