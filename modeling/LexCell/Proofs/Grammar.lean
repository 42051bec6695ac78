import LexCell.Document
import LexCell.Proofs.Decimal

/-!
# The grammar of documents

Which JSON values describe a program, and which tree each describes (`Denotes`), said without
reading them: an element is an object with a type, its fields are what the object holds under their
keys, and a tree is described by an element whose fields describe its parts. What an element does
not ask for may be anything.

A value outside the grammar breaks it somewhere. `Violates` says where first: an element asks for
its parts in a fixed order, and each rule names a part that is not as it should be, after all that
are asked for before it are.
-/

namespace LexCell

/-! ### Elements and their fields

A field that is absent and one that holds `null` count alike for what asks for it. So there are two
relations, and the grammar uses no others. -/

/-- The value is an object of this type with these fields. -/
def Json.Is (j : Json) (e : Element) : Prop :=
  j = .object e.fields ∧ e.fields.lookup "type" = some (.string e.kind)

def Json.IsIdentifier (j : Json) (e : Element) : Prop := j.Is e ∧ e.kind = "Identifier"

namespace Element

/-- The field is there, and is not `null`. -/
def Holds (e : Element) (key : String) (j : Json) : Prop :=
  e.fields.lookup key = some j ∧ j ≠ .null

/-- The field is absent or `null`. -/
def Lacks (e : Element) (key : String) : Prop := ∀ j, ¬ e.Holds key j

/-- The parameter that a function declares; without one it is the empty name. -/
inductive Declares (e : Element) : String → Prop where
  | none : e.Holds "params" (.array []) → Declares e ""
  | one {j : Json} {p : Element} {n : String} :
      e.Holds "params" (.array [j]) → j.IsIdentifier p → p.Holds "name" (.string n) →
      Declares e n

end Element

/-! ### Literals

A literal is given as a value or as its source text, and the value counts where there is one. Both
stand for a truth value or an integer of 64 bits. -/

/-- The JSON value is the literal: a truth value, or an integer of 64 bits with a sign. -/
inductive Json.Spells : Json → Tree String → Prop where
  | boolean (b : Bool) : Spells (.boolean b) (.boolean b)
  | integer (n : Int64) : Spells (.number (.integer n.toInt)) (.number n)

/-- The text is the source of the literal. -/
inductive Spelling : String → Tree String → Prop where
  | true : Spelling "true" (.boolean .true)
  | false : Spelling "false" (.boolean .false)
  | decimal {raw : String} {n : Int64} : Writes raw.toList n.toInt → Spelling raw (.number n)

/-! ### Trees

One rule for each type of elements, and one more for a token that is no operator where an operator
stands. The fields of an element are looked up, so their order and any others do not matter. -/

inductive Phrase where
  | value (j : Json) (t : Tree String)
  | element (e : Element) (t : Tree String)
  /-- The value of a field. -/
  | field (e : Element) (key : String) (t : Tree String)
  | statements (js : List Json) (ts : List (Tree String))
  | declarations (js : List Json) (ds : List (String × Tree String))

/-- The grammar: what describes what. -/
inductive Denotes : Phrase → Prop where
  | value {j : Json} {e : Element} {t : Tree String} :
      j.Is e → Denotes (.element e t) → Denotes (.value j t)
  | field {e : Element} {key : String} {j : Json} {t : Tree String} :
      e.Holds key j → Denotes (.value j t) → Denotes (.field e key t)
  | expression_statement {e : Element} {t : Tree String} :
      e.kind = "ExpressionStatement" → Denotes (.field e "expression" t) → Denotes (.element e t)
  | return_statement {e : Element} {t : Tree String} :
      e.kind = "ReturnStatement" → Denotes (.field e "argument" t) → Denotes (.element e t)
  | variable_declaration {e : Element} {js : List Json} {ds : List (String × Tree String)} :
      e.kind = "VariableDeclaration" → e.Holds "declarations" (.array js) →
      Denotes (.declarations js ds) → Denotes (.element e (.bind ds))
  | block_statement {e : Element} {js : List Json} {ts : List (Tree String)} :
      e.kind = "BlockStatement" → e.Holds "body" (.array js) → js ≠ [] →
      Denotes (.statements js ts) → Denotes (.element e (.block ts))
  | literal {e : Element} {j : Json} {t : Tree String} :
      e.kind = "Literal" → e.Holds "value" j → j.Spells t → Denotes (.element e t)
  /-- The source text counts where there is no value. -/
  | raw_literal {e : Element} {raw : String} {t : Tree String} :
      e.kind = "Literal" → e.Lacks "value" → e.Holds "raw" (.string raw) → Spelling raw t →
      Denotes (.element e t)
  | identifier {e : Element} {n : String} :
      e.kind = "Identifier" → e.Holds "name" (.string n) → Denotes (.element e (.ident n))
  | unary {e : Element} {op : UnaryOp} {t : Tree String} :
      e.kind = "UnaryExpression" → e.Holds "operator" (.string op.symbol) →
      Denotes (.field e "argument" t) → Denotes (.element e (.unary op t))
  /-- A token that is no operator is described as it stands, whatever its operands are. -/
  | unary_malformed {e : Element} {token : String} :
      e.kind = "UnaryExpression" → e.Holds "operator" (.string token) →
      (∀ op : UnaryOp, token ≠ op.symbol) → Denotes (.element e (.malformed token))
  | binary {e : Element} {op : BinaryOp} {l r : Tree String} :
      e.kind = "BinaryExpression" → e.Holds "operator" (.string op.symbol) →
      Denotes (.field e "left" l) → Denotes (.field e "right" r) →
      Denotes (.element e (.binary op l r))
  | binary_malformed {e : Element} {token : String} :
      e.kind = "BinaryExpression" → e.Holds "operator" (.string token) →
      (∀ op : BinaryOp, token ≠ op.symbol) → Denotes (.element e (.malformed token))
  | logical {e : Element} {op : LogicalOp} {l r : Tree String} :
      e.kind = "LogicalExpression" → e.Holds "operator" (.string op.symbol) →
      Denotes (.field e "left" l) → Denotes (.field e "right" r) →
      Denotes (.element e (.logical op l r))
  | logical_malformed {e : Element} {token : String} :
      e.kind = "LogicalExpression" → e.Holds "operator" (.string token) →
      (∀ op : LogicalOp, token ≠ op.symbol) → Denotes (.element e (.malformed token))
  | conditional {e : Element} {t c a : Tree String} :
      e.kind = "ConditionalExpression" → Denotes (.field e "test" t) →
      Denotes (.field e "consequent" c) → Denotes (.field e "alternate" a) →
      Denotes (.element e (.conditional t c a))
  | function {e : Element} {p : String} {t : Tree String} :
      e.kind = "FunctionExpression" ∨ e.kind = "ArrowFunctionExpression" → e.Declares p →
      Denotes (.field e "body" t) → Denotes (.element e (.function p t))
  | call {e : Element} {j : Json} {c a : Tree String} :
      e.kind = "CallExpression" → e.Holds "arguments" (.array [j]) →
      Denotes (.field e "callee" c) → Denotes (.value j a) → Denotes (.element e (.call c a))
  | assignment {e target : Element} {j : Json} {n : String} {t : Tree String} :
      e.kind = "AssignmentExpression" → e.Holds "left" j → j.IsIdentifier target →
      e.Holds "operator" (.string "=") → target.Holds "name" (.string n) →
      Denotes (.field e "right" t) → Denotes (.element e (.assign n t))
  /-- The target must be an identifier, but need not have a name. -/
  | assignment_malformed {e target : Element} {j : Json} {token : String} :
      e.kind = "AssignmentExpression" → e.Holds "left" j → j.IsIdentifier target →
      e.Holds "operator" (.string token) → token ≠ "=" → Denotes (.element e (.malformed token))
  | no_statements : Denotes (.statements [] [])
  | statement {j : Json} {js : List Json} {t : Tree String} {ts : List (Tree String)} :
      Denotes (.value j t) → Denotes (.statements js ts) →
      Denotes (.statements (j :: js) (t :: ts))
  | no_declarations : Denotes (.declarations [] [])
  /-- A declarator needs a type, but may have any. -/
  | declaration {j k : Json} {js : List Json} {d id : Element} {n : String} {t : Tree String}
      {ds : List (String × Tree String)} :
      j.Is d → d.Holds "id" k → k.IsIdentifier id → id.Holds "name" (.string n) →
      Denotes (.field d "init" t) → Denotes (.declarations js ds) →
      Denotes (.declarations (j :: js) ((n, t) :: ds))

def Json.DescribesProgram (doc : Json) (ts : List (Tree String)) : Prop :=
  ∃ root js, doc.Is root ∧ root.kind = "Program" ∧ root.Holds "body" (.array js) ∧ js ≠ [] ∧
    Denotes (.statements js ts)

/-! ### Violations

Where a rule asks for several parts, there is one violation for each: the parts before it are as
they should be, and this one is not. So a value has one violation at most, which is the one that a
reader reports. -/

/-- The value is not an element, and why. -/
inductive Json.NoElement : Json → DocumentError → Prop where
  | no_object {j : Json} : (∀ fields, j ≠ .object fields) → NoElement j (.expectedNode j.typeLabel)
  | no_type {fields : List (String × Json)} : fields.lookup "type" = none →
      NoElement (.object fields) (.missingField "node" "type")
  /-- Here `null` does not count as absent. -/
  | type_shape {fields : List (String × Json)} {j : Json} :
      fields.lookup "type" = some j → (∀ s, j ≠ .string s) →
      NoElement (.object fields) (.wrongFieldType "node" "type" "a string")

namespace Element

/-- The field does not hold what is asked for under the words given. -/
inductive Misses (e : Element) (key : String) (asked : Json → Prop) (words : String) :
    DocumentError → Prop where
  | absent : e.Lacks key → Misses e key asked words (.missingField e.kind key)
  | shape {j : Json} : e.Holds key j → ¬ asked j →
      Misses e key asked words (.wrongFieldType e.kind key words)

def NoText (e : Element) (key : String) : DocumentError → Prop :=
  e.Misses key (fun j => ∃ s, j = .string s) "a string"

def NoItems (e : Element) (key : String) : DocumentError → Prop :=
  e.Misses key (fun j => ∃ js, j = .array js) "an array"

inductive NoChild (e : Element) (key : String) : DocumentError → Prop where
  | absent : e.Lacks key → NoChild e key (.missingField e.kind key)
  | value {j : Json} {err : DocumentError} :
      e.Holds key j → j.NoElement err → NoChild e key err

/-- The function declares no parameter that it may have. -/
inductive NoParameter (e : Element) : DocumentError → Prop where
  | items {err : DocumentError} : e.NoItems "params" err → NoParameter e err
  | count {js : List Json} : e.Holds "params" (.array js) → 2 ≤ js.length →
      NoParameter e (.tooManyParameters js.length)
  | value {j : Json} {err : DocumentError} :
      e.Holds "params" (.array [j]) → j.NoElement err → NoParameter e err
  | type {j : Json} {p : Element} : e.Holds "params" (.array [j]) → j.Is p →
      p.kind ≠ "Identifier" →
      NoParameter e (.wrongFieldType e.kind "params" "a list of identifiers")
  | name {j : Json} {p : Element} {err : DocumentError} :
      e.Holds "params" (.array [j]) → j.IsIdentifier p → p.NoText "name" err → NoParameter e err

/-- The element has none of the types that describe a tree. -/
def Unknown (e : Element) : Prop :=
  e.kind ∉ ["ExpressionStatement", "ReturnStatement", "VariableDeclaration", "BlockStatement",
    "Literal", "Identifier", "UnaryExpression", "BinaryExpression", "LogicalExpression",
    "ConditionalExpression", "FunctionExpression", "ArrowFunctionExpression", "CallExpression",
    "AssignmentExpression"]

end Element

inductive Part where
  | value (j : Json)
  | element (e : Element)
  | field (e : Element) (key : String)
  | statements (js : List Json)
  | declarations (js : List Json)

/-- The first violation of the grammar. -/
inductive Violates : Part → DocumentError → Prop where
  | no_element {j : Json} {err : DocumentError} : j.NoElement err → Violates (.value j) err
  | value {j : Json} {e : Element} {err : DocumentError} :
      j.Is e → Violates (.element e) err → Violates (.value j) err
  | absent {e : Element} {key : String} :
      e.Lacks key → Violates (.field e key) (.missingField e.kind key)
  | field {e : Element} {key : String} {j : Json} {err : DocumentError} :
      e.Holds key j → Violates (.value j) err → Violates (.field e key) err
  | unknown {e : Element} : e.Unknown → Violates (.element e) (.unknownNodeType e.kind)
  | expression_statement {e : Element} {err : DocumentError} :
      e.kind = "ExpressionStatement" → Violates (.field e "expression") err →
      Violates (.element e) err
  | return_statement {e : Element} {err : DocumentError} :
      e.kind = "ReturnStatement" → Violates (.field e "argument") err → Violates (.element e) err
  | declarations {e : Element} {err : DocumentError} :
      e.kind = "VariableDeclaration" → e.NoItems "declarations" err → Violates (.element e) err
  | variable_declaration {e : Element} {js : List Json} {err : DocumentError} :
      e.kind = "VariableDeclaration" → e.Holds "declarations" (.array js) →
      Violates (.declarations js) err → Violates (.element e) err
  | block_body {e : Element} {err : DocumentError} :
      e.kind = "BlockStatement" → e.NoItems "body" err → Violates (.element e) err
  | block_empty {e : Element} :
      e.kind = "BlockStatement" → e.Holds "body" (.array []) → Violates (.element e) .emptyBlock
  | block_statement {e : Element} {js : List Json} {err : DocumentError} :
      e.kind = "BlockStatement" → e.Holds "body" (.array js) → Violates (.statements js) err →
      Violates (.element e) err
  | literal {e : Element} {j : Json} :
      e.kind = "Literal" → e.Holds "value" j → (∀ t, ¬ j.Spells t) →
      Violates (.element e) (.invalidLiteral j.compact)
  | literal_raw {e : Element} {err : DocumentError} :
      e.kind = "Literal" → e.Lacks "value" → e.NoText "raw" err → Violates (.element e) err
  | raw_literal {e : Element} {raw : String} :
      e.kind = "Literal" → e.Lacks "value" → e.Holds "raw" (.string raw) →
      (∀ t, ¬ Spelling raw t) → Violates (.element e) (.invalidLiteral raw)
  | identifier {e : Element} {err : DocumentError} :
      e.kind = "Identifier" → e.NoText "name" err → Violates (.element e) err
  | unary_operator {e : Element} {err : DocumentError} :
      e.kind = "UnaryExpression" → e.NoText "operator" err → Violates (.element e) err
  | unary {e : Element} {op : UnaryOp} {err : DocumentError} :
      e.kind = "UnaryExpression" → e.Holds "operator" (.string op.symbol) →
      Violates (.field e "argument") err → Violates (.element e) err
  | binary_operator {e : Element} {err : DocumentError} :
      e.kind = "BinaryExpression" → e.NoText "operator" err → Violates (.element e) err
  | binary_left {e : Element} {op : BinaryOp} {err : DocumentError} :
      e.kind = "BinaryExpression" → e.Holds "operator" (.string op.symbol) →
      Violates (.field e "left") err → Violates (.element e) err
  | binary_right {e : Element} {op : BinaryOp} {l : Tree String} {err : DocumentError} :
      e.kind = "BinaryExpression" → e.Holds "operator" (.string op.symbol) →
      Denotes (.field e "left" l) → Violates (.field e "right") err → Violates (.element e) err
  | logical_operator {e : Element} {err : DocumentError} :
      e.kind = "LogicalExpression" → e.NoText "operator" err → Violates (.element e) err
  | logical_left {e : Element} {op : LogicalOp} {err : DocumentError} :
      e.kind = "LogicalExpression" → e.Holds "operator" (.string op.symbol) →
      Violates (.field e "left") err → Violates (.element e) err
  | logical_right {e : Element} {op : LogicalOp} {l : Tree String} {err : DocumentError} :
      e.kind = "LogicalExpression" → e.Holds "operator" (.string op.symbol) →
      Denotes (.field e "left" l) → Violates (.field e "right") err → Violates (.element e) err
  | test {e : Element} {err : DocumentError} :
      e.kind = "ConditionalExpression" → Violates (.field e "test") err → Violates (.element e) err
  | consequent {e : Element} {t : Tree String} {err : DocumentError} :
      e.kind = "ConditionalExpression" → Denotes (.field e "test" t) →
      Violates (.field e "consequent") err → Violates (.element e) err
  | alternate {e : Element} {t c : Tree String} {err : DocumentError} :
      e.kind = "ConditionalExpression" → Denotes (.field e "test" t) →
      Denotes (.field e "consequent" c) → Violates (.field e "alternate") err →
      Violates (.element e) err
  | parameter {e : Element} {err : DocumentError} :
      e.kind = "FunctionExpression" ∨ e.kind = "ArrowFunctionExpression" → e.NoParameter err →
      Violates (.element e) err
  | function {e : Element} {p : String} {err : DocumentError} :
      e.kind = "FunctionExpression" ∨ e.kind = "ArrowFunctionExpression" → e.Declares p →
      Violates (.field e "body") err → Violates (.element e) err
  /-- The arguments are counted before the callee is looked at. -/
  | arguments {e : Element} {err : DocumentError} :
      e.kind = "CallExpression" → e.NoItems "arguments" err → Violates (.element e) err
  | argument_count {e : Element} {js : List Json} :
      e.kind = "CallExpression" → e.Holds "arguments" (.array js) → js.length ≠ 1 →
      Violates (.element e) (.argumentCount js.length)
  | callee {e : Element} {j : Json} {err : DocumentError} :
      e.kind = "CallExpression" → e.Holds "arguments" (.array [j]) →
      Violates (.field e "callee") err → Violates (.element e) err
  | argument {e : Element} {j : Json} {c : Tree String} {err : DocumentError} :
      e.kind = "CallExpression" → e.Holds "arguments" (.array [j]) →
      Denotes (.field e "callee" c) → Violates (.value j) err → Violates (.element e) err
  /-- The type of the target is looked at before the operator, its name only after it. -/
  | assignment_left {e : Element} {err : DocumentError} :
      e.kind = "AssignmentExpression" → e.NoChild "left" err → Violates (.element e) err
  | assignment_target {e target : Element} {j : Json} :
      e.kind = "AssignmentExpression" → e.Holds "left" j → j.Is target →
      target.kind ≠ "Identifier" → Violates (.element e) (.invalidAssignmentTarget target.kind)
  | assignment_operator {e target : Element} {j : Json} {err : DocumentError} :
      e.kind = "AssignmentExpression" → e.Holds "left" j → j.IsIdentifier target →
      e.NoText "operator" err → Violates (.element e) err
  | assignment_name {e target : Element} {j : Json} {err : DocumentError} :
      e.kind = "AssignmentExpression" → e.Holds "left" j → j.IsIdentifier target →
      e.Holds "operator" (.string "=") → target.NoText "name" err → Violates (.element e) err
  | assignment {e target : Element} {j : Json} {n : String} {err : DocumentError} :
      e.kind = "AssignmentExpression" → e.Holds "left" j → j.IsIdentifier target →
      e.Holds "operator" (.string "=") → target.Holds "name" (.string n) →
      Violates (.field e "right") err → Violates (.element e) err
  | statement {j : Json} {js : List Json} {err : DocumentError} :
      Violates (.value j) err → Violates (.statements (j :: js)) err
  | statements {j : Json} {js : List Json} {t : Tree String} {err : DocumentError} :
      Denotes (.value j t) → Violates (.statements js) err → Violates (.statements (j :: js)) err
  | declarator {j : Json} {js : List Json} {err : DocumentError} :
      j.NoElement err → Violates (.declarations (j :: js)) err
  | declared_id {j : Json} {js : List Json} {d : Element} {err : DocumentError} :
      j.Is d → d.NoChild "id" err → Violates (.declarations (j :: js)) err
  | declared_type {j k : Json} {js : List Json} {d id : Element} :
      j.Is d → d.Holds "id" k → k.Is id → id.kind ≠ "Identifier" →
      Violates (.declarations (j :: js)) (.wrongFieldType d.kind "id" "an identifier")
  | declared_name {j k : Json} {js : List Json} {d id : Element} {err : DocumentError} :
      j.Is d → d.Holds "id" k → k.IsIdentifier id → id.NoText "name" err →
      Violates (.declarations (j :: js)) err
  | init {j k : Json} {js : List Json} {d id : Element} {n : String} {err : DocumentError} :
      j.Is d → d.Holds "id" k → k.IsIdentifier id → id.Holds "name" (.string n) →
      Violates (.field d "init") err → Violates (.declarations (j :: js)) err
  | declarations_after {j k : Json} {js : List Json} {d id : Element} {n : String}
      {t : Tree String} {err : DocumentError} :
      j.Is d → d.Holds "id" k → k.IsIdentifier id → id.Holds "name" (.string n) →
      Denotes (.field d "init" t) → Violates (.declarations js) err →
      Violates (.declarations (j :: js)) err

inductive Json.ViolatesProgram (doc : Json) : DocumentError → Prop where
  | no_element {err : DocumentError} : doc.NoElement err → ViolatesProgram doc err
  | no_program {root : Element} : doc.Is root → root.kind ≠ "Program" →
      ViolatesProgram doc (.notAProgram root.kind)
  | body {root : Element} {err : DocumentError} :
      doc.Is root → root.kind = "Program" → root.NoItems "body" err → ViolatesProgram doc err
  | empty {root : Element} :
      doc.Is root → root.kind = "Program" → root.Holds "body" (.array []) →
      ViolatesProgram doc .emptyProgram
  | statements {root : Element} {js : List Json} {err : DocumentError} :
      doc.Is root → root.kind = "Program" → root.Holds "body" (.array js) →
      Violates (.statements js) err → ViolatesProgram doc err

end LexCell
