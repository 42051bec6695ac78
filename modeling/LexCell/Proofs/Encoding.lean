import LexCell.Proofs.Acceptance

/-!
# Documents for trees

Every list of statements can be given as a document: each tree as an element of the type that its
kind of node has, with its parts in the fields that are asked for (`Tree.encode`). Only blocks and
programs without statements cannot, for the grammar has no such thing; so the programs that some
document describes are exactly the others (`Json.exists_describesProgram_iff`).

A document that was made so describes the trees that it was made from (`Tree.denotes_encode`): these
are what is read back after it was laid out, and what is written (`Program.ofJson_encode`).
-/

namespace LexCell

/-! ### Elements from fields

A document made for a tree has objects whose keys are sorted, as any reader of JSON would leave
them. What matters of them is only what a key finds. -/

def Element.make (kind : String) (fields : List (String × Json)) : Element :=
  ⟨kind, Assoc.insert "type" (.string kind) fields⟩

namespace Json

def element (kind : String) (fields : List (String × Json)) : Json :=
  .object (Element.make kind fields).fields

def identifier (name : String) : Json := element "Identifier" [("name", .string name)]

end Json

section Fields

variable {kind key : String} {fields : List (String × Json)}

/-- The fields of an element are its type and those that it was made of. -/
theorem Element.lookup_make :
    (make kind fields).fields.lookup key = (("type", .string kind) :: fields).lookup key := by
  rw [make, Assoc.lookup_insert, List.lookup_cons]
  -- A key is the type or one of the others, which inserting leaves alone.
  by_cases h : key = "type"
  · rw [if_pos h, beq_iff_eq.mpr h]
  · rw [if_neg h, beq_eq_false_iff_ne.mpr h]

theorem Element.Holds.made {j : Json}
    (found : (("type", .string kind) :: fields).lookup key = some j) (hj : j ≠ .null) :
    (make kind fields).Holds key j :=
  ⟨lookup_make.trans found, hj⟩

theorem Json.element_is (kind : String) (fields : List (String × Json)) :
    (Json.element kind fields).Is (.make kind fields) :=
  ⟨rfl, Element.lookup_make⟩

theorem Json.identifier_isIdentifier (name : String) :
    (Json.identifier name).IsIdentifier (.make "Identifier" [("name", .string name)]) :=
  ⟨element_is _ _, rfl⟩

theorem Json.identifier_holds (name : String) :
    (Element.make "Identifier" [("name", .string name)]).Holds "name" (.string name) :=
  .made rfl nofun

end Fields

namespace Tree

/-! ### Encoding trees

Every kind of node has one type of elements that denotes it, but for a token that is no operator:
there it depends on the token which type refuses it. -/

/-- A type of elements for which the token is no operator. -/
def refusing (token : String) : String :=
  if token = "&&" ∨ token = "||" then "BinaryExpression" else "LogicalExpression"

mutual

def encode : Tree String → Json
  | number n => .element "Literal" [("value", .number (.integer n.toInt))]
  | boolean b => .element "Literal" [("value", .boolean b)]
  | unary op t =>
      .element "UnaryExpression" [("argument", encode t), ("operator", .string op.symbol)]
  | binary op l r =>
      .element "BinaryExpression"
        [("left", encode l), ("operator", .string op.symbol), ("right", encode r)]
  | logical op l r =>
      .element "LogicalExpression"
        [("left", encode l), ("operator", .string op.symbol), ("right", encode r)]
  | conditional t c a =>
      .element "ConditionalExpression"
        [("alternate", encode a), ("consequent", encode c), ("test", encode t)]
  | ident n => .identifier n
  | bind ds => .element "VariableDeclaration" [("declarations", .array (encodeDeclarations ds))]
  | function p b =>
      .element "FunctionExpression" [("body", encode b), ("params", .array [.identifier p])]
  | call c a =>
      .element "CallExpression" [("arguments", .array [encode a]), ("callee", encode c)]
  | assign n v =>
      .element "AssignmentExpression"
        [("left", .identifier n), ("operator", .string "="), ("right", encode v)]
  | block ss => .element "BlockStatement" [("body", .array (encodeAll ss))]
  | malformed token => .element (refusing token) [("operator", .string token)]

def encodeAll : List (Tree String) → List Json
  | [] => []
  | t :: ts => encode t :: encodeAll ts

def encodeDeclarations : List (String × Tree String) → List Json
  | [] => []
  | (n, t) :: ds =>
      .element "VariableDeclarator" [("id", .identifier n), ("init", encode t)] ::
        encodeDeclarations ds

end

def encodeProgram (statements : List (Tree String)) : Json :=
  .element "Program" [("body", .array (encodeAll statements))]

/-! ### Blocks with statements

The grammar wants at least one statement in a block, and the tables do not, so not every tree has a
document. -/

variable {ν : Type}

mutual

def Filled : Tree ν → Prop
  | number _ | boolean _ | ident _ | malformed _ => True
  | unary _ t | function _ t | assign _ t => Filled t
  | binary _ l r | logical _ l r | call l r => Filled l ∧ Filled r
  | conditional t c a => Filled t ∧ Filled c ∧ Filled a
  | bind ds => FilledDeclarations ds
  | block ss => ss ≠ [] ∧ FilledAll ss

def FilledAll : List (Tree ν) → Prop
  | [] => True
  | t :: ts => Filled t ∧ FilledAll ts

def FilledDeclarations : List (ν × Tree ν) → Prop
  | [] => True
  | (_, t) :: ds => Filled t ∧ FilledDeclarations ds

end

/-! ### What is described

The derivation is built along the recursion of `Tree.encode`, with one rule of the grammar for each
type of elements. -/

theorem encode_ne_null (t : Tree String) : t.encode ≠ .null := by
  cases t <;> nofun

theorem encodeAll_ne_nil {ts : List (Tree String)} (h : ts ≠ []) : encodeAll ts ≠ [] := by
  cases ts with
  | nil => exact absurd rfl h
  | cons => nofun

/-- A token is described by an element of a type that refuses it. -/
theorem denotes_malformed (token : String) :
    Denotes (.element (.make (refusing token) [("operator", .string token)])
      (.malformed token)) := by
  have holds : (Element.make (refusing token) [("operator", .string token)]).Holds "operator"
      (.string token) := .made rfl nofun
  -- The two logical operators are the only tokens that a binary expression must be asked to refuse.
  by_cases h : token = "&&" ∨ token = "||"
  · refine .binary_malformed (if_pos h) holds ?_
    rintro op rfl
    revert h
    cases op <;> decide
  · refine .logical_malformed (if_neg h) holds ?_
    rintro op rfl
    cases op with
    | and => exact h (.inl rfl)
    | or => exact h (.inr rfl)

/-- A field that holds the element for a tree describes the tree. -/
private theorem denotes_field {kind key : String} {fields : List (String × Json)} {t : Tree String}
    (found : (("type", .string kind) :: fields).lookup key = some t.encode)
    (h : Denotes (.value t.encode t)) : Denotes (.field (.make kind fields) key t) :=
  .field (.made found t.encode_ne_null) h

mutual

/-- **The element for a tree describes the tree.** -/
theorem denotes_encode (t : Tree String) (h : t.Filled) : Denotes (.value t.encode t) := by
  -- The field that holds a part is found by evaluation; the recursion describes what it holds.
  match t with
  | .number n =>
      exact .value (Json.element_is _ _) (.literal rfl (.made rfl nofun) (.integer n))
  | .boolean b =>
      exact .value (Json.element_is _ _) (.literal rfl (.made rfl nofun) (.boolean b))
  | .unary op t =>
      refine .value (Json.element_is _ _) (.unary rfl (.made rfl nofun) ?argument)
      case argument => exact denotes_field rfl (denotes_encode t h)
  | .binary op l r =>
      refine .value (Json.element_is _ _) (.binary rfl (.made rfl nofun) ?left ?right)
      case left => exact denotes_field rfl (denotes_encode l h.1)
      case right => exact denotes_field rfl (denotes_encode r h.2)
  | .logical op l r =>
      refine .value (Json.element_is _ _) (.logical rfl (.made rfl nofun) ?left ?right)
      case left => exact denotes_field rfl (denotes_encode l h.1)
      case right => exact denotes_field rfl (denotes_encode r h.2)
  | .conditional t c a =>
      refine .value (Json.element_is _ _) (.conditional rfl ?test ?consequent ?alternate)
      case test => exact denotes_field rfl (denotes_encode t h.1)
      case consequent => exact denotes_field rfl (denotes_encode c h.2.1)
      case alternate => exact denotes_field rfl (denotes_encode a h.2.2)
  | .ident n => exact .value (Json.element_is _ _) (.identifier rfl (Json.identifier_holds n))
  | .bind ds =>
      exact .value (Json.element_is _ _)
        (.variable_declaration rfl (.made rfl nofun) (denotes_encodeDeclarations ds h))
  | .function p b =>
      refine .value (Json.element_is _ _) (.function (.inl rfl) ?param ?body)
      case param =>
        exact .one (.made rfl nofun) (Json.identifier_isIdentifier p) (Json.identifier_holds p)
      case body => exact denotes_field rfl (denotes_encode b h)
  | .call c a =>
      refine .value (Json.element_is _ _) (.call rfl (.made rfl nofun) ?callee ?argument)
      case callee => exact denotes_field rfl (denotes_encode c h.1)
      case argument => exact denotes_encode a h.2
  | .assign n v =>
      refine .value (Json.element_is _ _) (.assignment rfl (.made rfl nofun)
        (Json.identifier_isIdentifier n) (.made rfl nofun) (Json.identifier_holds n) ?right)
      case right => exact denotes_field rfl (denotes_encode v h)
  | .block ss =>
      exact .value (Json.element_is _ _) (.block_statement rfl (.made rfl nofun)
        (encodeAll_ne_nil h.1) (denotes_encodeAll ss h.2))
  | .malformed token => exact .value (Json.element_is _ _) (denotes_malformed token)

theorem denotes_encodeAll (ts : List (Tree String)) (h : FilledAll ts) :
    Denotes (.statements (encodeAll ts) ts) := by
  match ts with
  | [] => exact .no_statements
  | t :: ts => exact .statement (denotes_encode t h.1) (denotes_encodeAll ts h.2)

theorem denotes_encodeDeclarations (ds : List (String × Tree String))
    (h : FilledDeclarations ds) : Denotes (.declarations (encodeDeclarations ds) ds) := by
  match ds with
  | [] => exact .no_declarations
  | (n, t) :: ds =>
      exact .declaration (Json.element_is _ _) (.made rfl nofun) (Json.identifier_isIdentifier n)
        (Json.identifier_holds n) (denotes_field rfl (denotes_encode t h.1))
        (denotes_encodeDeclarations ds h.2)

end

theorem encodeProgram_describes {ts : List (Tree String)} (nonempty : ts ≠ [])
    (filled : FilledAll ts) : (encodeProgram ts).DescribesProgram ts :=
  ⟨_, _, Json.element_is _ _, rfl, .made rfl nofun, encodeAll_ne_nil nonempty,
    denotes_encodeAll ts filled⟩

end Tree

/-! ### What can be described

Conversely, no rule of the grammar yields a tree with an empty block, by induction on derivations.
-/

def Phrase.Filled : Phrase → Prop
  | .value _ t | .element _ t | .field _ _ t => t.Filled
  | .statements _ ts => Tree.FilledAll ts
  | .declarations _ ds => Tree.FilledDeclarations ds

/-- Elements denote as many statements as they are, so none only if there are none. -/
theorem Denotes.statements_ne_nil {js : List Json} {ts : List (Tree String)}
    (h : Denotes (.statements js ts)) (nonempty : js ≠ []) : ts ≠ [] := by
  cases h with
  | no_statements => exact absurd rfl nonempty
  | statement => nofun

/-- The grammar has no empty block. -/
theorem Denotes.filled {p : Phrase} (h : Denotes p) : p.Filled := by
  induction h with
  | value _ _ ih | field _ _ ih => exact ih
  | expression_statement _ _ ih | return_statement _ _ ih => exact ih
  | variable_declaration _ _ _ ih => exact ih
  | block_statement _ _ nonempty statements ih =>
      exact ⟨statements.statements_ne_nil nonempty, ih⟩
  -- Literals and names hold no statements.
  | literal _ _ spells => cases spells <;> trivial
  | raw_literal _ _ _ spelling => cases spelling <;> trivial
  | identifier => trivial
  | unary_malformed | binary_malformed | logical_malformed | assignment_malformed => trivial
  | unary _ _ _ ih | function _ _ _ ih | assignment _ _ _ _ _ _ ih => exact ih
  | binary _ _ _ _ left right | logical _ _ _ _ left right | call _ _ _ _ left right =>
      exact ⟨left, right⟩
  | conditional _ _ _ _ test consequent alternate => exact ⟨test, consequent, alternate⟩
  | no_statements | no_declarations => trivial
  | statement _ _ first rest => exact ⟨first, rest⟩
  | declaration _ _ _ _ _ _ first rest => exact ⟨first, rest⟩

/-- **The programs that documents describe** are those in which nothing that holds statements is
empty. -/
theorem Json.exists_describesProgram_iff {ts : List (Tree String)} :
    (∃ doc : Json, doc.DescribesProgram ts) ↔ ts ≠ [] ∧ Tree.FilledAll ts := by
  constructor
  · rintro ⟨doc, root, js, -, -, -, nonempty, describes⟩
    exact ⟨describes.statements_ne_nil nonempty, describes.filled⟩
  · rintro ⟨nonempty, filled⟩
    exact ⟨_, Tree.encodeProgram_describes nonempty filled⟩

/-! ### There and back

What the document denotes is what acceptance is about, so this is the grammar put together with what
the tables keep. -/

/-- **Trees come back from the document that was made for them.** Whatever names are known already,
the document is accepted, what is read back from the tables is the list of statements that the
document was made for, and the program is written as these statements are. -/
theorem Program.ofJson_encode {ts : List (Tree String)} (nonempty : ts ≠ [])
    (filled : Tree.FilledAll ts) (t : Interner) :
    ∃ p t', Program.ofJson (Tree.encodeProgram ts) t = (.ok p, t') ∧
      (∃ us, p.trees? = some us ∧ Tree.traverseAll t'.text? us = some ts) ∧
      p.render? t' = some (Tree.renderLines ts) := by
  -- The grammar describes these trees, so they are the outcome of reading the document.
  have outcome := Json.outcome_program_eq_ok_iff.mpr (Tree.encodeProgram_describes nonempty filled)
  exact ⟨_, _, Program.ofJson_of_outcome outcome, Program.trees?_ofTrees ts t,
    Program.render?_ofTrees ts t⟩

/-- A program with an empty name, a block, a token that is no operator there and an empty `let`. -/
def Tree.sample : List (Tree String) :=
  [.bind [("", .number (-1))], .block [.malformed "&&", .bind []]]

theorem Program.ofJson_encode_sample :
    ∃ p t', Program.ofJson (Tree.encodeProgram Tree.sample) Interner.sample = (.ok p, t') ∧
      (∃ us, p.trees? = some us ∧ Tree.traverseAll t'.text? us = some Tree.sample) ∧
      p.render? t' = some "(let [_ (number -1)])\n(block (malformed &&) (let))" := by
  have nonempty : Tree.sample ≠ [] := nofun
  have filled : Tree.FilledAll Tree.sample :=
    ⟨⟨trivial, trivial⟩, ⟨nofun, trivial, trivial, trivial⟩, trivial⟩
  exact Program.ofJson_encode nonempty filled Interner.sample

end LexCell
