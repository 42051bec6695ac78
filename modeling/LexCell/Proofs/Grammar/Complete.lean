import LexCell.Proofs.Grammar.Sound

/-!
# What is in the grammar is read

The other direction: what describes a tree is read as that tree, and a violation is the error that
comes out. Both go by induction on the grammar; of a reading only its outcome counts here, and the
outcome of a sequence is that of its parts in a row (`Reading.outcome_bind`).
-/

namespace LexCell

/-! ### Outcomes

A reading also collects the names that it meets. Here only its outcome counts, and these equations
push the outcome through the operations that readings are made of. -/

namespace Reading

variable {α β : Type}

@[simp] theorem outcome_bind (r : Reading α) (f : α → Reading β) :
    (r >>= f).outcome = r.outcome >>= fun a => (f a).outcome := by
  obtain ⟨names, outcome⟩ := r
  cases outcome <;> rfl

@[simp] theorem outcome_pure (a : α) : (pure a : Reading α).outcome = .ok a := rfl

@[simp] theorem outcome_check (x : Except DocumentError α) : (check x).outcome = x := rfl

@[simp] theorem outcome_fail (err : DocumentError) :
    (fail err : Reading α).outcome = .error err := rfl

@[simp] theorem outcome_meet (name : String) : (meet name).outcome = .ok name := rfl

@[simp] theorem outcome_map (f : α → β) (r : Reading α) :
    (f <$> r).outcome = f <$> r.outcome := by
  rw [map_eq_pure_bind, map_eq_pure_bind, outcome_bind]
  rfl

@[simp] theorem ok_map (f : α → β) (a : α) :
    f <$> (Except.ok a : Except DocumentError α) = .ok (f a) := rfl

@[simp] theorem error_map (f : α → β) (err : DocumentError) :
    f <$> (Except.error err : Except DocumentError α) = .error err := rfl

@[simp] theorem ok_bind (a : α) (f : α → Except DocumentError β) :
    (Except.ok a >>= f) = f a := rfl

@[simp] theorem error_bind (err : DocumentError) (f : α → Except DocumentError β) :
    (Except.error err >>= f) = .error err := rfl

end Reading

@[simp] theorem outcome_malformed (token : String) :
    (malformed token).outcome = .ok (.malformed token) := rfl

/-! ### Fields

A field that holds what is asked for is read as that, and one that violates the grammar gives the
error that the violation names. The grammar leaves no other case. -/

/-- An element is smaller than the value that it stands for, which is why reading ends. -/
theorem Json.Is.size_lt {j : Json} {c : Element} (h : j.Is c) : c.size < sizeOf j := by
  obtain ⟨rfl, -⟩ := h
  simp only [Element.size, Json.object.sizeOf_spec]
  omega

namespace Element

variable {e : Element} {key : String}

theorem Holds.size_lt {j : Json} (h : e.Holds key j) : sizeOf j < e.size :=
  sizeOf_lt_of_lookup h.1

theorem Holds.items_size_lt {js : List Json} (h : e.Holds key (.array js)) :
    sizeOf js < e.size := by
  have := h.size_lt
  simp only [Json.array.sizeOf_spec] at this
  omega

/-- A value that is an element is taken for it. -/
theorem ofJson_of_is {j : Json} {c : Element} (h : j.Is c) : ofJson j = .ok ⟨c, h.size_lt⟩ := by
  obtain ⟨rfl, type⟩ := h
  simp only [ofJson, type]

theorem ofJson_of_noElement {j : Json} {err : DocumentError} (h : j.NoElement err) :
    ofJson j = .error err := by
  cases h with
  | no_object h =>
      unfold ofJson
      split
      · exact absurd rfl (h _)
      · rfl
  | no_type h => simp only [ofJson, h]
  | type_shape h shape => simp only [ofJson, h]

/-- A field that is absent or `null` is not found. -/
theorem field?_of_lacks (h : e.Lacks key) : e.field? key = none := by
  cases found : e.field? key with
  | none => rfl
  | some j => exact absurd (e.holds_of_field? key found) (h j.val)

theorem field?_of_holds {j : Json} (h : e.Holds key j) :
    e.field? key = some ⟨j, h.size_lt⟩ := by
  cases found : e.field? key with
  | none => exact absurd h (e.lacks_of_field? key found j)
  | some k =>
      have holds := e.holds_of_field? key found
      -- A key finds one value at most.
      have same : k.val = j := Option.some.inj (holds.1.symm.trans h.1)
      exact congrArg some (Subtype.ext same)

theorem field_of_lacks (h : e.Lacks key) : e.field key = .error (.missingField e.kind key) := by
  unfold field
  rw [field?_of_lacks h]

theorem field_of_holds {j : Json} (h : e.Holds key j) : e.field key = .ok ⟨j, h.size_lt⟩ := by
  unfold field
  rw [field?_of_holds h]

theorem child_of_holds {j : Json} {c : Element} (h : e.Holds key j) (hc : j.Is c) :
    e.child key = .ok ⟨c, Nat.lt_trans hc.size_lt h.size_lt⟩ := by
  simp only [child, field_of_holds h, ofJson_of_is hc, Reading.ok_bind]

theorem child_of_noChild {err : DocumentError} (h : e.NoChild key err) :
    e.child key = .error err := by
  cases h with
  | absent lacks => simp only [child, field_of_lacks lacks, Reading.error_bind]
  | value holds no_element =>
      simp only [child, field_of_holds holds, ofJson_of_noElement no_element, Reading.ok_bind,
        Reading.error_bind]

theorem text_of_holds {s : String} (h : e.Holds key (.string s)) : e.text key = .ok s := by
  simp only [text, field_of_holds h, Reading.ok_bind]

theorem text_of_noText {err : DocumentError} (h : e.NoText key err) :
    e.text key = .error err := by
  cases h with
  | absent lacks => simp only [text, field_of_lacks lacks, Reading.error_bind]
  | shape holds shape =>
      simp only [text, field_of_holds holds, Reading.ok_bind]
      split
      · exact absurd ⟨_, rfl⟩ shape
      · rfl

theorem items_of_holds {js : List Json} (h : e.Holds key (.array js)) :
    e.items key = .ok ⟨js, h.items_size_lt⟩ := by
  simp only [items, field_of_holds h, Reading.ok_bind]

theorem items_of_noItems {err : DocumentError} (h : e.NoItems key err) :
    e.items key = .error err := by
  cases h with
  | absent lacks => simp only [items, field_of_lacks lacks, Reading.error_bind]
  | shape holds shape =>
      simp only [items, field_of_holds holds, Reading.ok_bind]
      split
      · next js _ eq =>
        cases eq
        exact absurd ⟨js, rfl⟩ shape
      · rfl

theorem argument_of_holds {j : Json} (h : e.Holds "arguments" (.array [j])) :
    ∃ lt, e.argument = .ok ⟨j, lt⟩ := by
  have lt : sizeOf j < e.size := by
    have := h.items_size_lt
    simp only [List.cons.sizeOf_spec] at this
    omega
  refine ⟨lt, ?_⟩
  simp only [argument, items_of_holds h, Reading.ok_bind]

theorem argument_of_count {js : List Json} (h : e.Holds "arguments" (.array js))
    (count : js.length ≠ 1) : e.argument = .error (.argumentCount js.length) := by
  simp only [argument, items_of_holds h, Reading.ok_bind]
  split
  · next eq =>
    cases eq
    exact absurd rfl count
  · rfl

theorem argument_of_noItems {err : DocumentError} (h : e.NoItems "arguments" err) :
    e.argument = .error err := by
  simp only [argument, items_of_noItems h, Reading.error_bind]

theorem outcome_name_of_holds {n : String} (h : e.Holds "name" (.string n)) :
    e.name.outcome = .ok n := by
  simp only [name, Reading.outcome_bind, Reading.outcome_check, text_of_holds h, Reading.ok_bind,
    Reading.outcome_meet]

theorem outcome_name_of_noText {err : DocumentError} (h : e.NoText "name" err) :
    e.name.outcome = .error err := by
  simp only [name, Reading.outcome_bind, Reading.outcome_check, text_of_noText h,
    Reading.error_bind]

/-- The parameter that a function declares is read. -/
theorem outcome_parameter_of_declares {n : String} (h : e.Declares n) :
    e.parameter.outcome = .ok n := by
  cases h with
  | none holds =>
      simp [parameter, items_of_holds holds]
  | one holds id name =>
      have type := type?_eq_identifier_iff.mpr id.2
      simp [parameter, items_of_holds holds, ofJson_of_is id.1, type, outcome_name_of_holds name]

/-- A list of parameters that is at fault gives its error. -/
theorem outcome_parameter_of_noParameter {err : DocumentError} (h : e.NoParameter err) :
    e.parameter.outcome = .error err := by
  cases h with
  | items no_items => simp [parameter, items_of_noItems no_items]
  | count holds two =>
      simp only [parameter, Reading.outcome_bind, Reading.outcome_check, items_of_holds holds,
        Reading.ok_bind]
      -- Lists without an element or with a single one are not too long.
      split
      · simp at two
      · simp at two
      · rfl
  | value holds no_element =>
      simp [parameter, items_of_holds holds, ofJson_of_noElement no_element]
  | type holds is other =>
      have type := mt type?_eq_identifier_iff.mp other
      simp [parameter, items_of_holds holds, ofJson_of_is is, type]
  | name holds id no_text =>
      have type := type?_eq_identifier_iff.mpr id.2
      simp [parameter, items_of_holds holds, ofJson_of_is id.1, type,
        outcome_name_of_noText no_text]

end Element

/-! ### Literals

The converse of what is read: a literal that spells nothing is refused. -/

theorem literalOfJson_of_not_spells {j : Json} (h : ∀ t, ¬ j.Spells t) :
    literalOfJson j = .error (.invalidLiteral j.compact) := by
  cases outcome : literalOfJson j with
  | ok t => exact absurd (literalOfJson_eq_ok_iff.mp outcome) (h t)
  | error err => rw [eq_of_literalOfJson_error outcome]

theorem literalOfText_of_not_spelling {raw : String} (h : ∀ t, ¬ Spelling raw t) :
    literalOfText raw = .error (.invalidLiteral raw) := by
  cases outcome : literalOfText raw with
  | ok t => exact absurd (literalOfText_eq_ok_iff.mp outcome) (h t)
  | error err => rw [eq_of_literalOfText_error outcome]

/-! ### Values and fields -/

/-- A value that is an element is read as the element. -/
theorem Json.tree_of_is {j : Json} {e : Element} (is : j.Is e) : j.tree = e.tree := by
  rw [tree, Element.ofJson_of_is is]
  rfl

theorem Json.tree_of_noElement {j : Json} {err : DocumentError} (h : j.NoElement err) :
    j.tree = Reading.fail err := by
  rw [tree, Element.ofJson_of_noElement h]
  rfl

/-- A field that holds a value is read as the value. -/
theorem Element.subtree_of_holds {e : Element} {key : String} {j : Json}
    (holds : e.Holds key j) : e.subtree key = j.tree := by
  rw [subtree, child, field_of_holds holds, Json.tree, Reading.ok_bind]
  cases ofJson j <;> rfl

/-- A field that is missing is an error of the element. -/
theorem Element.subtree_of_lacks {e : Element} {key : String} (lacks : e.Lacks key) :
    e.subtree key = Reading.fail (.missingField e.kind key) := by
  rw [subtree, child_of_noChild (.absent lacks)]
  rfl

/-! ### Outcomes of elements

What comes out of an element whose fields hold what they should is what comes out of its parts in a
row, for the first part that violates the grammar stops the reading. -/

namespace Element

variable {e target : Element} {err : DocumentError} {j : Json} {js : List Json} {n p : String}

theorem outcome_variableDeclaration (kind : e.kind = "VariableDeclaration")
    (holds : e.Holds "declarations" (.array js)) :
    e.tree.outcome = .bind <$> (declarations js).outcome := by
  rw [tree_variableDeclaration (type?_of_kind kind rfl)]
  simp [items_of_holds holds]

theorem outcome_blockStatement (kind : e.kind = "BlockStatement")
    (holds : e.Holds "body" (.array js)) (nonempty : js ≠ []) :
    e.tree.outcome = .block <$> (statements js).outcome := by
  rw [tree_blockStatement (type?_of_kind kind rfl)]
  simp [items_of_holds holds, nonempty]

theorem outcome_unary {op : UnaryOp} (kind : e.kind = "UnaryExpression")
    (holds : e.Holds "operator" (.string op.symbol)) :
    e.tree.outcome = .unary op <$> (e.subtree "argument").outcome := by
  rw [tree_unaryExpression (type?_of_kind kind rfl)]
  simp [text_of_holds holds]

theorem outcome_binary {op : BinaryOp} (kind : e.kind = "BinaryExpression")
    (holds : e.Holds "operator" (.string op.symbol)) :
    e.tree.outcome = do
      return .binary op (← (e.subtree "left").outcome) (← (e.subtree "right").outcome) := by
  rw [tree_binaryExpression (type?_of_kind kind rfl)]
  simp [text_of_holds holds]

theorem outcome_logical {op : LogicalOp} (kind : e.kind = "LogicalExpression")
    (holds : e.Holds "operator" (.string op.symbol)) :
    e.tree.outcome = do
      return .logical op (← (e.subtree "left").outcome) (← (e.subtree "right").outcome) := by
  rw [tree_logicalExpression (type?_of_kind kind rfl)]
  simp [text_of_holds holds]

theorem outcome_conditional (kind : e.kind = "ConditionalExpression") :
    e.tree.outcome = do
      return .conditional (← (e.subtree "test").outcome) (← (e.subtree "consequent").outcome)
        (← (e.subtree "alternate").outcome) := by
  rw [tree_conditionalExpression (type?_of_kind kind rfl)]
  simp

theorem outcome_function (kind : e.kind = "FunctionExpression" ∨ e.kind = "ArrowFunctionExpression")
    (declares : e.Declares p) : e.tree.outcome = .function p <$> (e.subtree "body").outcome := by
  rw [tree_functionExpression (type?_eq_functionExpression_iff.mpr kind)]
  simp [outcome_parameter_of_declares declares]

theorem outcome_call (kind : e.kind = "CallExpression")
    (holds : e.Holds "arguments" (.array [j])) :
    e.tree.outcome = do
      return .call (← (e.subtree "callee").outcome) (← j.tree.outcome) := by
  obtain ⟨lt, argument⟩ := argument_of_holds holds
  rw [tree_callExpression (type?_of_kind kind rfl)]
  simp [argument]

theorem outcome_assignment (kind : e.kind = "AssignmentExpression") (holds : e.Holds "left" j)
    (id : j.IsIdentifier target) (assigns : e.Holds "operator" (.string "="))
    (name : target.Holds "name" (.string n)) :
    e.tree.outcome = .assign n <$> (e.subtree "right").outcome := by
  have type := type?_eq_identifier_iff.mpr id.2
  rw [tree_assignmentExpression (type?_of_kind kind rfl)]
  simp [child_of_holds holds id.1, type, text_of_holds assigns, outcome_name_of_holds name]

/-! #### An element that is wrong itself -/

theorem outcome_of_noDeclarations (kind : e.kind = "VariableDeclaration")
    (no_items : e.NoItems "declarations" err) : e.tree.outcome = .error err := by
  rw [tree_variableDeclaration (type?_of_kind kind rfl)]
  simp [items_of_noItems no_items]

theorem outcome_of_noBody (kind : e.kind = "BlockStatement") (no_items : e.NoItems "body" err) :
    e.tree.outcome = .error err := by
  rw [tree_blockStatement (type?_of_kind kind rfl)]
  simp [items_of_noItems no_items]

theorem outcome_of_emptyBody (kind : e.kind = "BlockStatement")
    (holds : e.Holds "body" (.array [])) : e.tree.outcome = .error .emptyBlock := by
  rw [tree_blockStatement (type?_of_kind kind rfl)]
  simp [items_of_holds holds]

theorem outcome_of_noLiteral (kind : e.kind = "Literal") (holds : e.Holds "value" j)
    (other : ∀ t, ¬ j.Spells t) : e.tree.outcome = .error (.invalidLiteral j.compact) := by
  rw [tree_literal (type?_of_kind kind rfl)]
  simp [literal, field?_of_holds holds, literalOfJson_of_not_spells other]

theorem outcome_of_noRaw (kind : e.kind = "Literal") (lacks : e.Lacks "value")
    (no_text : e.NoText "raw" err) : e.tree.outcome = .error err := by
  rw [tree_literal (type?_of_kind kind rfl)]
  simp [literal, field?_of_lacks lacks, text_of_noText no_text]

theorem outcome_of_noSpelling {raw : String} (kind : e.kind = "Literal") (lacks : e.Lacks "value")
    (holds : e.Holds "raw" (.string raw)) (other : ∀ t, ¬ Spelling raw t) :
    e.tree.outcome = .error (.invalidLiteral raw) := by
  rw [tree_literal (type?_of_kind kind rfl)]
  simp [literal, field?_of_lacks lacks, text_of_holds holds, literalOfText_of_not_spelling other]

theorem outcome_of_noName (kind : e.kind = "Identifier") (no_text : e.NoText "name" err) :
    e.tree.outcome = .error err := by
  rw [tree_identifier (type?_of_kind kind rfl)]
  simp [outcome_name_of_noText no_text]

/-- Every operator is asked for its text first. -/
theorem outcome_of_noOperator (no_text : e.NoText "operator" err)
    (kind : e.kind = "UnaryExpression" ∨ e.kind = "BinaryExpression" ∨
      e.kind = "LogicalExpression") : e.tree.outcome = .error err := by
  rcases kind with kind | kind | kind
  · rw [tree_unaryExpression (type?_of_kind kind rfl)]
    simp [text_of_noText no_text]
  · rw [tree_binaryExpression (type?_of_kind kind rfl)]
    simp [text_of_noText no_text]
  · rw [tree_logicalExpression (type?_of_kind kind rfl)]
    simp [text_of_noText no_text]

theorem outcome_of_noParameter
    (kind : e.kind = "FunctionExpression" ∨ e.kind = "ArrowFunctionExpression")
    (no_parameter : e.NoParameter err) : e.tree.outcome = .error err := by
  rw [tree_functionExpression (type?_eq_functionExpression_iff.mpr kind)]
  simp [outcome_parameter_of_noParameter no_parameter]

theorem outcome_of_noArguments (kind : e.kind = "CallExpression")
    (no_items : e.NoItems "arguments" err) : e.tree.outcome = .error err := by
  rw [tree_callExpression (type?_of_kind kind rfl)]
  simp [argument_of_noItems no_items]

theorem outcome_of_argumentCount (kind : e.kind = "CallExpression")
    (holds : e.Holds "arguments" (.array js)) (count : js.length ≠ 1) :
    e.tree.outcome = .error (.argumentCount js.length) := by
  rw [tree_callExpression (type?_of_kind kind rfl)]
  simp [argument_of_count holds count]

theorem outcome_of_noTarget (kind : e.kind = "AssignmentExpression")
    (no_child : e.NoChild "left" err) : e.tree.outcome = .error err := by
  rw [tree_assignmentExpression (type?_of_kind kind rfl)]
  simp [child_of_noChild no_child]

theorem outcome_of_otherTarget (kind : e.kind = "AssignmentExpression") (holds : e.Holds "left" j)
    (is : j.Is target) (other : target.kind ≠ "Identifier") :
    e.tree.outcome = .error (.invalidAssignmentTarget target.kind) := by
  have type := mt type?_eq_identifier_iff.mp other
  rw [tree_assignmentExpression (type?_of_kind kind rfl)]
  simp [child_of_holds holds is, type]

theorem outcome_of_noAssign (kind : e.kind = "AssignmentExpression") (holds : e.Holds "left" j)
    (id : j.IsIdentifier target) (no_text : e.NoText "operator" err) :
    e.tree.outcome = .error err := by
  have type := type?_eq_identifier_iff.mpr id.2
  rw [tree_assignmentExpression (type?_of_kind kind rfl)]
  simp [child_of_holds holds id.1, type, text_of_noText no_text]

theorem outcome_of_noTargetName (kind : e.kind = "AssignmentExpression")
    (holds : e.Holds "left" j) (id : j.IsIdentifier target)
    (assigns : e.Holds "operator" (.string "=")) (no_text : target.NoText "name" err) :
    e.tree.outcome = .error err := by
  have type := type?_eq_identifier_iff.mpr id.2
  rw [tree_assignmentExpression (type?_of_kind kind rfl)]
  simp [child_of_holds holds id.1, type, text_of_holds assigns, outcome_name_of_noText no_text]

end Element

/-! ### Outcomes of lists

Lists are read from the front, and a declarator like an element whose type is fixed. -/

theorem outcome_statements_cons (j : Json) (js : List Json) :
    (statements (j :: js)).outcome = do
      return (← j.tree.outcome) :: (← (statements js).outcome) := by
  simp [statements_cons]

theorem outcome_declarations_cons (j : Json) (js : List Json) :
    (declarations (j :: js)).outcome = do
      return (← j.declarator.outcome) :: (← (declarations js).outcome) := by
  simp [declarations_cons]

namespace Json

variable {j k : Json} {d id : Element} {n : String} {err : DocumentError}

/-- The declarator is as it should be up to its initial value. -/
theorem outcome_declarator (is : j.Is d) (holds : d.Holds "id" k) (isId : k.IsIdentifier id)
    (name : id.Holds "name" (.string n)) :
    j.declarator.outcome = (n, ·) <$> (d.subtree "init").outcome := by
  have type := Element.type?_eq_identifier_iff.mpr isId.2
  rw [declarator_eq]
  simp [Element.ofJson_of_is is, Element.child_of_holds holds isId.1, type,
    Element.outcome_name_of_holds name]

theorem outcome_declarator_of_noElement (no_element : j.NoElement err) :
    j.declarator.outcome = .error err := by
  rw [declarator_eq]
  simp [Element.ofJson_of_noElement no_element]

theorem outcome_declarator_of_noChild (is : j.Is d) (no_child : d.NoChild "id" err) :
    j.declarator.outcome = .error err := by
  rw [declarator_eq]
  simp [Element.ofJson_of_is is, Element.child_of_noChild no_child]

theorem outcome_declarator_of_other (is : j.Is d) (holds : d.Holds "id" k) (isId : k.Is id)
    (other : id.kind ≠ "Identifier") :
    j.declarator.outcome = .error (.wrongFieldType d.kind "id" "an identifier") := by
  have type := mt Element.type?_eq_identifier_iff.mp other
  rw [declarator_eq]
  simp [Element.ofJson_of_is is, Element.child_of_holds holds isId, type]

theorem outcome_declarator_of_noText (is : j.Is d) (holds : d.Holds "id" k)
    (isId : k.IsIdentifier id) (no_text : id.NoText "name" err) :
    j.declarator.outcome = .error err := by
  have type := Element.type?_eq_identifier_iff.mpr isId.2
  rw [declarator_eq]
  simp [Element.ofJson_of_is is, Element.child_of_holds holds isId.1, type,
    Element.outcome_name_of_noText no_text]

end Json

/-! ### Trees

The induction is on the derivation. What a rule says of its parts comes out by induction, and the
outcome of the element is made of these. -/

def ComesOut : Phrase → Prop
  | .value j t => j.tree.outcome = .ok t
  | .element e t => e.tree.outcome = .ok t
  | .field e key t => (e.subtree key).outcome = .ok t
  | .statements js ts => (statements js).outcome = .ok ts
  | .declarations js ds => (declarations js).outcome = .ok ds

open Element in
/-- **What is described comes out.** -/
theorem Denotes.comesOut {p : Phrase} (h : Denotes p) : ComesOut p := by
  induction h with
  | value is _ ih => rwa [ComesOut, Json.tree_of_is is]
  | field holds _ ih => rwa [ComesOut, subtree_of_holds holds]
  -- Statements.
  | expression_statement kind _ ih =>
      rwa [ComesOut, tree_expressionStatement (type?_of_kind kind rfl)]
  | return_statement kind _ ih => rwa [ComesOut, tree_returnStatement (type?_of_kind kind rfl)]
  | variable_declaration kind holds _ ih =>
      rw [ComesOut, outcome_variableDeclaration kind holds, ih]
      rfl
  | block_statement kind holds nonempty _ ih =>
      rw [ComesOut, outcome_blockStatement kind holds nonempty, ih]
      rfl
  -- Literals and names.
  | literal kind holds spells =>
      rw [ComesOut, tree_literal (type?_of_kind kind rfl)]
      simp [Element.literal, field?_of_holds holds, literalOfJson_eq_ok_iff.mpr spells]
  | raw_literal kind lacks holds spelling =>
      rw [ComesOut, tree_literal (type?_of_kind kind rfl)]
      simp [Element.literal, field?_of_lacks lacks, text_of_holds holds,
        literalOfText_eq_ok_iff.mpr spelling]
  | identifier kind holds =>
      rw [ComesOut, tree_identifier (type?_of_kind kind rfl)]
      simp [outcome_name_of_holds holds]
  -- Operators.
  | unary kind holds _ ih =>
      rw [ComesOut, outcome_unary kind holds, ih]
      rfl
  | binary kind holds _ _ ihl ihr =>
      rw [ComesOut, outcome_binary kind holds, ihl, ihr]
      rfl
  | logical kind holds _ _ ihl ihr =>
      rw [ComesOut, outcome_logical kind holds, ihl, ihr]
      rfl
  | unary_malformed kind holds other =>
      rw [ComesOut, tree_unaryExpression (type?_of_kind kind rfl)]
      simp [text_of_holds holds, UnaryOp.ofSymbol?_eq_none_iff.mpr other]
  | binary_malformed kind holds other =>
      rw [ComesOut, tree_binaryExpression (type?_of_kind kind rfl)]
      simp [text_of_holds holds, BinaryOp.ofSymbol?_eq_none_iff.mpr other]
  | logical_malformed kind holds other =>
      rw [ComesOut, tree_logicalExpression (type?_of_kind kind rfl)]
      simp [text_of_holds holds, LogicalOp.ofSymbol?_eq_none_iff.mpr other]
  -- Conditionals, functions, calls and assignments.
  | conditional kind _ _ _ iht ihc iha =>
      rw [ComesOut, outcome_conditional kind, iht, ihc, iha]
      rfl
  | function kind declares _ ih =>
      rw [ComesOut, outcome_function kind declares, ih]
      rfl
  | call kind holds _ _ ihc iha =>
      rw [ComesOut, outcome_call kind holds, ihc, iha]
      rfl
  | assignment kind holds id assigns name _ ih =>
      rw [ComesOut, outcome_assignment kind holds id assigns name, ih]
      rfl
  | assignment_malformed kind holds id token other =>
      have type := type?_eq_identifier_iff.mpr id.2
      rw [ComesOut, tree_assignmentExpression (type?_of_kind kind rfl)]
      simp [child_of_holds holds id.1, type, text_of_holds token, other]
  -- Lists.
  | no_statements => simp [ComesOut, statements]
  | statement _ _ ih ihs =>
      rw [ComesOut, outcome_statements_cons, ih, ihs]
      rfl
  | no_declarations => simp [ComesOut, declarations]
  | declaration is holds id name _ _ ih ihs =>
      rw [ComesOut, outcome_declarations_cons, Json.outcome_declarator is holds id name, ih, ihs]
      rfl

/-! ### Violations

The induction is on the violation. Before the part that is wrong there may be others, of which the
rule says that they are described. -/

def GoesWrong : Part → DocumentError → Prop
  | .value j, err => j.tree.outcome = .error err
  | .element e, err => e.tree.outcome = .error err
  | .field e key, err => (e.subtree key).outcome = .error err
  | .statements js, err => (statements js).outcome = .error err
  | .declarations js, err => (declarations js).outcome = .error err

/-- An empty list violates nothing. -/
theorem Violates.ne_nil {js : List Json} {err : DocumentError}
    (h : Violates (.statements js) err) : js ≠ [] := by
  rintro rfl
  cases h

open Element in
/-- **The first violation comes out.** A rule that says what is wrong with the element itself is
about one of its fields; the other rules say that what is before the violation is described, and so
comes out (`Denotes.comesOut`). -/
theorem goesWrong_of_violates {p : Part} {err : DocumentError} (h : Violates p err) :
    GoesWrong p err := by
  induction h with
  | no_element no_element => rw [GoesWrong, Json.tree_of_noElement no_element, Reading.outcome_fail]
  | value is _ ih => rwa [GoesWrong, Json.tree_of_is is]
  | absent lacks => rw [GoesWrong, subtree_of_lacks lacks, Reading.outcome_fail]
  | field holds _ ih => rwa [GoesWrong, subtree_of_holds holds]
  | unknown unknown => rw [GoesWrong, tree_unknown unknown, Reading.outcome_fail]
  -- Statements.
  | expression_statement kind _ ih =>
      rwa [GoesWrong, tree_expressionStatement (type?_of_kind kind rfl)]
  | return_statement kind _ ih => rwa [GoesWrong, tree_returnStatement (type?_of_kind kind rfl)]
  | declarations kind no_items => exact outcome_of_noDeclarations kind no_items
  | variable_declaration kind holds _ ih =>
      rw [GoesWrong, outcome_variableDeclaration kind holds, ih]
      rfl
  | block_body kind no_items => exact outcome_of_noBody kind no_items
  | block_empty kind holds => exact outcome_of_emptyBody kind holds
  | block_statement kind holds violates ih =>
      rw [GoesWrong, outcome_blockStatement kind holds violates.ne_nil, ih]
      rfl
  -- Literals and names.
  | literal kind holds other => exact outcome_of_noLiteral kind holds other
  | literal_raw kind lacks no_text => exact outcome_of_noRaw kind lacks no_text
  | raw_literal kind lacks holds other => exact outcome_of_noSpelling kind lacks holds other
  | identifier kind no_text => exact outcome_of_noName kind no_text
  -- Operators.
  | unary_operator kind no_text => exact outcome_of_noOperator no_text (.inl kind)
  | binary_operator kind no_text => exact outcome_of_noOperator no_text (.inr (.inl kind))
  | logical_operator kind no_text => exact outcome_of_noOperator no_text (.inr (.inr kind))
  | unary kind holds _ ih =>
      rw [GoesWrong, outcome_unary kind holds, ih]
      rfl
  | binary_left kind holds _ ih =>
      rw [GoesWrong, outcome_binary kind holds, ih]
      rfl
  | binary_right kind holds left _ ih =>
      rw [GoesWrong, outcome_binary kind holds, left.comesOut, ih]
      rfl
  | logical_left kind holds _ ih =>
      rw [GoesWrong, outcome_logical kind holds, ih]
      rfl
  | logical_right kind holds left _ ih =>
      rw [GoesWrong, outcome_logical kind holds, left.comesOut, ih]
      rfl
  -- Conditionals, functions and calls.
  | test kind _ ih =>
      rw [GoesWrong, outcome_conditional kind, ih]
      rfl
  | consequent kind test _ ih =>
      rw [GoesWrong, outcome_conditional kind, test.comesOut, ih]
      rfl
  | alternate kind test consequent _ ih =>
      rw [GoesWrong, outcome_conditional kind, test.comesOut, consequent.comesOut, ih]
      rfl
  | parameter kind no_parameter => exact outcome_of_noParameter kind no_parameter
  | function kind declares _ ih =>
      rw [GoesWrong, outcome_function kind declares, ih]
      rfl
  | arguments kind no_items => exact outcome_of_noArguments kind no_items
  | argument_count kind holds count => exact outcome_of_argumentCount kind holds count
  | callee kind holds _ ih =>
      rw [GoesWrong, outcome_call kind holds, ih]
      rfl
  | argument kind holds callee _ ih =>
      rw [GoesWrong, outcome_call kind holds, callee.comesOut, ih]
      rfl
  -- Assignments.
  | assignment_left kind no_child => exact outcome_of_noTarget kind no_child
  | assignment_target kind holds is other => exact outcome_of_otherTarget kind holds is other
  | assignment_operator kind holds id no_text => exact outcome_of_noAssign kind holds id no_text
  | assignment_name kind holds id assigns no_text =>
      exact outcome_of_noTargetName kind holds id assigns no_text
  | assignment kind holds id assigns name _ ih =>
      rw [GoesWrong, outcome_assignment kind holds id assigns name, ih]
      rfl
  -- Lists.
  | statement _ ih =>
      rw [GoesWrong, outcome_statements_cons, ih]
      rfl
  | statements first _ ih =>
      rw [GoesWrong, outcome_statements_cons, first.comesOut, ih]
      rfl
  | declarator no_element =>
      rw [GoesWrong, outcome_declarations_cons, Json.outcome_declarator_of_noElement no_element]
      rfl
  | declared_id is no_child =>
      rw [GoesWrong, outcome_declarations_cons, Json.outcome_declarator_of_noChild is no_child]
      rfl
  | declared_type is holds id other =>
      rw [GoesWrong, outcome_declarations_cons, Json.outcome_declarator_of_other is holds id other]
      rfl
  | declared_name is holds id no_text =>
      rw [GoesWrong, outcome_declarations_cons, Json.outcome_declarator_of_noText is holds id no_text]
      rfl
  | init is holds id name _ ih =>
      rw [GoesWrong, outcome_declarations_cons, Json.outcome_declarator is holds id name, ih]
      rfl
  | declarations_after is holds id name first _ ih =>
      rw [GoesWrong, outcome_declarations_cons, Json.outcome_declarator is holds id name,
        first.comesOut, ih]
      rfl

/-! ### Programs

Both directions are put together for the root, which is an element of its own type that is read by a
rule of its own. -/

/-- **The programs that come out are the ones described.** -/
theorem Json.outcome_program_eq_ok_iff {doc : Json} {ts : List (Tree String)} :
    doc.program.outcome = .ok ts ↔ doc.DescribesProgram ts := by
  constructor
  · intro h
    have judged := doc.program_judged
    rw [Reading.Judged, h] at judged
    exact judged
  · rintro ⟨root, js, is, kind, holds, nonempty, describes⟩
    have outcome : (statements js).outcome = .ok ts := describes.comesOut
    have type := Element.type?_eq_program_iff.mpr kind
    simp [program, Element.ofJson_of_is is, type, Element.items_of_holds holds, nonempty, outcome]

/-- **The errors that come out are the first violations.** -/
theorem Json.outcome_program_eq_error_iff {doc : Json} {err : DocumentError} :
    doc.program.outcome = .error err ↔ doc.ViolatesProgram err := by
  constructor
  · intro h
    have judged := doc.program_judged
    rw [Reading.Judged, h] at judged
    exact judged
  · intro h
    cases h with
    | no_element no_element => simp [program, Element.ofJson_of_noElement no_element]
    | no_program is other =>
        have type := mt Element.type?_eq_program_iff.mp other
        simp [program, Element.ofJson_of_is is, type]
    | body is kind no_items =>
        have type := Element.type?_eq_program_iff.mpr kind
        simp [program, Element.ofJson_of_is is, type, Element.items_of_noItems no_items]
    | empty is kind holds =>
        have type := Element.type?_eq_program_iff.mpr kind
        simp [program, Element.ofJson_of_is is, type, Element.items_of_holds holds]
    | statements is kind holds violates =>
        have outcome : (LexCell.statements _).outcome = .error err := goesWrong_of_violates violates
        have nonempty := violates.ne_nil
        have type := Element.type?_eq_program_iff.mpr kind
        simp [program, Element.ofJson_of_is is, type, Element.items_of_holds holds, nonempty,
          outcome]

end LexCell
