import LexCell.Proofs.Grammar.Parts

/-!
# What is read is in the grammar

A tree that comes out of reading is described by what was read, and an error is its first violation.
Reading is a sequence of checks, so both are carried through it together, as what is known of the
outcome so far (`Reading.Judged`): a check is judged once, and `Reading.Judged.bind` goes on from
one to the next.
-/

namespace LexCell

/-! ### Judgements

A reading yields something or stops with an error, and we have to say something in both cases.
`Judged` says both at once, so that one walk along the reader gives both, and a sequence is judged
part by part (`Judged.bind`). -/

/-- What came out is as the one says, or the violation as the other does. -/
def Reading.Judged {α : Type} (r : Reading α) (good : α → Prop) (bad : DocumentError → Prop) :
    Prop :=
  match r.outcome with
  | .ok a => good a
  | .error err => bad err

namespace Reading.Judged

variable {α β : Type} {good : α → Prop} {bad bad' : DocumentError → Prop} {good' : β → Prop}

theorem pure {a : α} (h : good a) : (Pure.pure a : Reading α).Judged good bad := h

theorem fail {err : DocumentError} (h : bad err) : (Reading.fail err : Reading α).Judged good bad :=
  h

theorem check_ok {a : α} (h : good a) : (Reading.check (.ok a)).Judged good bad := h

theorem check_error {err : DocumentError} (h : bad err) :
    (Reading.check (.error err) : Reading α).Judged good bad := h

theorem bind {r : Reading α} {f : α → Reading β} (h : r.Judged good bad)
    (hok : ∀ a, good a → (f a).Judged good' bad') (herror : ∀ err, bad err → bad' err) :
    (r >>= f).Judged good' bad' := by
  obtain ⟨names, outcome⟩ := r
  cases outcome with
  | ok a => exact hok a h
  | error err => exact herror err h

theorem check_bind {x : Except DocumentError α} {f : α → Except DocumentError β}
    (h : (Reading.check x).Judged good bad)
    (hok : ∀ a, good a → (Reading.check (f a)).Judged good' bad')
    (herror : ∀ err, bad err → bad' err) : (Reading.check (x >>= f)).Judged good' bad' := by
  cases x with
  | ok a => exact hok a h
  | error err => exact herror err h

theorem imp {good' : α → Prop} {r : Reading α} (h : r.Judged good bad)
    (hok : ∀ a, good a → good' a) (herror : ∀ err, bad err → bad' err) : r.Judged good' bad' := by
  obtain ⟨names, outcome⟩ := r
  cases outcome with
  | ok a => exact hok a h
  | error err => exact herror err h

end Reading.Judged

open Reading

/-! ### Fields

Each way to look at a field is judged by the two relations of the grammar: that the field holds what
is asked for, and the violation that there is otherwise. -/

namespace Element

variable (e : Element) (key : String)

/-- A value is an element, or there is a reason why it is none. -/
theorem ofJson_judged (j : Json) :
    (check (ofJson j)).Judged (fun c => j.Is c.val) j.NoElement := by
  unfold ofJson
  split
  · split
    · next kind h => exact ⟨rfl, h⟩
    · next v h hv => exact .type_shape hv fun s hs => h s hs
    · next h => exact .no_type h
  · next h => exact .no_object h

/-- A field is not found if it is absent, and also if it holds `null`. -/
theorem lacks_of_field? (h : e.field? key = none) : e.Lacks key := by
  rintro j ⟨hj, hnull⟩
  unfold field? at h
  split at h
  · next h' =>
    rw [hj] at h'
    cases h'
  · next h' =>
    rw [hj] at h'
    cases h'
    exact hnull rfl
  · cases h

theorem holds_of_field? {j : { j : Json // sizeOf j < e.size }} (h : e.field? key = some j) :
    e.Holds key j.val := by
  unfold field? at h
  split at h
  · cases h
  · cases h
  · next hnull hj =>
    cases h
    exact ⟨hj, hnull⟩

/-- A field holds something, or it is missing. -/
theorem field_judged :
    (check (e.field key)).Judged (fun j => e.Holds key j.val)
      fun err => e.Lacks key ∧ err = .missingField e.kind key := by
  unfold field
  split
  · next j h => exact e.holds_of_field? key h
  · next h => exact ⟨e.lacks_of_field? key h, rfl⟩

/-- A field holds an element, or does not. -/
theorem child_judged :
    (check (e.child key)).Judged (fun c => ∃ j, e.Holds key j ∧ j.Is c.val) (e.NoChild key) := by
  refine (e.field_judged key).check_bind ?_ ?_
  · intro j hj
    exact (ofJson_judged j.val).check_bind (fun c hc => ⟨j.val, hj, hc⟩)
      fun err => .value hj
  · rintro _ ⟨h, rfl⟩
    exact .absent h

theorem text_judged :
    (check (e.text key)).Judged (fun s => e.Holds key (.string s)) (e.NoText key) := by
  refine (e.field_judged key).check_bind ?_ ?_
  · intro j hj
    split
    · next s hs =>
      rw [hs] at hj
      exact hj
    · next h => exact .shape hj fun ⟨s, hs⟩ => h s hs
  · rintro _ ⟨h, rfl⟩
    exact .absent h

theorem items_judged :
    (check (e.items key)).Judged (fun js => e.Holds key (.array js.val)) (e.NoItems key) := by
  refine (e.field_judged key).check_bind ?_ ?_
  · intro ⟨j, hlt⟩ hj
    split
    · next js h heq =>
      cases heq
      exact hj
    · next h =>
      refine .shape hj ?_
      rintro ⟨js, rfl⟩
      exact h js hlt rfl
  · rintro _ ⟨h, rfl⟩
    exact .absent h

/-- A call has one argument, or the list of them is at fault. -/
theorem argument_judged :
    (check e.argument).Judged (fun j => e.Holds "arguments" (.array [j.val]))
      fun err => e.NoItems "arguments" err ∨ ∃ js, e.Holds "arguments" (.array js) ∧
        js.length ≠ 1 ∧ err = .argumentCount js.length := by
  refine (e.items_judged "arguments").check_bind ?_ fun err => .inl
  intro ⟨js, hlt⟩ hjs
  split
  · next j h heq =>
    cases heq
    exact hjs
  · next h =>
    refine .inr ⟨js, hjs, fun one => ?_, rfl⟩
    -- A list of length one has the form that was excluded.
    obtain ⟨j, rfl⟩ := List.length_eq_one_iff.mp one
    exact h j hlt rfl

theorem name_judged : e.name.Judged (fun n => e.Holds "name" (.string n)) (e.NoText "name") :=
  (e.text_judged "name").bind (fun _ h => h) fun _ h => h

/-- A function declares a parameter or none, or its list of parameters is at fault. -/
theorem parameter_judged : e.parameter.Judged e.Declares e.NoParameter := by
  refine (e.items_judged "params").bind ?_ fun err => .items
  intro ⟨js, _⟩ hjs
  dsimp only
  split
  · exact .none hjs
  · next j _ =>
    refine (ofJson_judged j).bind ?_ fun err => .value hjs
    intro p hp
    split
    · next h =>
      have id : j.IsIdentifier p.val := ⟨hp, type?_eq_identifier_iff.mp h⟩
      exact p.val.name_judged.imp (fun n hn => .one hjs id hn) fun err herr => .name hjs id herr
    · next h => exact .type hjs hp fun hk => h (type?_eq_identifier_iff.mpr hk)
  · next hnil hone =>
    refine .count hjs ?_
    -- Neither empty nor a single one, so at least two.
    match js with
    | [] => exact absurd rfl hnil
    | [j] => exact absurd rfl (hone j)
    | _ :: _ :: _ => simp

end Element

/-! ### Literals and operators

What is not read as a literal is no literal. These are equivalences, since for the grammar a literal
that is refused must be shown to spell nothing. -/

/-- Values that are read as literals are those that spell one. -/
theorem literalOfJson_eq_ok_iff {j : Json} {t : Tree String} :
    literalOfJson j = .ok t ↔ j.Spells t := by
  constructor
  · intro h
    unfold literalOfJson at h
    split at h
    · cases h
      exact .boolean _
    · split at h
      · next w hw =>
        cases h
        -- The integer is in range, so it is the value of a word.
        rw [← wordOf?_eq_some_iff.mp hw]
        exact .integer w
      · cases h
    · cases h
  · intro h
    cases h with
    | boolean b => rfl
    | integer n =>
        unfold literalOfJson
        dsimp only
        rw [wordOf?_eq_some_iff.mpr rfl]

/-- A value that is refused is repeated in the error. -/
theorem eq_of_literalOfJson_error {j : Json} {err : DocumentError}
    (h : literalOfJson j = .error err) : err = .invalidLiteral j.compact := by
  unfold literalOfJson at h
  split at h
  · cases h
  · split at h <;> cases h
    rfl
  · cases h
    rfl

/-- Texts that are read as literals are those that spell one. -/
theorem literalOfText_eq_ok_iff {raw : String} {t : Tree String} :
    literalOfText raw = .ok t ↔ Spelling raw t := by
  constructor
  · intro h
    -- The two truth values are tried before the number.
    unfold literalOfText at h
    split at h
    · next e =>
      cases h
      rw [e]
      exact .true
    · split at h
      · next e =>
        cases h
        rw [e]
        exact .false
      · split at h
        · next w hw =>
          cases h
          exact .decimal (ofDecimal?_eq_some_iff.mp hw)
        · cases h
  · intro h
    cases h with
    | true | false => rfl
    | decimal writes =>
        have word := ofDecimal?_eq_some_iff.mpr writes
        -- No number is spelled like a truth value.
        have not_true : raw ≠ "true" := by
          rintro rfl
          rw [show ofDecimal? "true" = none by decide +kernel] at word
          cases word
        have not_false : raw ≠ "false" := by
          rintro rfl
          rw [show ofDecimal? "false" = none by decide +kernel] at word
          cases word
        unfold literalOfText
        rw [if_neg not_true, if_neg not_false, word]

theorem eq_of_literalOfText_error {raw : String} {err : DocumentError}
    (h : literalOfText raw = .error err) : err = .invalidLiteral raw := by
  unfold literalOfText at h
  split at h
  · cases h
  · split at h
    · cases h
    · split at h <;> cases h
      rfl

/-- A token is read as an operator exactly if it is its symbol. -/
theorem UnaryOp.ofSymbol?_eq_some_iff {token : String} {op : UnaryOp} :
    ofSymbol? token = some op ↔ token = op.symbol := by
  constructor
  · intro h
    unfold ofSymbol? at h
    split at h <;> cases h <;> rfl
  · rintro rfl
    exact ofSymbol?_symbol op

theorem UnaryOp.ofSymbol?_eq_none_iff {token : String} :
    ofSymbol? token = none ↔ ∀ op : UnaryOp, token ≠ op.symbol :=
  Option.eq_none_iff_forall_ne_some.trans (forall_congr' fun _ => not_congr ofSymbol?_eq_some_iff)

theorem BinaryOp.ofSymbol?_eq_some_iff {token : String} {op : BinaryOp} :
    ofSymbol? token = some op ↔ token = op.symbol := by
  constructor
  · intro h
    unfold ofSymbol? at h
    split at h <;> cases h <;> rfl
  · rintro rfl
    exact ofSymbol?_symbol op

theorem BinaryOp.ofSymbol?_eq_none_iff {token : String} :
    ofSymbol? token = none ↔ ∀ op : BinaryOp, token ≠ op.symbol :=
  Option.eq_none_iff_forall_ne_some.trans (forall_congr' fun _ => not_congr ofSymbol?_eq_some_iff)

theorem LogicalOp.ofSymbol?_eq_some_iff {token : String} {op : LogicalOp} :
    ofSymbol? token = some op ↔ token = op.symbol := by
  constructor
  · intro h
    unfold ofSymbol? at h
    split at h <;> cases h <;> rfl
  · rintro rfl
    exact ofSymbol?_symbol op

theorem LogicalOp.ofSymbol?_eq_none_iff {token : String} :
    ofSymbol? token = none ↔ ∀ op : LogicalOp, token ≠ op.symbol :=
  Option.eq_none_iff_forall_ne_some.trans (forall_congr' fun _ => not_congr ofSymbol?_eq_some_iff)

/-! ### Trees

An element is judged if all smaller ones are (`Element.JudgedBelow`), so an induction on the size
judges every element. For each type the parts are judged in the order in which they are read: a part
that is described adds a hypothesis to the rules that are left, and one that violates the grammar
decides the rule. -/

namespace Element

def TreeJudged (e : Element) : Prop :=
  e.tree.Judged (fun t => Denotes (.element e t)) (Violates (.element e))

/-- All elements smaller than this are judged. -/
def JudgedBelow (size : Nat) : Prop := ∀ c : Element, c.size < size → c.TreeJudged

theorem JudgedBelow.mono {m n : Nat} (below : JudgedBelow n) (h : m ≤ n) : JudgedBelow m :=
  fun c hc => below c (Nat.lt_of_lt_of_le hc h)

end Element

/-! #### Lists of declarators

The rules for a list are about its first declarator and about what comes after it. What they say of
the first one alone is what they say of the list that has no other. -/

/-- A declarator that is described, and then the others. -/
theorem Denotes.declarations_cons {j : Json} {js : List Json} {d : String × Tree String}
    {ds : List (String × Tree String)} (h : Denotes (.declarations [j] [d]))
    (rest : Denotes (.declarations js ds)) : Denotes (.declarations (j :: js) (d :: ds)) := by
  cases h with
  | declaration is holds id name init _ => exact .declaration is holds id name init rest

/-- A declarator that is described, and then a violation. -/
theorem Denotes.violates_declarations {j : Json} {js : List Json} {d : String × Tree String}
    {err : DocumentError} (h : Denotes (.declarations [j] [d]))
    (rest : Violates (.declarations js) err) : Violates (.declarations (j :: js)) err := by
  cases h with
  | declaration is holds id name init _ => exact .declarations_after is holds id name init rest

/-- A violation by the first declarator does not depend on the others. -/
theorem Violates.of_declarator {j : Json} {js : List Json} {err : DocumentError}
    (h : Violates (.declarations [j]) err) : Violates (.declarations (j :: js)) err := by
  cases h with
  | declarator no_element => exact .declarator no_element
  | declared_id is no_child => exact .declared_id is no_child
  | declared_type is holds id other => exact .declared_type is holds id other
  | declared_name is holds id no_text => exact .declared_name is holds id no_text
  | init is holds id name violates => exact .init is holds id name violates
  | declarations_after _ _ _ _ _ rest => cases rest

open Element

/-! #### Values, fields and lists

These are the parts that types have in common. They are smaller than the element that they belong
to, so they are judged by what is below it. -/

/-- A value is judged as the element that it is. -/
theorem Json.tree_judged {j : Json} (below : JudgedBelow (sizeOf j)) :
    j.tree.Judged (fun t => Denotes (.value j t)) (Violates (.value j)) := by
  refine (ofJson_judged j).bind ?_ fun err => .no_element
  intro c hc
  exact (below c.val c.property).imp (fun t => .value hc) fun err => .value hc

/-- A field is judged as the value that it holds. -/
theorem Element.subtree_judged {e : Element} (below : JudgedBelow e.size) (key : String) :
    (e.subtree key).Judged (fun t => Denotes (.field e key t)) (Violates (.field e key)) := by
  refine (e.child_judged key).bind ?_ ?_
  · rintro c ⟨j, hj, hc⟩
    exact (below c.val c.property).imp (fun t ht => .field hj (.value hc ht))
      fun err herr => .field hj (.value hc herr)
  · rintro err (lacks | ⟨holds, no_element⟩)
    · exact .absent lacks
    · exact .field holds (.no_element no_element)

/-- A declarator is judged as the list of it alone. -/
theorem Json.declarator_judged {j : Json} (below : JudgedBelow (sizeOf j)) :
    j.declarator.Judged (fun d => Denotes (.declarations [j] [d]))
      (Violates (.declarations [j])) := by
  rw [Json.declarator_eq]
  refine (ofJson_judged j).bind ?_ fun err => .declarator
  intro d hd
  refine (d.val.child_judged "id").bind ?_ fun err => .declared_id hd
  rintro id ⟨k, hk, his⟩
  split
  · next type =>
    have type : k.IsIdentifier id.val := ⟨his, type?_eq_identifier_iff.mp type⟩
    refine id.val.name_judged.bind ?_ fun err => .declared_name hd hk type
    intro n hn
    exact (subtree_judged (below.mono (Nat.le_of_lt d.property)) "init").bind
      (fun t ht => .pure (.declaration hd hk type hn ht .no_declarations))
      fun err => .init hd hk type hn
  · next other =>
    exact .fail (.declared_type hd hk his fun id => other (type?_eq_identifier_iff.mpr id))

theorem statements_judged {js : List Json} (below : JudgedBelow (sizeOf js)) :
    (statements js).Judged (fun ts => Denotes (.statements js ts)) (Violates (.statements js)) := by
  induction js with
  | nil =>
      rw [statements]
      exact .pure .no_statements
  | cons j js ih =>
      rw [statements_cons]
      -- Both the first value and the rest are at most as large as the list.
      have le : sizeOf j ≤ sizeOf (j :: js) ∧ sizeOf js ≤ sizeOf (j :: js) := by
        simp only [List.cons.sizeOf_spec]
        omega
      refine (Json.tree_judged (below.mono le.1)).bind ?_ fun err => .statement
      intro t ht
      exact (ih (below.mono le.2)).bind (fun ts hts => .pure (.statement ht hts))
        fun err => .statements ht

theorem declarations_judged {js : List Json} (below : JudgedBelow (sizeOf js)) :
    (declarations js).Judged (fun ds => Denotes (.declarations js ds))
      (Violates (.declarations js)) := by
  induction js with
  | nil =>
      rw [declarations]
      exact .pure .no_declarations
  | cons j js ih =>
      rw [declarations_cons]
      have le : sizeOf j ≤ sizeOf (j :: js) ∧ sizeOf js ≤ sizeOf (j :: js) := by
        simp only [List.cons.sizeOf_spec]
        omega
      refine (Json.declarator_judged (below.mono le.1)).bind ?_ fun err => .of_declarator
      intro d hd
      exact (ih (below.mono le.2)).bind (fun ds hds => .pure (hd.declarations_cons hds))
        fun err => hd.violates_declarations

/-! #### Types

One lemma for each type: its equation is rewritten with, and then the parts are judged in the order
in which it names them. -/

namespace Element

section Types

variable {e : Element} (below : JudgedBelow e.size)

/-- The literal that an element describes; it has no parts that are elements. -/
theorem literal_judged (h : e.type? = some .literal) : e.TreeJudged := by
  have kind := kind_of_type? h rfl
  rw [TreeJudged, tree_literal h]
  unfold literal
  split
  · next j hj =>
    have holds := e.holds_of_field? "value" hj
    -- What is refused spells nothing, since what spells something is read.
    cases outcome : literalOfJson j.val with
    | ok t => exact .literal kind holds (literalOfJson_eq_ok_iff.mp outcome)
    | error err =>
        rw [eq_of_literalOfJson_error outcome]
        refine .literal kind holds fun t spells => ?_
        rw [literalOfJson_eq_ok_iff.mpr spells] at outcome
        cases outcome
  · next lacks =>
    have lacks := e.lacks_of_field? "value" lacks
    refine (e.text_judged "raw").check_bind ?_ fun err => .literal_raw kind lacks
    intro raw hraw
    cases outcome : literalOfText raw with
    | ok t => exact .raw_literal kind lacks hraw (literalOfText_eq_ok_iff.mp outcome)
    | error err =>
        rw [eq_of_literalOfText_error outcome]
        refine .raw_literal kind lacks hraw fun t spelling => ?_
        rw [literalOfText_eq_ok_iff.mpr spelling] at outcome
        cases outcome

theorem identifier_judged (h : e.type? = some .identifier) : e.TreeJudged := by
  have kind := kind_of_type? h rfl
  rw [TreeJudged, tree_identifier h]
  exact e.name_judged.bind (fun n hn => .pure (.identifier kind hn)) fun err => .identifier kind

include below

theorem expressionStatement_judged (h : e.type? = some .expressionStatement) : e.TreeJudged := by
  have kind := kind_of_type? h rfl
  rw [TreeJudged, tree_expressionStatement h]
  exact (subtree_judged below "expression").imp (fun t => .expression_statement kind)
    fun err => .expression_statement kind

theorem returnStatement_judged (h : e.type? = some .returnStatement) : e.TreeJudged := by
  have kind := kind_of_type? h rfl
  rw [TreeJudged, tree_returnStatement h]
  exact (subtree_judged below "argument").imp (fun t => .return_statement kind)
    fun err => .return_statement kind

theorem variableDeclaration_judged (h : e.type? = some .variableDeclaration) : e.TreeJudged := by
  have kind := kind_of_type? h rfl
  rw [TreeJudged, tree_variableDeclaration h]
  refine (e.items_judged "declarations").bind ?_ fun err => .declarations kind
  intro js hjs
  -- The list is smaller than the element in whose field it stands.
  exact (declarations_judged (below.mono (Nat.le_of_lt js.property))).bind
    (fun ds hds => .pure (.variable_declaration kind hjs hds))
    fun err => .variable_declaration kind hjs

theorem blockStatement_judged (h : e.type? = some .blockStatement) : e.TreeJudged := by
  have kind := kind_of_type? h rfl
  rw [TreeJudged, tree_blockStatement h]
  refine (e.items_judged "body").bind ?_ fun err => .block_body kind
  intro js hjs
  split
  · next empty =>
    rw [List.isEmpty_iff.mp empty] at hjs
    exact .fail (.block_empty kind hjs)
  · next nonempty =>
    have nonempty : js.val ≠ [] := fun empty => nonempty (List.isEmpty_iff.mpr empty)
    exact (statements_judged (below.mono (Nat.le_of_lt js.property))).bind
      (fun ts hts => .pure (.block_statement kind hjs nonempty hts))
      fun err => .block_statement kind hjs

theorem unaryExpression_judged (h : e.type? = some .unaryExpression) : e.TreeJudged := by
  have kind := kind_of_type? h rfl
  rw [TreeJudged, tree_unaryExpression h]
  refine (e.text_judged "operator").bind ?_ fun err => .unary_operator kind
  intro token htoken
  -- A token that is no operator is described as it stands.
  split
  · next none => exact .unary_malformed kind htoken (UnaryOp.ofSymbol?_eq_none_iff.mp none)
  · next op some =>
    obtain rfl := UnaryOp.ofSymbol?_eq_some_iff.mp some
    exact (subtree_judged below "argument").bind (fun t ht => .pure (.unary kind htoken ht))
      fun err => .unary kind htoken

theorem binaryExpression_judged (h : e.type? = some .binaryExpression) : e.TreeJudged := by
  have kind := kind_of_type? h rfl
  rw [TreeJudged, tree_binaryExpression h]
  refine (e.text_judged "operator").bind ?_ fun err => .binary_operator kind
  intro token htoken
  split
  · next none => exact .binary_malformed kind htoken (BinaryOp.ofSymbol?_eq_none_iff.mp none)
  · next op some =>
    obtain rfl := BinaryOp.ofSymbol?_eq_some_iff.mp some
    refine (subtree_judged below "left").bind ?_ fun err => .binary_left kind htoken
    intro l hl
    exact (subtree_judged below "right").bind (fun r hr => .pure (.binary kind htoken hl hr))
      fun err => .binary_right kind htoken hl

theorem logicalExpression_judged (h : e.type? = some .logicalExpression) : e.TreeJudged := by
  have kind := kind_of_type? h rfl
  rw [TreeJudged, tree_logicalExpression h]
  refine (e.text_judged "operator").bind ?_ fun err => .logical_operator kind
  intro token htoken
  split
  · next none => exact .logical_malformed kind htoken (LogicalOp.ofSymbol?_eq_none_iff.mp none)
  · next op some =>
    obtain rfl := LogicalOp.ofSymbol?_eq_some_iff.mp some
    refine (subtree_judged below "left").bind ?_ fun err => .logical_left kind htoken
    intro l hl
    exact (subtree_judged below "right").bind (fun r hr => .pure (.logical kind htoken hl hr))
      fun err => .logical_right kind htoken hl

theorem conditionalExpression_judged (h : e.type? = some .conditionalExpression) :
    e.TreeJudged := by
  have kind := kind_of_type? h rfl
  rw [TreeJudged, tree_conditionalExpression h]
  refine (subtree_judged below "test").bind ?_ fun err => .test kind
  intro t ht
  refine (subtree_judged below "consequent").bind ?_ fun err => .consequent kind ht
  intro c hc
  exact (subtree_judged below "alternate").bind (fun a ha => .pure (.conditional kind ht hc ha))
    fun err => .alternate kind ht hc

theorem functionExpression_judged (h : e.type? = some .functionExpression) : e.TreeJudged := by
  have kind := type?_eq_functionExpression_iff.mp h
  rw [TreeJudged, tree_functionExpression h]
  refine e.parameter_judged.bind ?_ fun err => .parameter kind
  intro p hp
  exact (subtree_judged below "body").bind (fun t ht => .pure (.function kind hp ht))
    fun err => .function kind hp

/-- The list of arguments is looked at first, but the only one is read after the function. -/
theorem callExpression_judged (h : e.type? = some .callExpression) : e.TreeJudged := by
  have kind := kind_of_type? h rfl
  rw [TreeJudged, tree_callExpression h]
  refine e.argument_judged.bind ?_ ?_
  · intro j hj
    refine (subtree_judged below "callee").bind ?_ fun err => .callee kind hj
    intro c hc
    exact (Json.tree_judged (below.mono (Nat.le_of_lt j.property))).bind
      (fun a ha => .pure (.call kind hj hc ha)) fun err => .argument kind hj hc
  · rintro err (items | ⟨js, hjs, count, rfl⟩)
    · exact .arguments kind items
    · exact .argument_count kind hjs count

theorem assignmentExpression_judged (h : e.type? = some .assignmentExpression) :
    e.TreeJudged := by
  have kind := kind_of_type? h rfl
  rw [TreeJudged, tree_assignmentExpression h]
  refine (e.child_judged "left").bind ?_ fun err => .assignment_left kind
  rintro target ⟨j, hj, his⟩
  -- Each of the two questions has one answer that ends the reading.
  split
  case isFalse other =>
    exact .fail (.assignment_target kind hj his fun id => other (type?_eq_identifier_iff.mpr id))
  next id =>
  have id : j.IsIdentifier target.val := ⟨his, type?_eq_identifier_iff.mp id⟩
  refine (e.text_judged "operator").bind ?_ fun err => .assignment_operator kind hj id
  intro token htoken
  split
  case isFalse other => exact .assignment_malformed kind hj id htoken other
  next assigns =>
  rw [assigns] at htoken
  refine target.val.name_judged.bind ?_ fun err => .assignment_name kind hj id htoken
  intro n hn
  exact (subtree_judged below "right").bind
    (fun t ht => .pure (.assignment kind hj id htoken hn ht))
    fun err => .assignment kind hj id htoken hn

end Types

/-- **Reading judges every element rightly**: what it yields is what the grammar describes, and an
error is the first violation. -/
theorem tree_judged (e : Element) : e.TreeJudged := by
  -- The recursion is on the size of the element, and all its parts are smaller.
  have below : JudgedBelow e.size := fun c _ => c.tree_judged
  cases h : e.type? with
  | none =>
      rw [TreeJudged, tree_unknown (unknown_iff.mpr (.inl h))]
      exact .fail (.unknown (unknown_iff.mpr (.inl h)))
  | some k =>
    cases k with
    | program =>
        rw [TreeJudged, tree_unknown (unknown_iff.mpr (.inr h))]
        exact .fail (.unknown (unknown_iff.mpr (.inr h)))
    | expressionStatement => exact expressionStatement_judged below h
    | returnStatement => exact returnStatement_judged below h
    | variableDeclaration => exact variableDeclaration_judged below h
    | blockStatement => exact blockStatement_judged below h
    | literal => exact literal_judged h
    | identifier => exact identifier_judged h
    | unaryExpression => exact unaryExpression_judged below h
    | binaryExpression => exact binaryExpression_judged below h
    | logicalExpression => exact logicalExpression_judged below h
    | conditionalExpression => exact conditionalExpression_judged below h
    | functionExpression => exact functionExpression_judged below h
    | callExpression => exact callExpression_judged below h
    | assignmentExpression => exact assignmentExpression_judged below h
termination_by e.size

end Element

/-- **Reading judges a program rightly**: trees that come out are described by the document, and an
error is the first violation. -/
theorem Json.program_judged (doc : Json) :
    doc.program.Judged doc.DescribesProgram doc.ViolatesProgram := by
  refine (Element.ofJson_judged doc).bind ?_ fun err => .no_element
  intro root hroot
  split
  · next type =>
    have kind := Element.type?_eq_program_iff.mp type
    refine (root.val.items_judged "body").bind ?_ fun err => .body hroot kind
    intro js hjs
    split
    · next empty =>
      rw [List.isEmpty_iff.mp empty] at hjs
      exact .fail (.empty hroot kind hjs)
    · next nonempty =>
      have nonempty : js.val ≠ [] := fun empty => nonempty (List.isEmpty_iff.mpr empty)
      exact (statements_judged fun c _ => c.tree_judged).imp
        (fun ts hts => ⟨root.val, js.val, hroot, kind, hjs, nonempty, hts⟩)
        fun err => .statements hroot kind hjs
  · next other =>
    exact .fail (.no_program hroot fun kind => other (Element.type?_eq_program_iff.mpr kind))

end LexCell
