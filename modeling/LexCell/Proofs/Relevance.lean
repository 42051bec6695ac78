import LexCell.Proofs.Acceptance
import Mathlib.Data.List.Forall2

/-!
# What a document is read for

Reading asks an element for some of its fields (`Element.demands`), which ones its type says, and
for operators and literals also what other fields hold. Documents that are alike in what is asked
for (`Pair.Alike`) are read alike, names and errors included: what else an element holds does not
matter, and neither does it whether a field is `null` or absent, or whether a part stands in a
statement that adds nothing to it (`Json.Wraps`).

The relation has a parameter, pairs of values that may stand for each other where a tree is
described. If readings of such values are the same unless the first stops with certain errors, then
so are the readings of the documents (`Pair.Alike.agrees`).
-/

theorem List.Forall₂.isEmpty_eq {α β : Type} {R : α → β → Prop} {xs : List α} {ys : List β}
    (h : List.Forall₂ R xs ys) : xs.isEmpty = ys.isEmpty := by
  cases h <;> rfl

theorem List.Forall₂.trans {α : Type} {R : α → α → Prop} {xs ys zs : List α}
    (hR : ∀ x y z, R x y → R y z → R x z) (h : List.Forall₂ R xs ys) (h' : List.Forall₂ R ys zs) :
    List.Forall₂ R xs zs := by
  induction h generalizing zs with
  | nil => exact h'
  | cons hx _ ih =>
      cases h' with
      | cons hy rest => exact .cons (hR _ _ _ hx hy) (ih rest)

namespace LexCell

/-! ### Readings that follow each other -/

namespace Reading

variable {α β : Type} {bad : DocumentError → Prop}

/-- The readings are the same, or the first stops with a bad error. -/
def Follows (bad : DocumentError → Prop) (r r' : Reading α) : Prop :=
  r = r' ∨ ∃ err, r.outcome = .error err ∧ bad err

namespace Follows

theorem refl (r : Reading α) : r.Follows bad r := .inl rfl

theorem trans {r r' r'' : Reading α} (h : r.Follows bad r') (h' : r'.Follows bad r'') :
    r.Follows bad r'' := by
  rcases h with rfl | h
  · exact h'
  · exact .inr h

theorem bind {r r' : Reading α} {f f' : α → Reading β} (h : r.Follows bad r')
    (hf : ∀ a, (f a).Follows bad (f' a)) : (r >>= f).Follows bad (r' >>= f') := by
  rcases h with rfl | ⟨err, stops, isBad⟩
  · cases outcome : r.outcome with
    | error err =>
        left
        show Reading.bind r f = Reading.bind r f'
        simp only [Reading.bind, outcome]
    | ok a => -- both read the same value; from there on it is up to the continuations
        rcases hf a with same | ⟨err, stops, isBad⟩
        · left
          show Reading.bind r f = Reading.bind r f'
          simp only [Reading.bind, outcome, same]
        · -- what comes after stops badly, and so does the whole
          right
          refine ⟨err, ?_, isBad⟩
          rw [outcome_bind, outcome]
          exact stops
  · right
    refine ⟨err, ?_, isBad⟩
    rw [outcome_bind, stops]
    rfl

/-- Without bad errors the readings are the same. -/
theorem eq {r r' : Reading α} (h : r.Follows (fun _ => False) r') : r = r' :=
  h.resolve_right fun ⟨_, _, isBad⟩ => isBad

end Follows

end Reading

/-! ### What is asked for -/

inductive Role where
  | program
  | node
  | declarator
  /-- An identifier, of which the name is asked for or only the type. -/
  | identifier (named : Bool)

inductive Demand where
  | element (r : Role)
  | elements (r : Role)
  | text
  | constant

namespace Element

def operator? (e : Element) : Option String := (e.text "operator").toOption

def demands (e : Element) : Role → List (String × Demand)
  | .program => if e.type? = some .program then [("body", .elements .node)] else []
  | .declarator => [("id", .element (.identifier true)), ("init", .element .node)]
  | .identifier named =>
      if named ∧ e.type? = some .identifier then [("name", .text)] else []
  | .node =>
      match e.type? with
      | none | some .program => []
      | some .expressionStatement => [("expression", .element .node)]
      | some .returnStatement => [("argument", .element .node)]
      | some .variableDeclaration => [("declarations", .elements .declarator)]
      | some .blockStatement => [("body", .elements .node)]
      | some .literal => -- the source text counts where there is no value
          ("value", .constant) :: if (e.field? "value").isNone then [("raw", .text)] else []
      | some .identifier => [("name", .text)]
      | some .unaryExpression =>
          ("operator", .text) ::
            if (e.operator?.bind UnaryOp.ofSymbol?).isSome then [("argument", .element .node)]
            else []
      | some .binaryExpression =>
          ("operator", .text) ::
            if (e.operator?.bind BinaryOp.ofSymbol?).isSome then
              [("left", .element .node), ("right", .element .node)]
            else []
      | some .logicalExpression =>
          ("operator", .text) ::
            if (e.operator?.bind LogicalOp.ofSymbol?).isSome then
              [("left", .element .node), ("right", .element .node)]
            else []
      | some .conditionalExpression =>
          [("test", .element .node), ("consequent", .element .node), ("alternate", .element .node)]
      | some .functionExpression =>
          [("params", .elements (.identifier true)), ("body", .element .node)]
      | some .callExpression => [("arguments", .elements .node), ("callee", .element .node)]
      | some .assignmentExpression =>
          ("operator", .text) ::
            if e.operator? = some "=" then
              [("left", .element (.identifier true)), ("right", .element .node)]
            else [("left", .element (.identifier false))]

end Element

/-! ### Documents that are alike -/

/-- What is compared: two values for what they are asked for, or two elements by fields. -/
inductive Pair where
  | values (d : Demand) (j j' : Json)
  | fields (ds : List (String × Demand)) (e e' : Element)

/-- Alike in what is asked for, except where `R` lets one value stand for another. Elements that
are alike have the same `kind`, which some errors print. -/
inductive Pair.Alike (R : Json → Json → Prop) : Pair → Prop where
  | same (d : Demand) (j : Json) : Alike R (.values d j j)
  | trans {d : Demand} {j k l : Json} :
      Alike R (.values d j k) → Alike R (.values d k l) → Alike R (.values d j l)
  | node {j j' : Json} : R j j' → Alike R (.values (.element .node) j j')
  | element {r : Role} {j j' : Json} {e e' : Element} : j.Is e → j'.Is e' → e.kind = e'.kind →
      Alike R (.fields (e.demands r) e e') → Alike R (.values (.element r) j j')
  | no_element {r : Role} {j j' : Json} {err : DocumentError} :
      j.NoElement err → j'.NoElement err → Alike R (.values (.element r) j j')
  | no_text {j j' : Json} : (∀ s, j ≠ .string s) → (∀ s, j' ≠ .string s) →
      Alike R (.values .text j j')
  | no_array {r : Role} {j j' : Json} : (∀ js, j ≠ .array js) → (∀ js, j' ≠ .array js) →
      Alike R (.values (.elements r) j j')
  | nil {r : Role} : Alike R (.values (.elements r) (.array []) (.array []))
  | cons {r : Role} {j j' : Json} {js js' : List Json} :
      Alike R (.values (.element r) j j') →
      Alike R (.values (.elements r) (.array js) (.array js')) →
      Alike R (.values (.elements r) (.array (j :: js)) (.array (j' :: js')))
  | no_fields {e e' : Element} : Alike R (.fields [] e e')
  | lacks {key : String} {d : Demand} {ds : List (String × Demand)} {e e' : Element} :
      e.Lacks key → e'.Lacks key → Alike R (.fields ds e e') →
      Alike R (.fields ((key, d) :: ds) e e')
  | holds {key : String} {d : Demand} {ds : List (String × Demand)} {e e' : Element}
      {j j' : Json} :
      e.Holds key j → e'.Holds key j' → Alike R (.values d j j') →
      Alike R (.fields ds e e') → Alike R (.fields ((key, d) :: ds) e e')

/-! ### What agreement means

To be alike is a matter of the documents alone; agreement is about how they are read. That the one
leads to the other is shown type by type below. -/

section

variable (bad : DocumentError → Prop)

/-- How two values agree that are read in a role. -/
def Role.Agrees : Role → Json → Json → Prop
  | .program, j, j' => j.program.Follows bad j'.program
  | .node, j, j' => j.tree.Follows bad j'.tree
  | .declarator, j, j' => j.declarator.Follows bad j'.declarator
  | .identifier named, j, j' =>
      (∃ err, j.NoElement err ∧ j'.NoElement err) ∨
        ∃ e e', j.Is e ∧ j'.Is e' ∧ e.kind = e'.kind ∧
          (named = true → e.kind = "Identifier" → e.name = e'.name)

/-- How two values agree that a field holds. -/
def Demand.Agrees : Demand → Json → Json → Prop
  | .element r, j, j' => r.Agrees bad j j'
  | .elements r, j, j' =>
      (∀ js, j ≠ .array js) ∧ (∀ js, j' ≠ .array js) ∨
        ∃ js js', j = .array js ∧ j' = .array js' ∧ List.Forall₂ (r.Agrees bad) js js'
  | .text, j, j' => ∀ s, j = .string s ↔ j' = .string s
  | .constant, j, j' => j = j'

/-- Both elements lack the field, or what they hold agrees. -/
def Element.AgreesIn (e e' : Element) (key : String) (d : Demand) : Prop :=
  (e.Lacks key ∧ e'.Lacks key) ∨ ∃ j j', e.Holds key j ∧ e'.Holds key j' ∧ d.Agrees bad j j'

def Pair.Agrees : Pair → Prop
  | .values d j j' => d.Agrees bad j j'
  | .fields ds e e' => ∀ p ∈ ds, e.AgreesIn bad e' p.1 p.2

end

/-! ### Fields that agree -/

namespace Element

variable {β : Type} {bad : DocumentError → Prop} {e e' : Element} {key : String}

namespace AgreesIn

theorem text (h : e.AgreesIn bad e' key .text) (kind : e.kind = e'.kind) :
    e.text key = e'.text key := by
  rcases h with ⟨lacks, lacks'⟩ | ⟨j, j', holds, holds', agrees⟩
  · rw [text_of_noText (.absent lacks), text_of_noText (.absent lacks'), kind]
  · -- agreement says that the two are the same text or that neither is a text
    by_cases isText : ∃ s, j = .string s
    · obtain ⟨s, rfl⟩ := isText
      rw [(agrees s).mp rfl] at holds'
      rw [text_of_holds holds, text_of_holds holds']
    · have isText' : ¬ ∃ s, j' = .string s := fun ⟨s, hs⟩ => isText ⟨s, (agrees s).mpr hs⟩
      rw [text_of_noText (.shape holds isText), text_of_noText (.shape holds' isText'), kind]

/-- Both fields miss a list in the same way, or hold lists that agree. -/
theorem items {r : Role} (h : e.AgreesIn bad e' key (.elements r)) (kind : e.kind = e'.kind) :
    (∃ err, e.NoItems key err ∧ e'.NoItems key err) ∨
      ∃ js js', e.Holds key (.array js) ∧ e'.Holds key (.array js') ∧
        List.Forall₂ (r.Agrees bad) js js' := by
  rcases h with ⟨lacks, lacks'⟩ | ⟨j, j', holds, holds', agrees⟩
  · refine .inl ⟨_, .absent lacks, ?_⟩
    rw [kind]
    exact .absent lacks'
  · rcases agrees with ⟨other, other'⟩ | ⟨js, js', rfl, rfl, agrees⟩
    · refine .inl ⟨_, .shape holds fun ⟨js, hjs⟩ => other js hjs, ?_⟩
      rw [kind]
      exact .shape holds' fun ⟨js, hjs⟩ => other' js hjs
    · exact .inr ⟨js, js', holds, holds', agrees⟩

/-- Both fields miss an identifier in the same way, or hold elements that agree. -/
theorem identifier {named : Bool} (h : e.AgreesIn bad e' key (.element (.identifier named)))
    (kind : e.kind = e'.kind) :
    (∃ err, e.NoChild key err ∧ e'.NoChild key err) ∨
      ∃ j j' c c', e.Holds key j ∧ j.Is c ∧ e'.Holds key j' ∧ j'.Is c' ∧ c.kind = c'.kind ∧
        (named = true → c.kind = "Identifier" → c.name = c'.name) := by
  rcases h with ⟨lacks, lacks'⟩ | ⟨j, j', holds, holds', agrees⟩
  · refine .inl ⟨_, .absent lacks, ?_⟩
    rw [kind]
    exact .absent lacks'
  · rcases agrees with ⟨err, none, none'⟩ | ⟨c, c', is, is', same⟩
    · exact .inl ⟨err, .value holds none, .value holds' none'⟩
    · exact .inr ⟨j, j', c, c', holds, is, holds', is', same⟩

theorem subtree (h : e.AgreesIn bad e' key (.element .node)) (kind : e.kind = e'.kind) :
    (e.subtree key).Follows bad (e'.subtree key) := by
  rcases h with ⟨lacks, lacks'⟩ | ⟨j, j', holds, holds', agrees⟩
  · rw [subtree_of_lacks lacks, subtree_of_lacks lacks', kind]
    exact .refl _
  · rw [subtree_of_holds holds, subtree_of_holds holds']
    exact agrees

/-- Lists that agree, and what is done with them. -/
theorem list {r : Role} {f : { xs : List Json // sizeOf xs < e.size } → Reading β}
    {f' : { xs : List Json // sizeOf xs < e'.size } → Reading β}
    (h : e.AgreesIn bad e' key (.elements r)) (kind : e.kind = e'.kind)
    (hf : ∀ js js', List.Forall₂ (r.Agrees bad) js.val js'.val → (f js).Follows bad (f' js')) :
    (Reading.check (e.items key) >>= f).Follows bad (Reading.check (e'.items key) >>= f') := by
  rcases h.items kind with ⟨err, none, none'⟩ | ⟨js, js', holds, holds', agrees⟩
  · rw [items_of_noItems none, items_of_noItems none']
    exact .refl _
  · rw [items_of_holds holds, items_of_holds holds']
    exact hf _ _ agrees

end AgreesIn

end Element

/-! ### Lists that agree -/

variable {bad : DocumentError → Prop}

theorem statements_follows {js js' : List Json}
    (h : List.Forall₂ (Role.Agrees bad .node) js js') :
    (statements js).Follows bad (statements js') := by
  induction h with
  | nil => exact .refl _
  | cons hj _ ih =>
      rw [statements_cons, statements_cons]
      exact Reading.Follows.bind hj fun t => ih.bind fun ts => .refl _

theorem declarations_follows {js js' : List Json}
    (h : List.Forall₂ (Role.Agrees bad .declarator) js js') :
    (declarations js).Follows bad (declarations js') := by
  induction h with
  | nil => exact .refl _
  | cons hj _ ih =>
      rw [declarations_cons, declarations_cons]
      exact Reading.Follows.bind hj fun d => ih.bind fun ds => .refl _

/-! ### Elements that agree -/

namespace Element

variable {e e' : Element}

theorem type?_eq_of_kind (kind : e.kind = e'.kind) : e'.type? = e.type? := by
  rw [type?, type?, kind]

theorem parameter_follows (kind : e.kind = e'.kind)
    (h : e.AgreesIn bad e' "params" (.elements (.identifier true))) :
    e.parameter.Follows bad e'.parameter := by
  unfold parameter
  refine h.list kind ?_
  rintro ⟨js, _⟩ ⟨js', _⟩ agrees
  dsimp only at agrees ⊢
  -- One parameter is looked at, none is no matter, and of several only the number counts.
  cases agrees with
  | nil => exact .refl _
  | cons hj rest =>
      cases rest with
      | nil =>
          dsimp only
          rcases hj with ⟨err, none, none'⟩ | ⟨c, c', is, is', kinds, names⟩
          · rw [ofJson_of_noElement none, ofJson_of_noElement none']
            exact .refl _
          · rw [ofJson_of_is is, ofJson_of_is is']
            simp only [Reading.check_ok, Reading.pure_bind, type?_eq_of_kind kinds, kind]
            split
            · next identifier =>
              rw [names rfl (type?_eq_identifier_iff.mp identifier)]
              exact .refl _
            · exact .refl _
      | cons hk rest =>
          simp only [List.length_cons, rest.length_eq]
          exact .refl _

/-- Both calls miss an argument in the same way, or have arguments that agree. -/
theorem argument_cases (kind : e.kind = e'.kind)
    (h : e.AgreesIn bad e' "arguments" (.elements .node)) :
    (∃ err, e.argument = .error err ∧ e'.argument = .error err) ∨
      ∃ j j' hj hj', e.argument = .ok ⟨j, hj⟩ ∧ e'.argument = .ok ⟨j', hj'⟩ ∧
        Role.Agrees bad .node j j' := by
  rcases h.items kind with ⟨err, none, none'⟩ | ⟨js, js', holds, holds', agrees⟩
  · exact .inl ⟨err, argument_of_noItems none, argument_of_noItems none'⟩
  · -- a wrong number of arguments is an error that says the number, and the lists are equally long
    by_cases one : js.length = 1
    · obtain ⟨j, rfl⟩ := List.length_eq_one_iff.mp one
      obtain ⟨j', rfl⟩ := List.length_eq_one_iff.mp (agrees.length_eq ▸ one)
      obtain ⟨hj, found⟩ := argument_of_holds holds
      obtain ⟨hj', found'⟩ := argument_of_holds holds'
      exact .inr ⟨j, j', hj, hj', found, found', (List.forall₂_cons.mp agrees).1⟩
    · refine .inl ⟨_, argument_of_count holds one, ?_⟩
      rw [agrees.length_eq] at one ⊢
      exact argument_of_count holds' one

/-- The same token for an operator, if it is a text, and what is done with it. -/
theorem operation_follows {β : Type} {f f' : String → Reading β} (kind : e.kind = e'.kind)
    (operator : e.AgreesIn bad e' "operator" .text)
    (hf : ∀ token, e.operator? = some token → (f token).Follows bad (f' token)) :
    (Reading.check (e.text "operator") >>= f).Follows bad
      (Reading.check (e'.text "operator") >>= f') := by
  rw [← operator.text kind]
  unfold operator? at hf
  cases found : e.text "operator" with
  | error err => exact .refl _
  | ok token => exact hf token (by rw [found]; rfl)

theorem name_eq (kind : e.kind = e'.kind) (h : e.AgreesIn bad e' "name" .text) :
    e.name = e'.name := by
  unfold Element.name
  rw [h.text kind]

theorem literal_eq (value : e.AgreesIn bad e' "value" .constant)
    (raw : (e.field? "value").isNone → e.text "raw" = e'.text "raw") : e.literal = e'.literal := by
  unfold literal
  -- With a value the source text is not looked at, so it need not agree.
  rcases value with ⟨lacks, lacks'⟩ | ⟨j, j', holds, holds', rfl⟩
  · rw [field?_of_lacks lacks, field?_of_lacks lacks', ← raw]
    rw [field?_of_lacks lacks]
    rfl
  · rw [field?_of_holds holds, field?_of_holds holds']

/-- The name of a target and the value are asked for only if the operator is the right one. -/
theorem target_agrees
    (h : ∀ p ∈ ("operator", Demand.text) ::
      if e.operator? = some "=" then
        [("left", .element (.identifier true)), ("right", .element .node)]
      else [("left", .element (.identifier false))], e.AgreesIn bad e' p.1 p.2) :
    ∃ named, e.AgreesIn bad e' "left" (.element (.identifier named)) ∧
      (e.operator? = some "=" → named = true ∧ e.AgreesIn bad e' "right" (.element .node)) := by
  -- What is demanded depends on the operator, which is a case distinction in `h`.
  by_cases eq : e.operator? = some "="
  · simp only [eq, if_true] at h
    have left := h ("left", .element (.identifier true)) (by simp)
    exact ⟨true, left, fun _ => ⟨rfl, h ("right", .element .node) (by simp)⟩⟩
  · simp only [eq, if_false] at h
    have left := h ("left", .element (.identifier false)) (by simp)
    exact ⟨false, left, fun assigns => absurd assigns eq⟩

section Types

variable (kind : e.kind = e'.kind)

include kind

theorem literal_follows (type : e.type? = some .literal)
    (h : ∀ p ∈ e.demands .node, e.AgreesIn bad e' p.1 p.2) : e.tree.Follows bad e'.tree := by
  simp only [demands, type] at h
  have same : e.literal = e'.literal := by
    refine literal_eq (h _ List.mem_cons_self) fun lacks => ?_
    simp only [lacks, if_true] at h
    exact (h ("raw", .text) (by simp)).text kind
  rw [tree_literal type, tree_literal ((type?_eq_of_kind kind).trans type), same]
  exact .refl _

theorem unaryExpression_follows (type : e.type? = some .unaryExpression)
    (h : ∀ p ∈ e.demands .node, e.AgreesIn bad e' p.1 p.2) : e.tree.Follows bad e'.tree := by
  simp only [demands, type] at h
  rw [tree_unaryExpression type, tree_unaryExpression ((type?_eq_of_kind kind).trans type)]
  refine operation_follows kind (h _ List.mem_cons_self) fun token operator => ?_
  split
  · exact .refl _
  · next op known =>
    simp only [operator, Option.bind_some, known, Option.isSome_some, if_true] at h
    have argument := h ("argument", .element .node) (by simp)
    exact (argument.subtree kind).bind fun t => .refl _

theorem binaryExpression_follows (type : e.type? = some .binaryExpression)
    (h : ∀ p ∈ e.demands .node, e.AgreesIn bad e' p.1 p.2) : e.tree.Follows bad e'.tree := by
  simp only [demands, type] at h
  rw [tree_binaryExpression type, tree_binaryExpression ((type?_eq_of_kind kind).trans type)]
  refine operation_follows kind (h _ List.mem_cons_self) fun token operator => ?_
  split
  · exact .refl _
  · next op known =>
    simp only [operator, Option.bind_some, known, Option.isSome_some, if_true] at h
    have left := h ("left", .element .node) (by simp)
    have right := h ("right", .element .node) (by simp)
    exact (left.subtree kind).bind fun l => (right.subtree kind).bind fun r => .refl _

theorem logicalExpression_follows (type : e.type? = some .logicalExpression)
    (h : ∀ p ∈ e.demands .node, e.AgreesIn bad e' p.1 p.2) : e.tree.Follows bad e'.tree := by
  simp only [demands, type] at h
  rw [tree_logicalExpression type, tree_logicalExpression ((type?_eq_of_kind kind).trans type)]
  refine operation_follows kind (h _ List.mem_cons_self) fun token operator => ?_
  split
  · exact .refl _
  · next op known =>
    simp only [operator, Option.bind_some, known, Option.isSome_some, if_true] at h
    have left := h ("left", .element .node) (by simp)
    have right := h ("right", .element .node) (by simp)
    exact (left.subtree kind).bind fun l => (right.subtree kind).bind fun r => .refl _

theorem callExpression_follows (type : e.type? = some .callExpression)
    (h : ∀ p ∈ e.demands .node, e.AgreesIn bad e' p.1 p.2) : e.tree.Follows bad e'.tree := by
  simp only [demands, type] at h
  have arguments := h ("arguments", .elements .node) (by simp)
  have callee := h ("callee", .element .node) (by simp)
  rw [tree_callExpression type, tree_callExpression ((type?_eq_of_kind kind).trans type)]
  rcases argument_cases kind arguments with
    ⟨err, none, none'⟩ | ⟨j, j', _, _, found, found', agrees⟩
  · rw [none, none']
    exact .refl _
  · rw [found, found']
    exact (callee.subtree kind).bind fun c => Reading.Follows.bind agrees fun a => .refl _

/-- The operator is asked for only if the target is an identifier, and the name of the target only
if the operator is the right one. -/
theorem assignmentExpression_follows (type : e.type? = some .assignmentExpression)
    (h : ∀ p ∈ e.demands .node, e.AgreesIn bad e' p.1 p.2) : e.tree.Follows bad e'.tree := by
  simp only [demands, type] at h
  have operator := h ("operator", .text) List.mem_cons_self
  obtain ⟨named, left, right⟩ := target_agrees h
  rw [tree_assignmentExpression type,
    tree_assignmentExpression ((type?_eq_of_kind kind).trans type)]
  -- The target is looked at before the operator, so an error in it comes first.
  rcases left.identifier kind with
    ⟨err, none, none'⟩ | ⟨j, j', c, c', holds, is, holds', is', kinds, names⟩
  · simp only [child_of_noChild none, child_of_noChild none']
    exact .refl _
  simp only [child_of_holds holds is, child_of_holds holds' is', Reading.check_ok,
    Reading.pure_bind, type?_eq_of_kind kinds]
  split
  case isFalse =>
    rw [kinds]
    exact .refl _
  next identifier =>
  refine operation_follows kind operator fun token found => ?_
  split
  case isFalse => exact .refl _
  next assigns =>
  obtain ⟨rfl, value⟩ := right (assigns ▸ found)
  rw [names rfl (type?_eq_identifier_iff.mp (type?_eq_of_kind kinds ▸ identifier))]
  exact Reading.Follows.bind (.refl _) fun n => (value.subtree kind).bind fun t => .refl _

/-- **Elements that agree in what is asked for are read alike.** -/
theorem tree_follows (h : ∀ p ∈ e.demands .node, e.AgreesIn bad e' p.1 p.2) :
    e.tree.Follows bad e'.tree := by
  have type' (k : ElementType) (type : e.type? = some k) : e'.type? = some k :=
    (type?_eq_of_kind kind).trans type
  cases type : e.type? with
  | none =>
      rw [tree_unknown (unknown_iff.mpr (.inl type)),
        tree_unknown (unknown_iff.mpr (.inl ((type?_eq_of_kind kind).trans type))), kind]
      exact .refl _
  | some k =>
    cases k with
    | program =>
        rw [tree_unknown (unknown_iff.mpr (.inr type)),
          tree_unknown (unknown_iff.mpr (.inr (type' _ type))), kind]
        exact .refl _
    | literal => exact literal_follows kind type h
    | unaryExpression => exact unaryExpression_follows kind type h
    | binaryExpression => exact binaryExpression_follows kind type h
    | logicalExpression => exact logicalExpression_follows kind type h
    | callExpression => exact callExpression_follows kind type h
    | assignmentExpression => exact assignmentExpression_follows kind type h
    -- The other types ask for the same fields whatever these hold.
    | expressionStatement =>
        simp only [demands, type] at h
        rw [tree_expressionStatement type, tree_expressionStatement (type' _ type)]
        exact (h _ List.mem_cons_self).subtree kind
    | returnStatement =>
        simp only [demands, type] at h
        rw [tree_returnStatement type, tree_returnStatement (type' _ type)]
        exact (h _ List.mem_cons_self).subtree kind
    | variableDeclaration =>
        simp only [demands, type] at h
        rw [tree_variableDeclaration type, tree_variableDeclaration (type' _ type)]
        refine (h _ List.mem_cons_self).list kind fun js js' agrees => ?_
        exact (declarations_follows agrees).bind fun ds => .refl _
    | blockStatement =>
        simp only [demands, type] at h
        rw [tree_blockStatement type, tree_blockStatement (type' _ type)]
        refine (h _ List.mem_cons_self).list kind fun js js' agrees => ?_
        rw [agrees.isEmpty_eq]
        split
        · exact .refl _
        · exact (statements_follows agrees).bind fun ts => .refl _
    | identifier =>
        simp only [demands, type] at h
        rw [tree_identifier type, tree_identifier (type' _ type),
          name_eq kind (h _ List.mem_cons_self)]
        exact .refl _
    | conditionalExpression =>
        simp only [demands, type] at h
        have test := h ("test", .element .node) (by simp)
        have consequent := h ("consequent", .element .node) (by simp)
        have alternate := h ("alternate", .element .node) (by simp)
        rw [tree_conditionalExpression type, tree_conditionalExpression (type' _ type)]
        refine (test.subtree kind).bind fun t => (consequent.subtree kind).bind fun c => ?_
        exact (alternate.subtree kind).bind fun a => .refl _
    | functionExpression =>
        simp only [demands, type] at h
        have params := h ("params", .elements (.identifier true)) (by simp)
        have body := h ("body", .element .node) (by simp)
        rw [tree_functionExpression type, tree_functionExpression (type' _ type)]
        refine (parameter_follows kind params).bind fun param => ?_
        exact (body.subtree kind).bind fun t => .refl _

end Types

theorem declarator_follows (kind : e.kind = e'.kind)
    (h : ∀ p ∈ e.demands .declarator, e.AgreesIn bad e' p.1 p.2) {j j' : Json} (is : j.Is e)
    (is' : j'.Is e') : j.declarator.Follows bad j'.declarator := by
  have id := h ("id", .element (.identifier true)) (by simp [demands])
  have init := h ("init", .element .node) (by simp [demands])
  rw [Json.declarator_eq, Json.declarator_eq, ofJson_of_is is, ofJson_of_is is']
  simp only [Reading.check_ok, Reading.pure_bind]
  rcases id.identifier kind with
    ⟨err, none, none'⟩ | ⟨k, k', c, c', holds, is, holds', is', kinds, names⟩
  · rw [child_of_noChild none, child_of_noChild none']
    exact .refl _
  simp only [child_of_holds holds is, child_of_holds holds' is', Reading.check_ok,
    Reading.pure_bind, type?_eq_of_kind kinds]
  split
  · next identifier =>
    rw [names rfl (type?_eq_identifier_iff.mp identifier)]
    exact Reading.Follows.bind (.refl _) fun n => (init.subtree kind).bind fun t => .refl _
  · rw [kind]
    exact .refl _

theorem program_follows (kind : e.kind = e'.kind)
    (h : ∀ p ∈ e.demands .program, e.AgreesIn bad e' p.1 p.2) {doc doc' : Json} (is : doc.Is e)
    (is' : doc'.Is e') : doc.program.Follows bad doc'.program := by
  rw [Json.program, Json.program, ofJson_of_is is, ofJson_of_is is']
  simp only [Reading.check_ok, Reading.pure_bind, type?_eq_of_kind kind]
  split
  · next program =>
    have body := h ("body", .elements .node) (by simp [demands, program])
    refine body.list kind fun js js' agrees => ?_
    rw [agrees.isEmpty_eq]
    split
    · exact .refl _
    · exact statements_follows agrees
  · rw [kind]
    exact .refl _

/-- **Elements agree that agree in the fields that are asked for.** -/
theorem agrees (r : Role) (kind : e.kind = e'.kind)
    (h : ∀ p ∈ e.demands r, e.AgreesIn bad e' p.1 p.2) {j j' : Json} (is : j.Is e)
    (is' : j'.Is e') : r.Agrees bad j j' := by
  cases r with
  | program => exact program_follows kind h is is'
  | node =>
      show Reading.Follows bad _ _
      rw [Json.tree_of_is is, Json.tree_of_is is']
      exact tree_follows kind h
  | declarator => exact declarator_follows kind h is is'
  | identifier named =>
      refine .inr ⟨e, e', is, is', kind, fun asked identifier => ?_⟩
      have identifier := type?_eq_identifier_iff.mpr identifier
      exact name_eq kind (h ("name", .text) (by simp [demands, asked, identifier]))

end Element

/-- Values that are no elements agree if they are none for the same reason. -/
theorem Role.agrees_of_noElement (r : Role) {j j' : Json} {err : DocumentError}
    (h : j.NoElement err) (h' : j'.NoElement err) : r.Agrees bad j j' := by
  have none := Element.ofJson_of_noElement h
  have none' := Element.ofJson_of_noElement h'
  cases r with
  | program =>
      show Reading.Follows bad _ _
      rw [Json.program, Json.program, none, none']
      exact .refl _
  | node =>
      show Reading.Follows bad _ _
      rw [Json.tree_of_noElement h, Json.tree_of_noElement h']
      exact .refl _
  | declarator =>
      show Reading.Follows bad _ _
      rw [Json.declarator, Json.declarator, none, none']
      exact .refl _
  | identifier => exact .inl ⟨err, h, h'⟩

/-! ### Agreement is reflexive and transitive -/

/-- A value is an element, or there is a reason why it is none. -/
theorem Json.is_or_noElement (j : Json) : (∃ e, j.Is e) ∨ ∃ err, j.NoElement err := by
  have judged := Element.ofJson_judged j
  unfold Reading.check Reading.Judged at judged
  cases h : Element.ofJson j with
  | ok e =>
      rw [h] at judged
      exact .inl ⟨e.val, judged⟩
  | error err =>
      rw [h] at judged
      exact .inr ⟨err, judged⟩

theorem Role.Agrees.refl (r : Role) (j : Json) : r.Agrees bad j j := by
  cases r with
  | program | node | declarator => exact Reading.Follows.refl _
  | identifier =>
      rcases j.is_or_noElement with ⟨e, is⟩ | ⟨err, none⟩
      · exact .inr ⟨e, e, is, is, rfl, fun _ _ => rfl⟩
      · exact .inl ⟨err, none, none⟩

/-- What a value is as an element is settled. -/
theorem Json.Is.unique {j : Json} {e e' : Element} (h : j.Is e) (h' : j.Is e') : e = e' := by
  have same := (Element.ofJson_of_is h).symm.trans (Element.ofJson_of_is h')
  exact congrArg Subtype.val (Except.ok.inj same)

theorem Json.NoElement.unique {j : Json} {err err' : DocumentError} (h : j.NoElement err)
    (h' : j.NoElement err') : err = err' := by
  have same := (Element.ofJson_of_noElement h).symm.trans (Element.ofJson_of_noElement h')
  exact Except.error.inj same

theorem Json.Is.not_noElement {j : Json} {e : Element} {err : DocumentError} (h : j.Is e) :
    ¬ j.NoElement err := by
  intro none
  have same := (Element.ofJson_of_is h).symm.trans (Element.ofJson_of_noElement none)
  cases same

theorem Role.Agrees.trans {r : Role} {j k l : Json} (h : r.Agrees bad j k)
    (h' : r.Agrees bad k l) : r.Agrees bad j l := by
  cases r with
  | program | node | declarator => exact Reading.Follows.trans h h'
  | identifier =>
      rcases h with ⟨err, none, none'⟩ | ⟨e₁, e₂, is₁, is₂, kind, names⟩
      · rcases h' with ⟨err', mid, last⟩ | ⟨e₃, e₄, is₃, is₄, kind', names'⟩
        · obtain rfl := none'.unique mid
          exact .inl ⟨err, none, last⟩
        · exact absurd none' is₃.not_noElement
      · rcases h' with ⟨err', mid, last⟩ | ⟨e₃, e₄, is₃, is₄, kind', names'⟩
        · exact absurd mid is₂.not_noElement
        · obtain rfl := is₂.unique is₃
          refine .inr ⟨e₁, e₄, is₁, is₄, kind.trans kind', fun asked identifier => ?_⟩
          exact (names asked identifier).trans (names' asked (kind ▸ identifier))

theorem Demand.Agrees.refl (d : Demand) (j : Json) : d.Agrees bad j j := by
  cases d with
  | element r => exact Role.Agrees.refl r j
  | elements r =>
      by_cases isArray : ∃ js, j = .array js
      · obtain ⟨js, rfl⟩ := isArray
        exact .inr ⟨js, js, rfl, rfl, List.forall₂_same.mpr fun k _ => Role.Agrees.refl r k⟩
      · have other (js : List Json) : j ≠ .array js := fun h => isArray ⟨js, h⟩
        exact .inl ⟨other, other⟩
  | text => exact fun s => Iff.rfl
  | constant => rfl

theorem Demand.Agrees.trans {d : Demand} {j k l : Json} (h : d.Agrees bad j k)
    (h' : d.Agrees bad k l) : d.Agrees bad j l := by
  cases d with
  | element r => exact Role.Agrees.trans h h'
  | elements r =>
      rcases h with ⟨other, other'⟩ | ⟨js, ks, rfl, rfl, agrees⟩
      · rcases h' with ⟨-, other''⟩ | ⟨ks, ls, rfl, -, -⟩
        · exact .inl ⟨other, other''⟩
        · exact absurd rfl (other' ks)
      · rcases h' with ⟨other, -⟩ | ⟨ks', ls, same, rfl, agrees'⟩
        · exact absurd rfl (other ks)
        · cases same
          refine .inr ⟨js, ls, rfl, rfl, ?_⟩
          exact agrees.trans (fun _ _ _ => Role.Agrees.trans) agrees'
  | text => exact fun s => (h s).trans (h' s)
  | constant => exact Eq.trans h h'

/-- **What is alike agrees**, if it does so where values may stand for each other. -/
theorem Pair.Alike.agrees {R : Json → Json → Prop}
    (hR : ∀ j j', R j j' → Role.Agrees bad .node j j') {p : Pair} (h : Pair.Alike R p) :
    p.Agrees bad := by
  induction h with
  | same d j => exact Demand.Agrees.refl d j
  | trans _ _ ih ih' => exact Demand.Agrees.trans ih ih'
  | node related => exact hR _ _ related
  | element is is' kind _ ih => exact Element.agrees _ kind ih is is'
  | no_element none none' => exact Role.agrees_of_noElement _ none none'
  | no_text other other' =>
      exact fun s => ⟨fun h => absurd h (other s), fun h => absurd h (other' s)⟩
  | no_array other other' => exact .inl ⟨other, other'⟩
  | nil => exact .inr ⟨[], [], rfl, rfl, .nil⟩
  | cons _ _ head tail =>
      rcases tail with ⟨other, -⟩ | ⟨js, js', ⟨⟩, ⟨⟩, rest⟩
      · exact absurd rfl (other _)
      · exact .inr ⟨_, _, rfl, rfl, .cons head rest⟩
  | no_fields => nofun
  | lacks lacks lacks' _ ih => exact List.forall_mem_cons.mpr ⟨.inl ⟨lacks, lacks'⟩, ih⟩
  | holds holds holds' _ _ value ih =>
      exact List.forall_mem_cons.mpr ⟨.inr ⟨_, _, holds, holds', value⟩, ih⟩

/-! ### Changes that nothing depends on

Three kinds of changes leave documents alike: in fields that are not asked for, between `null` and
absence, and statements around a value. -/

/-- A statement that is nothing more than the value in it. -/
inductive Json.Wraps : Json → Json → Prop where
  | expression {w j : Json} {e : Element} : w.Is e → e.kind = "ExpressionStatement" →
      e.Holds "expression" j → Wraps w j
  | argument {w j : Json} {e : Element} : w.Is e → e.kind = "ReturnStatement" →
      e.Holds "argument" j → Wraps w j

/-- A statement is put around the value, or taken away. -/
def Json.Rewraps (j j' : Json) : Prop := j.Wraps j' ∨ j'.Wraps j

theorem Json.Wraps.tree_eq {w j : Json} (h : w.Wraps j) : w.tree = j.tree := by
  cases h with
  | expression is kind holds =>
      have type := Element.type?_of_kind (k := .expressionStatement) kind rfl
      rw [Json.tree_of_is is, Element.tree_expressionStatement type,
        Element.subtree_of_holds holds]
  | argument is kind holds =>
      have type := Element.type?_of_kind (k := .returnStatement) kind rfl
      rw [Json.tree_of_is is, Element.tree_returnStatement type, Element.subtree_of_holds holds]

theorem Json.Rewraps.tree_eq {j j' : Json} (h : j.Rewraps j') : j.tree = j'.tree := by
  rcases h with h | h
  · exact h.tree_eq
  · exact h.tree_eq.symm

section

variable {R : Json → Json → Prop}

/-- Field by field: both elements hold the same or nothing, or what they hold is alike. -/
theorem Pair.Alike.fields_of {e e' : Element} {ds : List (String × Demand)}
    (h : ∀ p ∈ ds, (∀ k, e.Holds p.1 k ↔ e'.Holds p.1 k) ∨
      ∃ k k', e.Holds p.1 k ∧ e'.Holds p.1 k' ∧ Pair.Alike R (.values p.2 k k')) :
    Pair.Alike R (.fields ds e e') := by
  induction ds with
  | nil => exact .no_fields
  | cons p ds ih =>
      obtain ⟨key, d⟩ := p
      obtain ⟨head, tail⟩ := List.forall_mem_cons.mp h
      rcases head with same | ⟨k, k', holds, holds', alike⟩
      · -- holding the same may also mean that neither holds anything
        by_cases held : ∃ k, e.Holds key k
        · obtain ⟨k, holds⟩ := held
          exact .holds holds ((same k).mp holds) (.same d k) (ih tail)
        · have lacks : e.Lacks key := fun k hk => held ⟨k, hk⟩
          have lacks' : e'.Lacks key := fun k hk => held ⟨k, (same k).mpr hk⟩
          exact .lacks lacks lacks' (ih tail)
      · exact .holds holds holds' alike (ih tail)

/-- Elements of one type are alike that hold the same where something is asked for. -/
theorem Pair.Alike.of_holds {r : Role} {j j' : Json} {e e' : Element} (is : j.Is e) (is' : j'.Is e')
    (kind : e.kind = e'.kind) (h : ∀ p ∈ e.demands r, ∀ k, e.Holds p.1 k ↔ e'.Holds p.1 k) :
    Pair.Alike R (.values (.element r) j j') :=
  .element is is' kind (.fields_of fun p hp => .inl (h p hp))

/-- Objects with the same type, if any, are alike that are alike field by field. -/
theorem Pair.Alike.of_fields {r : Role} {fields fields' : List (String × Json)}
    (type : fields.lookup "type" = fields'.lookup "type")
    (h : ∀ kind, ∀ p ∈ Element.demands ⟨kind, fields⟩ r,
      (∀ k, Element.Holds ⟨kind, fields⟩ p.1 k ↔ Element.Holds ⟨kind, fields'⟩ p.1 k) ∨
        ∃ k k', Element.Holds ⟨kind, fields⟩ p.1 k ∧ Element.Holds ⟨kind, fields'⟩ p.1 k' ∧
          Pair.Alike R (.values p.2 k k')) :
    Pair.Alike R (.values (.element r) (.object fields) (.object fields')) := by
  -- With the same type both are elements of it, or neither is one and for the same reason.
  rcases (Json.object fields).is_or_noElement with ⟨e, same, is⟩ | ⟨err, none⟩
  · cases same
    have is' : (Json.object fields').Is ⟨e.kind, fields'⟩ := ⟨rfl, type ▸ is⟩
    exact .element ⟨rfl, is⟩ is' rfl (.fields_of (h e.kind))
  · have none' : (Json.object fields').NoElement err := by
      cases none with
      | no_object other => exact absurd rfl (other fields)
      | no_type absent => exact .no_type (type ▸ absent)
      | type_shape found shape => exact .type_shape (type ▸ found) shape
    exact .no_element none none'

/-- But for the type of an element it is all one whether a field is `null` or absent. -/
theorem Pair.Alike.of_nulls (r : Role) {fields fields' : List (String × Json)}
    (type : fields.lookup "type" = fields'.lookup "type")
    (h : ∀ key k, key ≠ "type" → k ≠ .null →
      (fields.lookup key = some k ↔ fields'.lookup key = some k)) :
    Pair.Alike R (.values (.element r) (.object fields) (.object fields')) := by
  refine .of_fields type fun kind p _ => .inl fun k => ?_
  -- The key `type` is not exempt: a `null` there is an error of its own.
  by_cases key : p.1 = "type"
  · unfold Element.Holds
    rw [key, type]
  · exact and_congr_left fun filled => h p.1 k key filled

end

/-- **Only what is asked for counts.** Documents that are alike in what is asked for become the same
program, or are refused with the same error, and leave the same interner behind. They are alike
wherever elements of a type hold the same in the fields that are asked for, so all other fields may
differ; where a field is `null` in the one and absent in the other, but for the type; and where a
statement stands around a part that describes a tree, or several do. -/
theorem Program.ofJson_only_asks :
    (∀ doc doc' t, Pair.Alike Json.Rewraps (.values (.element .program) doc doc') →
      Program.ofJson doc t = Program.ofJson doc' t) ∧
      (∀ r j j' e e', j.Is e → j'.Is e' → e.kind = e'.kind →
        (∀ p ∈ e.demands r, ∀ k, e.Holds p.1 k ↔ e'.Holds p.1 k) →
        Pair.Alike Json.Rewraps (.values (.element r) j j')) ∧
      (∀ r fields fields', fields.lookup "type" = fields'.lookup "type" →
        (∀ key k, key ≠ "type" → k ≠ Json.null →
          (fields.lookup key = some k ↔ fields'.lookup key = some k)) →
        Pair.Alike Json.Rewraps (.values (.element r) (.object fields) (.object fields'))) ∧
      ∀ j w, w.Wraps j → Pair.Alike Json.Rewraps (.values (.element .node) j w) := by
  refine ⟨?_, fun r j j' e e' => .of_holds, fun r fields fields' => .of_nulls r,
    fun j w wraps => .node (.inr wraps)⟩
  intro doc doc' t alike
  -- No error is bad here, so the two readings are the same.
  have agrees : doc.program.Follows (fun _ => False) doc'.program :=
    alike.agrees fun j j' rewraps => .inl rewraps.tree_eq
  unfold Program.ofJson
  rw [agrees.eq]

/-- An operation that is none, with these operands. -/
def Json.power (operands : List (String × Json)) : Json :=
  .object (("type", .string "BinaryExpression") :: ("operator", .string "**") :: operands)

def Json.returned (j : Json) : Json :=
  .object [("type", .string "ReturnStatement"), ("loc", .null), ("argument", j)]

def Json.only (j : Json) : Json := .object [("type", .string "Program"), ("body", .array [j])]

/-- What the operands of `2 ** x` are does not matter, nor does a `return` before it. -/
theorem Program.ofJson_only_asks_for_operator :
    Program.ofJson (Json.only (Json.power
        [("left", .object [("type", .string "Literal"), ("value", .number (.integer 2))]),
          ("right", .object [("type", .string "Identifier"), ("name", .string "x")])]))
        Interner.initial =
      Program.ofJson (Json.only (Json.returned (Json.power [("left", .null)])))
        Interner.initial := by
  have power (xs : List (String × Json)) : (Json.power xs).Is ⟨"BinaryExpression", _⟩ :=
    ⟨rfl, rfl⟩
  have program (j : Json) : (Json.only j).Is ⟨"Program", _⟩ := ⟨rfl, rfl⟩
  have operands (xs ys : List (String × Json)) :
      Pair.Alike Json.Rewraps (.values (.element .node) (Json.power xs) (Json.power ys)) := by
    refine .of_holds (power xs) (power ys) rfl ?_
    show ∀ p ∈ [("operator", Demand.text)], _
    exact List.forall_mem_singleton.mpr fun k => Iff.rfl
  have wraps : (Json.returned (Json.power [("left", .null)])).Wraps
      (Json.power [("left", .null)]) :=
    .argument (e := ⟨"ReturnStatement", _⟩) ⟨rfl, rfl⟩ rfl ⟨rfl, nofun⟩
  refine Program.ofJson_only_asks.1 _ _ _ (.element (program _) (program _) rfl ?_)
  show Pair.Alike _ (.fields [("body", .elements .node)] _ _)
  refine .holds ⟨rfl, nofun⟩ ⟨rfl, nofun⟩ (.cons ?_ .nil) .no_fields
  exact .trans (operands _ [("left", .null)]) (.node (.inr wraps))

end LexCell
