import LexCell.Proofs.Relevance.InPlace

/-!
# Integers as literals

A literal gives its integer as a `value` or as `raw` source text, and the ways from there to a word
are two: the number that the reader of JSON text has, and the digits of the source text. They lead
to the same word, but for a negative zero, and refuse the same integers
(`Program.ofText_integerLiteral`).
-/

namespace LexCell

/-! ### Two spellings

The texts are put together from the digits as they stand, so what is shown of them is about texts
and not about documents that were read before. -/

namespace Json

def literalText (key value : String) : String :=
  "\x7b\"type\":\"Literal\",\"" ++ key ++ "\":" ++ value ++ "\x7d"

/-- The literal with an integer as its value. -/
def valueSpelling (token : String) : String := literalText "value" token

/-- The literal with an integer as its source text. -/
def rawSpelling (token : String) : String := literalText "raw" ("\"" ++ token ++ "\"")

def literalElement (key : String) (j : Json) : Element :=
  ⟨"Literal", fieldsOf [("type", .string "Literal"), (key, j)]⟩

def literalOf (key : String) (j : Json) : Json := .object (literalElement key j).fields

/-- A literal has its type and the one field. -/
theorem lookup_literalElement (key : String) (j : Json) (k : String) :
    (literalElement key j).fields.lookup k =
      if k = key then some j else if k = "type" then some (.string "Literal") else none := by
  rw [literalElement, lookup_fieldsOf]
  simp only [List.reverse_cons, List.reverse_nil, List.nil_append, List.singleton_append,
    List.lookup_cons, List.lookup_nil]
  grind

/-- The object is the element, unless the field were the type. -/
theorem literalOf_is {key : String} (hkey : key ≠ "type") (j : Json) :
    (literalOf key j).Is (literalElement key j) := by
  refine ⟨rfl, ?_⟩
  rw [lookup_literalElement, if_neg hkey.symm, if_pos rfl]
  rfl

/-- There is no other field. -/
theorem literalElement_lacks {key k : String} (hkey : k ≠ key) (hk : k ≠ "type") (j : Json) :
    (literalElement key j).Lacks k := by
  rintro i ⟨found, -⟩
  rw [lookup_literalElement, if_neg hkey, if_neg hk] at found
  cases found

theorem literalElement_holds {key : String} {j : Json} (filled : j ≠ .null) :
    (literalElement key j).Holds key j := by
  refine ⟨?_, filled⟩
  rw [lookup_literalElement, if_pos rfl]

/-- The literal with a value is one of those that may stand in a place. -/
theorem isLiteral_value (j : Json) : (literalOf "value" j).IsLiteral :=
  ⟨_, literalOf_is (by decide) j, rfl, literalElement_lacks (by decide) (by decide) j,
    literalElement_lacks (by decide) (by decide) j⟩

/-- So is the one with a source text. -/
theorem isLiteral_raw (j : Json) : (literalOf "raw" j).IsLiteral :=
  ⟨_, literalOf_is (by decide) j, rfl, literalElement_lacks (by decide) (by decide) j,
    literalElement_lacks (by decide) (by decide) j⟩

/-- A value is the literal that it is, or is refused. -/
theorem tree_value (m : Number) :
    (literalOf "value" (.number m)).tree = Reading.check (literalOfJson (.number m)) := by
  have holds : (literalElement "value" (.number m)).Holds "value" (.number m) :=
    literalElement_holds nofun
  rw [Json.tree_of_is (literalOf_is (by decide) _),
    Element.tree_literal (Element.type?_of_kind rfl rfl)]
  simp [Element.literal, Element.field?_of_holds holds]

/-- A source text is the literal that it writes, or is refused. -/
theorem tree_raw (raw : String) :
    (literalOf "raw" (.string raw)).tree = Reading.check (literalOfText raw) := by
  have lacks : (literalElement "raw" (.string raw)).Lacks "value" :=
    literalElement_lacks (by decide) (by decide) _
  have holds : (literalElement "raw" (.string raw)).Holds "raw" (.string raw) :=
    literalElement_holds nofun
  rw [Json.tree_of_is (literalOf_is (by decide) _),
    Element.tree_literal (Element.type?_of_kind rfl rfl)]
  simp [Element.literal, Element.field?_of_lacks lacks, Element.text_of_holds holds]

/-- The text of a literal is read as the literal, if that of its field is read as the field. -/
theorem shows_literalText {key text : String} {j : Option Json}
    (hkey : IsPlainText key.toList)
    (h : ∀ depth rest, takes (value depth) (text.toList ++ '\x7d' :: rest) =
      j.map fun j => (j, '\x7d' :: rest)) :
    Shows (literalText key text) (j.map (literalOf key)) := by
  -- The text as the reader goes through it: a field with a plain string, a comma, and the field in
  -- question.
  have whole (rest : List Char) : (literalText key text).toList ++ rest =
      '\x7b' :: (('"' :: ("type".toList ++ '"' :: ':' :: '"' :: ("Literal".toList ++ ['"'])) ++
        ',' :: []) ++ '"' :: (key.toList ++ '"' :: ':' :: (text.toList ++ '\x7d' :: rest))) := by
    unfold literalText
    rw [String.toList_append, String.toList_append, String.toList_append, String.toList_append]
    simp only [List.append_assoc]
    rfl
  refine ⟨⟨_, (List.append_nil _).symm.trans (whole [])⟩, fun depth rest => ?_⟩
  rw [whole, takes_value_fields (.stringField _ _ (by decide) (by decide) .nil) hkey (h depth rest)]
  simp only [String.ofList_toList]
  cases j <;> rfl

/-- An integer as source text, wherever it stands. -/
theorem IsInteger.shows_rawSpelling {token : String} {n : Int} (h : IsInteger token.toList n) :
    Shows (rawSpelling token) (some (literalOf "raw" (.string token))) := by
  refine shows_literalText (j := some (.string token)) (by decide) fun depth rest => ?_
  have string := takes_value_string h.isPlainText depth ('\x7d' :: rest)
  rw [String.ofList_toList] at string
  rw [String.toList_append, String.toList_append, List.append_assoc, List.append_assoc]
  exact string

/-- An integer as a value, wherever it stands; the reader has the same number for it as for the
integer alone. -/
theorem IsInteger.shows_valueSpelling {token : String} {n : Int} (h : IsInteger token.toList n) :
    ∃ m? : Option Number, parse? token = m?.map .number ∧
      Shows (valueSpelling token) (m?.map fun m => literalOf "value" (.number m)) ∧
      (∀ m, m? = some m → m = .integer n ∧ token ≠ "-0" ∨ ∃ x, m = .double x) ∧
      (token ≠ "-0" → -2 ^ 63 ≤ n → n < 2 ^ 64 → m? = some (.integer n)) := by
  obtain ⟨m?, reads, numbers, fits⟩ := h.takes_value
  have zero : token = "-0" ↔ token.toList = ['-', '0'] := String.toList_inj.symm
  refine ⟨m?, ?_, ?_, fun m hm => ?_, fun other => fits (mt zero.mpr other)⟩
  · have whole := reads maxDepth [] nofun
    rw [List.append_nil] at whole
    rw [parse?_eq, whole]
    cases m? <;> rfl
  · have shown : Shows (valueSpelling token) ((m?.map .number).map (literalOf "value")) := by
      refine shows_literalText (by decide) fun depth rest => ?_
      rw [reads depth]
      · cases m? <;> rfl
      · -- what follows the number does not go on with it
        rintro c t same
        cases same
        decide
    rw [Option.map_map] at shown
    exact shown
  · exact (numbers m hm).imp_left (And.imp_right (mt zero.mp))

end Json

/-! ### What the spellings are read as

An integer that fits a word is that word in both spellings. One that does not is refused in both,
each with its own words: the source text as it stands, the value as the number is written. -/

namespace Json

variable {token : String} {n : Int}

/-- As source text the integer denotes the word. -/
theorem IsInteger.denotes_raw (h : IsInteger token.toList n) {w : Int64} (hw : w.toInt = n) :
    Denotes (.value (literalOf "raw" (.string token)) (.number w)) := by
  subst hw
  refine .value (literalOf_is (by decide) _) (.raw_literal rfl ?_ (literalElement_holds nofun)
    (.decimal h.writes))
  exact literalElement_lacks (by decide) (by decide) _

/-- As a value the integer denotes the word. -/
theorem denotes_value (w : Int64) :
    Denotes (.value (literalOf "value" (.number (.integer w.toInt))) (.number w)) := by
  refine .value (literalOf_is (by decide) _) (.literal rfl ?_ (.integer w))
  exact literalElement_holds (by simp)

/-- The source text of an integer that fits a word is read as the word. -/
theorem IsInteger.tree_raw_of_fits (h : IsInteger token.toList n) {w : Int64}
    (hw : w.toInt = n) : (literalOf "raw" (.string token)).tree = pure (.number w) := by
  subst hw
  rw [tree_raw, literalOfText_eq_ok_iff.mpr (.decimal h.writes)]
  rfl

/-- A value that is a word is read as the word. -/
theorem tree_value_of_fits (w : Int64) :
    (literalOf "value" (.number (.integer w.toInt))).tree = pure (.number w) := by
  rw [tree_value, literalOfJson_eq_ok_iff.mpr (.integer w)]
  rfl

/-- An integer that fits no word is no literal. -/
theorem IsInteger.tree_raw_of_large (h : IsInteger token.toList n)
    (large : ∀ w : Int64, w.toInt ≠ n) :
    (literalOf "raw" (.string token)).tree = Reading.fail (.invalidLiteral token) := by
  rw [tree_raw, literalOfText_of_not_spelling]
  · rfl
  · intro t spelling
    cases spelling with
    -- The words for truth values have no digits.
    | true => cases signed?_eq_some_iff.mpr h.writes
    | false => cases signed?_eq_some_iff.mpr h.writes
    | decimal writes => exact large _ (writes.unique h.writes)

/-- An integer that fits no word, or a double. -/
theorem tree_value_of_large {m : Number}
    (h : m = .integer n ∧ (∀ w : Int64, w.toInt ≠ n) ∨ ∃ x, m = .double x) :
    (literalOf "value" (.number m)).tree =
      Reading.fail (.invalidLiteral (Json.number m).compact) := by
  rw [tree_value, literalOfJson_of_not_spells]
  · rfl
  · intro t spells
    rcases h with ⟨rfl, large⟩ | ⟨x, rfl⟩
    · cases spells with
      | integer w => exact large w rfl
    · cases spells

end Json

/-! ### What programs with them are read as

From the literal to the program: what a document becomes depends on what is read in each place, so
literals that are read alike may stand for each other. -/

namespace Program

/-- A text counts only by the document that it is. -/
theorem ofText_of_parse?_eq {detail source source' : String}
    (h : Json.parse? source = Json.parse? source') (t : Interner) :
    ofText detail source t = ofText detail source' t := by
  rw [ofText, ofText, h]

/-- Texts with literals in the same place become the same program, unless the first is refused with
a bad error. -/
theorem ofText_follows (detail : String) {bad : DocumentError → Prop} {source source' : String}
    {around : Option Json.Outside} (avoids : ∀ o, around = some o → o.AvoidsValue) {j j' : Json}
    (h : Json.parse? source = around.map fun o => o.fill j)
    (h' : Json.parse? source' = around.map fun o => o.fill j') (lit : j.IsLiteral)
    (lit' : j'.IsLiteral) (follows : j.tree.Follows bad j'.tree) (t : Interner) :
    ofText detail source t = ofText detail source' t ∨
      ∃ err, (ofText detail source t).1 = .error (.invalidDocument err) ∧ bad err := by
  -- If the text around the place is not JSON then it is not with any literal.
  cases around with
  | none => exact .inl (ofText_of_parse?_eq (h.trans h'.symm) t)
  | some o =>
      rw [ofText, ofText, h, h']
      simp only [Option.map_some, ofJson]
      rcases Json.Outside.program_follows lit lit' o (avoids o rfl) follows with
        same | ⟨err, refused, isBad⟩
      · exact .inl (by rw [same])
      · exact .inr ⟨err, by rw [refused], isBad⟩

def onlyText (statement : String) : String :=
  "\x7b\"type\":\"Program\",\"body\":[" ++ statement ++ "]\x7d"

def onlyOf (j : Json) : Json :=
  .object (Json.fieldsOf [("type", .string "Program"), ("body", .array [j])])

/-- The text of a program of one statement is read as the document, if the statement is. -/
theorem parse?_onlyText {statement : String} {j : Option Json} {s : List Char}
    (hs : statement.toList = '\x7b' :: s)
    (reads : ∀ rest, Json.takes (Json.value 125) (statement.toList ++ rest) =
      j.map fun j => (j, rest)) :
    Json.parse? (onlyText statement) = j.map onlyOf := by
  have body : Json.takes (Json.value 126) ('[' :: (statement.toList ++ [']']) ++ ['\x7d']) =
      (j.map fun j => Json.array [j]).map fun body => (body, ['\x7d']) := by
    -- A statement does not start like the end of a list.
    have begins : Json.Begins (· ≠ ']') (statement.toList ++ (']' :: ['\x7d'])) := by
      rw [hs]
      exact ⟨_, _, rfl, by decide⟩
    rw [List.cons_append, List.append_assoc, Json.takes_value_array, List.singleton_append,
      Json.takes_bracketed _ _ begins, Json.takes_items_nil, reads]
    cases j <;> rfl
  have whole : (onlyText statement).toList =
      '\x7b' :: (('"' :: ("type".toList ++ '"' :: ':' :: '"' :: ("Program".toList ++ ['"'])) ++
        ',' :: []) ++ '"' :: ("body".toList ++ '"' :: ':' ::
          ('[' :: (statement.toList ++ [']']) ++ ['\x7d']))) := by
    unfold onlyText
    rw [String.toList_append, String.toList_append]
    simp only [List.append_assoc, List.cons_append]
    rfl
  rw [Json.parse?_eq, whole, Json.maxDepth,
    Json.takes_value_fields (.stringField _ _ (by decide) (by decide) .nil) (by decide) body]
  simp only [String.ofList_toList]
  cases j <;> rfl

/-- Such a document is the program of what its statement is read as. -/
theorem program_onlyOf (j : Json) : (onlyOf j).program = do return [← j.tree] := by
  have is : (onlyOf j).Is ⟨"Program", Json.fieldsOf [("type", .string "Program"),
      ("body", .array [j])]⟩ := ⟨rfl, (Json.lookup_fieldsOf _ _).trans rfl⟩
  have holds : Element.Holds ⟨"Program", Json.fieldsOf [("type", .string "Program"),
      ("body", .array [j])]⟩ "body" (.array [j]) := ⟨(Json.lookup_fieldsOf _ _).trans rfl, nofun⟩
  rw [Json.program, Element.ofJson_of_is is, Reading.check_ok, Reading.pure_bind]
  rw [if_pos (Element.type?_of_kind rfl rfl), Element.items_of_holds holds, Reading.check_ok,
    Reading.pure_bind, if_neg (by simp), statements_cons, statements]
  rfl

theorem parse?_onlyText_of_shows {statement : String} {j : Option Json}
    (h : Json.Shows statement j) : Json.parse? (onlyText statement) = j.map onlyOf := by
  obtain ⟨⟨s, hs⟩, reads⟩ := h
  exact parse?_onlyText hs (reads 124)

/-- The program of a literal that is read. -/
theorem ofText_onlyText_of_tree {detail statement : String} {j : Json}
    (h : Json.Shows statement (some j)) {x : Tree String} (tree : j.tree = pure x) (t : Interner) :
    ofText detail (onlyText statement) t = (.ok (ofTrees [x] t).1, (ofTrees [x] t).2) := by
  rw [ofText, parse?_onlyText_of_shows h]
  simp only [Option.map_some, ofJson, program_onlyOf, tree]
  rfl

/-- The program of a literal that is refused. -/
theorem ofText_onlyText_of_fail {detail statement : String} {j : Json}
    (h : Json.Shows statement (some j)) {err : DocumentError} (tree : j.tree = Reading.fail err)
    (t : Interner) :
    ofText detail (onlyText statement) t = (.error (.invalidDocument err), t) := by
  rw [ofText, parse?_onlyText_of_shows h]
  simp only [Option.map_some, ofJson, program_onlyOf, tree]
  rfl

/-! ### Two operations

Two places for a literal: one that is looked at and one that is not. -/

def minusText : String :=
  "\x7b\"type\":\"Program\",\"body\":[" ++
    "\x7b\"type\":\"UnaryExpression\",\"operator\":\"-\",\"argument\":"

/-- The operand of the minus sign is a place for a value. -/
theorem place_minusText : Json.Place Json.maxDepth minusText.toList 124 := by
  have operation : Json.Place 125 _ 124 :=
    .field "argument".toList (by decide) (by decide)
      (.stringField "type".toList "UnaryExpression".toList (by decide) (by decide)
        (.stringField "operator".toList "-".toList (by decide) (by decide) .nil))
      (.here Json.noBlanks)
  have statement : Json.Place Json.maxDepth _ 124 :=
    .field "body".toList (by decide) (by decide)
      (.stringField "type".toList "Program".toList (by decide) (by decide) .nil)
      operation.firstItem
  exact statement

/-- An operation that is none. -/
def complementText (operand : String) : String :=
  "\x7b\"type\":\"UnaryExpression\",\"operator\":\"~\",\"argument\":" ++ operand ++ "\x7d"

def complementFields (operand : Json) : List (String × Json) :=
  Json.fieldsOf [("type", .string "UnaryExpression"), ("operator", .string "~"),
    ("argument", operand)]

/-- The text with an operand is the document with the operand. -/
theorem parse?_complement {operand : String} {j : Json} (h : Json.Shows operand (some j)) :
    Json.parse? (onlyText (complementText operand)) =
      some (onlyOf (.object (complementFields j))) := by
  have whole (rest : List Char) : (complementText operand).toList ++ rest =
      '\x7b' :: (('"' :: ("type".toList ++ '"' :: ':' :: '"' ::
        ("UnaryExpression".toList ++ ['"'])) ++ ',' :: ('"' :: ("operator".toList ++
        '"' :: ':' :: '"' :: ("~".toList ++ ['"'])) ++ ',' :: [])) ++
        '"' :: ("argument".toList ++ '"' :: ':' :: (operand.toList ++ '\x7d' :: rest))) := by
    unfold complementText
    rw [String.toList_append, String.toList_append]
    simp only [List.append_assoc]
    rfl
  refine parse?_onlyText (j := some _) ((List.append_nil _).symm.trans (whole [])) fun rest => ?_
  rw [whole, Json.takes_value_fields (j := some j) (.stringField _ _ (by decide) (by decide)
    (.stringField _ _ (by decide) (by decide) .nil)) (by decide) (h.2 123 _)]
  rfl

/-- The operand of an operator that is none does not count. -/
theorem tree_complement (j : Json) :
    (Json.object (complementFields j)).tree = malformed "~" := by
  have is : (Json.object (complementFields j)).Is ⟨"UnaryExpression", complementFields j⟩ :=
    ⟨rfl, (Json.lookup_fieldsOf _ _).trans rfl⟩
  have operator : Element.Holds ⟨"UnaryExpression", complementFields j⟩ "operator" (.string "~") :=
    ⟨(Json.lookup_fieldsOf _ _).trans rfl, nofun⟩
  rw [Json.tree_of_is is, Element.tree_unaryExpression (Element.type?_of_kind rfl rfl)]
  simp only [Element.text_of_holds operator, Reading.check_ok, Reading.pure_bind]
  rfl

/-! ### The spellings agree

What is claimed of a place is said in two ways, in the place itself and in a program of the literal
alone. The first may not show the literal, if it stands where the grammar does not look. -/

/-- The literal is the number `w`: so it stands in the document that is read with it in its place,
and so a program of the literal alone comes out. -/
structure GivesNumber (detail : String) (around : Option Json.Outside)
    (before after literal : String) (w : Int64) (t : Interner) : Prop where
  in_place : ∃ j, Json.parse? (before ++ literal ++ after) = around.map (fun o => o.fill j) ∧
    Denotes (.value j (.number w))
  alone : ofText detail (onlyText literal) t =
    (.ok (ofTrees [.number w] t).1, (ofTrees [.number w] t).2)

/-- What becomes of the program does not depend on the integer in this place, nor on its
spelling. -/
def IgnoresInteger (detail before after : String) (t : Interner) : Prop :=
  ∃ result, ∀ token n, Json.IsInteger token.toList n →
    ofText detail (before ++ Json.rawSpelling token ++ after) t = result ∧
      ∀ m, Json.parse? token = some m →
        ofText detail (before ++ Json.valueSpelling token ++ after) t = result

/-- The literal is refused with an error, alone and in its place, as far as that is looked at. -/
structure Refuses (detail before after literal : String) (err : SourceError) (t : Interner) :
    Prop where
  in_place : (ofText detail (before ++ literal ++ after) t).1 = .error err ∨
    IgnoresInteger detail before after t
  alone : (ofText detail (onlyText literal) t).1 = .error err

section

variable {detail before after : String} {around : Option Json.Outside}

/-- A literal that is read as a word gives that number in any place. -/
theorem givesNumber_of_shows
    (reads : ∀ text j, Json.Shows text j →
      Json.parse? (before ++ text ++ after) = j.bind fun j => around.map fun o => o.fill j)
    {literal : String} {j : Json} (shown : Json.Shows literal (some j)) {w : Int64}
    (denotes : Denotes (.value j (.number w))) (tree : j.tree = pure (.number w)) (t : Interner) :
    GivesNumber detail around before after literal w t :=
  ⟨⟨j, reads literal _ shown, denotes⟩, ofText_onlyText_of_tree shown tree t⟩

/-- A literal that is refused is refused in any place that is looked at. -/
theorem refuses_of_shows (avoids : ∀ o, around = some o → o.AvoidsValue)
    (reads : ∀ text j, Json.Shows text j →
      Json.parse? (before ++ text ++ after) = j.bind fun j => around.map fun o => o.fill j)
    {literal : String} {j : Json} (shown : Json.Shows literal (some j)) (lit : j.IsLiteral)
    {err : DocumentError} (tree : j.tree = Reading.fail err) (t : Interner) :
    Refuses detail before after literal (.invalidDocument err) t := by
  refine ⟨?_, by rw [ofText_onlyText_of_fail shown tree]⟩
  by_cases refused : (ofText detail (before ++ literal ++ after) t).1 = .error (.invalidDocument err)
  · exact .inl refused
  -- What stands there is not what the program is refused for, so nothing that stands there counts.
  have same {literal' : String} {j' : Json} (shown' : Json.Shows literal' (some j'))
      (lit' : j'.IsLiteral) :
      ofText detail (before ++ literal' ++ after) t = ofText detail (before ++ literal ++ after) t := by
    have follows : j.tree.Follows (· = err) j'.tree := .inr ⟨err, by rw [tree]; rfl, rfl⟩
    rcases ofText_follows detail avoids (reads _ _ shown) (reads _ _ shown') lit lit' follows t with
      same | ⟨err', stops, rfl⟩
    · exact same.symm
    · exact absurd stops refused
  refine .inr ⟨_, fun token n integer =>
    ⟨same integer.shows_rawSpelling (Json.isLiteral_raw _), fun m read => ?_⟩⟩
  obtain ⟨m?, parsed, shown', -⟩ := integer.shows_valueSpelling
  obtain ⟨m', rfl, -⟩ := Option.map_eq_some_iff.mp (parsed.symm.trans read)
  exact same shown' (Json.isLiteral_value _)

end

open Json in
/-- **Integers as literals.** In whatever place of a program an integer stands as a literal, its two
spellings agree. An integer that a word holds is this number, as source text and as a value, and the
programs are the same; but a negative zero as a value is no integer to the reader of the text. An
integer beyond is refused as source text, and also as a value if the reader has a number for it, as
it has for every unsigned word. For one that is too large for a double it has none, and no text with
it as a value is JSON. What the reader has to say of such a text is the same `detail` throughout, so
results are equal up to its words. -/
theorem ofText_integerLiteral (detail : String) {before : String} {inner : Nat}
    (place : Place maxDepth before.toList inner) (after : String) :
    ∃ around : Option Outside, ∀ (token : String) (n : Int) (t : Interner),
      IsInteger token.toList n →
      (-2 ^ 63 ≤ n ∧ n ≤ 2 ^ 63 - 1 → ∃ w : Int64, w.toInt = n ∧
        GivesNumber detail around before after (rawSpelling token) w t ∧
        (token ≠ "-0" → GivesNumber detail around before after (valueSpelling token) w t ∧
          ofText detail (before ++ valueSpelling token ++ after) t =
            ofText detail (before ++ rawSpelling token ++ after) t)) ∧
      (¬ (-2 ^ 63 ≤ n ∧ n ≤ 2 ^ 63 - 1) →
        Refuses detail before after (rawSpelling token)
          (.invalidDocument (.invalidLiteral token)) t ∧
        (∀ m, parse? token = some m → Refuses detail before after (valueSpelling token)
          (.invalidDocument (.invalidLiteral m.compact)) t) ∧
        (2 ^ 63 ≤ n ∧ n < 2 ^ 64 → parse? token = some (.number (.integer n))) ∧
        (parse? token = none →
          ofText detail (before ++ valueSpelling token ++ after) t =
              (.error (.invalidJson detail), t) ∧
            ofText detail (onlyText (valueSpelling token)) t =
              (.error (.invalidJson detail), t))) := by
  obtain ⟨around, avoids, reads⟩ := place.exists_parse? after
  refine ⟨around, fun token n t integer => ?_⟩
  obtain ⟨m?, parsed, shown, numbers, fits⟩ := integer.shows_valueSpelling
  -- No word has a value outside of the bounds.
  have words (outside : ¬ (-2 ^ 63 ≤ n ∧ n ≤ 2 ^ 63 - 1)) (w : Int64) : w.toInt ≠ n := by
    have := w.le_toInt
    have := w.toInt_lt
    omega
  refine ⟨fun inside => ⟨Int64.ofInt n, ?_⟩, fun outside => ?_⟩
  · have hw : (Int64.ofInt n).toInt = n :=
      Int64.toInt_ofInt_of_le inside.1 (Int.lt_of_le_sub_one inside.2)
    -- Only its value is needed of the word.
    generalize Int64.ofInt n = w at hw
    refine ⟨hw, givesNumber_of_shows reads integer.shows_rawSpelling (integer.denotes_raw hw)
      (integer.tree_raw_of_fits hw) t, fun notZero => ?_⟩
    obtain rfl := fits notZero inside.1 (by omega)
    subst hw
    refine ⟨givesNumber_of_shows reads shown (denotes_value w) (tree_value_of_fits w) t, ?_⟩
    have trees : (literalOf "value" (.number (.integer w.toInt))).tree.Follows (fun _ => False)
        (literalOf "raw" (.string token)).tree :=
      .inl ((tree_value_of_fits w).trans (integer.tree_raw_of_fits rfl).symm)
    have follows := ofText_follows detail avoids (reads _ _ shown)
      (reads _ _ integer.shows_rawSpelling) (isLiteral_value _) (isLiteral_raw _) trees t
    exact follows.resolve_right fun ⟨_, _, isBad⟩ => isBad
  · have large := words outside
    refine ⟨?_, fun m read => ?_, fun unsigned => ?_, fun none => ?_⟩
    · exact refuses_of_shows avoids reads integer.shows_rawSpelling (isLiteral_raw _)
        (integer.tree_raw_of_large large) t
    · obtain ⟨m', rfl, rfl⟩ := Option.map_eq_some_iff.mp (parsed.symm.trans read)
      have number := (numbers m' rfl).imp_left fun ⟨same, _⟩ => And.intro same large
      exact refuses_of_shows avoids reads shown (isLiteral_value _) (tree_value_of_large number) t
    · -- a negative zero is in range
      have notZero : token ≠ "-0" := by
        rintro rfl
        have minus : IsInteger "-0".toList 0 := .minus (by decide)
        have zero := integer.writes.unique minus.writes
        rw [zero] at unsigned
        exact absurd unsigned.1 (by decide)
      rw [parsed, fits notZero (by omega) unsigned.2]
      rfl
    · obtain rfl := Option.map_eq_none_iff.mp (parsed.symm.trans none)
      rw [ofText, ofText, reads _ _ shown, parse?_onlyText_of_shows shown]
      exact ⟨rfl, rfl⟩

/-- The operand of a minus sign may be the value 12 or the source text of it, and is refused beyond
the words. -/
theorem ofText_integerLiteral_minus :
    ofText "" (minusText ++ Json.valueSpelling "12" ++ "\x7d]\x7d") Interner.initial =
        ofText "" (minusText ++ Json.rawSpelling "12" ++ "\x7d]\x7d") Interner.initial ∧
      Refuses "" minusText "\x7d]\x7d" (Json.rawSpelling "9223372036854775808")
        (.invalidDocument (.invalidLiteral "9223372036854775808")) Interner.initial := by
  have twelve : Json.IsInteger "12".toList 12 := .plain (by decide)
  have beyond : Json.IsInteger "9223372036854775808".toList 9223372036854775808 :=
    .plain (by decide)
  obtain ⟨around, spelled⟩ := ofText_integerLiteral "" place_minusText "\x7d]\x7d"
  obtain ⟨_, -, -, value⟩ := (spelled "12" 12 Interner.initial twelve).1 (by decide)
  have refused := (spelled "9223372036854775808" _ Interner.initial beyond).2 (by decide)
  exact ⟨(value (by decide)).2, refused.1⟩

/-- **Where the spellings differ, and where an integer is not refused.** A negative zero is the
number zero as source text, and no value. An integer beyond the words is no violation where it is
not looked at. -/
theorem integer_spellings_differ :
    (Json.IsInteger "-0".toList 0 ∧
      ofText "" (onlyText (Json.rawSpelling "-0")) Interner.initial =
        (.ok (ofTrees [.number 0] Interner.initial).1, (ofTrees [.number 0] Interner.initial).2) ∧
      ∀ p, (ofText "" (onlyText (Json.valueSpelling "-0")) Interner.initial).1 ≠ .ok p) ∧
    Json.IsInteger "9223372036854775808".toList (2 ^ 63) ∧
      ofText "" (onlyText (complementText (Json.rawSpelling "9223372036854775808")))
        Interner.initial = (.ok (ofTrees [.malformed "~"] Interner.initial).1,
          (ofTrees [.malformed "~"] Interner.initial).2) := by
  have zero : Json.IsInteger "-0".toList 0 := .minus (by decide)
  have beyond : Json.IsInteger "9223372036854775808".toList (2 ^ 63) :=
    .plain (by decide)
  refine ⟨⟨zero, ?_, fun p => ?_⟩, beyond, ?_⟩
  · exact ofText_onlyText_of_tree zero.shows_rawSpelling (zero.tree_raw_of_fits rfl) _
  · obtain ⟨m?, -, shown, numbers, -⟩ := zero.shows_valueSpelling
    cases m? with
    | none =>
        rw [ofText, parse?_onlyText_of_shows shown]
        nofun
    | some m =>
        have double := (numbers m rfl).resolve_left fun ⟨_, other⟩ => other rfl
        have refused := Json.tree_value_of_large (n := 0) (.inr double)
        rw [ofText_onlyText_of_fail shown refused]
        nofun
  · rw [ofText, parse?_complement beyond.shows_rawSpelling]
    simp only [ofJson, program_onlyOf, tree_complement]
    rfl

end Program

end LexCell
