import LexCell.Proofs.Json.Written

/-!
# Places in a JSON text

A `Place` is a text that ends where a value comes next. Whatever object is put there, the whole text
is read as what stands around that place, the same for all of them, with the object in it
(`Place.exists_outside`); and if the object cannot be read, the text cannot.
-/

namespace LexCell.Json

/-! ### Places

Inside an array the items before the place are finished, inside an object the fields before it. What
comes after the place is not yet known, so nothing is said of it here. -/

/-- The text begins a value, in which arrays and objects may nest `depth` deep, and it ends where a
value in it comes next, for which `inner` of the depth is left. On the way there is no field
`value`: what a literal holds is no part of the program. -/
inductive Place : Nat → List Char → Nat → Prop where
  | here {depth : Nat} {blanks : List Char} : (∀ c ∈ blanks, isBlank c) → Place depth blanks depth
  | array {depth inner : Nat} {blanks done before : List Char} {xs : List Json} :
      (∀ c ∈ blanks, isBlank c) → Finished (value depth) done xs → Place depth before inner →
      Place (depth + 1) (blanks ++ '[' :: (done ++ before)) inner
  | object {depth inner : Nat} {blanks done key before : List Char} {name : String}
      {ms : List (String × Json)} :
      (∀ c ∈ blanks, isBlank c) → Finished (member (value depth)) done ms →
      (∀ s, ∃ r, takes quoted (skipBlanks (key ++ ':' :: s)) = some (name, r) ∧
        skipBlanks r = ':' :: s) →
      name ≠ "value" → Place depth before inner →
      Place (depth + 1) (blanks ++ '\x7b' :: (done ++ (key ++ ':' :: before))) inner

/-- There need not be any blanks. -/
theorem noBlanks : ∀ c ∈ ([] : List Char), isBlank c := nofun

/-- The place of the first item. -/
theorem Place.firstItem {depth inner : Nat} {before : List Char} (h : Place depth before inner) :
    Place (depth + 1) ('[' :: before) inner :=
  .array noBlanks .nil h

/-- The place of a field that is written without blanks, after those that are finished. -/
theorem Place.field {depth inner : Nat} (key : List Char) (hkey : IsPlainText key)
    (other : String.ofList key ≠ "value") {done before : List Char} {ms : List (String × Json)}
    (h : Finished (member (value depth)) done ms) (place : Place depth before inner) :
    Place (depth + 1) ('\x7b' :: (done ++ ('"' :: (key ++ ['"']) ++ ':' :: before))) inner := by
  refine .object noBlanks h (fun s => ⟨':' :: s, ?_, rfl⟩) other place
  -- Quotes around the key, and a colon after it.
  rw [List.cons_append, List.append_assoc]
  exact takes_quoted hkey (':' :: s)

/-- A place begins with an opening bracket, or an object is put there. -/
theorem Place.begins {depth inner : Nat} {before : List Char} (h : Place depth before inner)
    (s : List Char) : Begins (fun c => c = '[' ∨ c = '\x7b') (before ++ '\x7b' :: s) := by
  cases h with
  | here blanks => exact .append blanks ⟨'\x7b', s, rfl, .inr rfl⟩
  | array blanks _ _ =>
      rw [List.append_assoc]
      exact .append blanks ⟨'[', _, rfl, .inl rfl⟩
  | object blanks _ _ _ _ =>
      rw [List.append_assoc]
      exact .append blanks ⟨'\x7b', _, rfl, .inr rfl⟩

/-! ### What stands around a place

The same way through a document, this time as a value: a place in a text leads to a place in the
value that is read from it. -/

inductive Outside where
  | here
  | array (before : List Json) (inner : Outside) (after : List Json)
  | object (before : List (String × Json)) (key : String) (inner : Outside)
      (after : List (String × Json))

namespace Outside

def fill : Outside → Json → Json
  | here, j => j
  | array before inner after, j => .array (before ++ inner.fill j :: after)
  | object before key inner after, j => .object (fieldsOf (before ++ (key, inner.fill j) :: after))

/-- On the way to the place is no field `value`. -/
def AvoidsValue : Outside → Prop
  | here => True
  | array _ inner _ => inner.AvoidsValue
  | object _ key inner _ => key ≠ "value" ∧ inner.AvoidsValue

end Outside

/-- **What stands around a place does not depend on the object that is put there.** -/
theorem Place.exists_outside {depth inner : Nat} {before : List Char}
    (h : Place depth before inner) :
    ∃ around : List Char → Option (Outside × List Char),
      (∀ s, takes (value depth) (before ++ '\x7b' :: s) =
        (takes (value inner) ('\x7b' :: s)).bind fun p =>
          (around p.2).map fun q => (q.1.fill p.1, q.2)) ∧
      ∀ r o u, around r = some (o, u) → o.AvoidsValue := by
  -- On the way to the place. At each level the reader takes what is finished, then the value with
  -- the place in it, then the rest.
  induction h with
  | here blanks =>
      refine ⟨fun r => some (.here, r), fun s => ?_, fun r o u h => ?_⟩
      · rw [takes_value_append blanks]
        cases takes (value _) ('\x7b' :: s) <;> rfl
      · cases h
        trivial
  | @array depth inner blanks done before xs hblanks finished place ih =>
      obtain ⟨around, reads, avoids⟩ := ih
      refine ⟨fun r => (around r).bind fun q => (takesMore (value depth) ']' [] q.2).map fun m =>
        (.array xs q.1 m.1, m.2), fun s => ?_, fun r o u h => ?_⟩
      · -- neither finished items nor a place begin like the end of the array
        have first : Begins (· ≠ ']') (done ++ (before ++ '\x7b' :: s)) := by
          refine finished.begins (fun _ _ => begins_of_value) ((place.begins s).mono ?_)
          rintro c (rfl | rfl) <;> decide
        rw [List.append_assoc, takes_value_append hblanks, List.cons_append, List.append_assoc,
          takes_value_array, finished.takes_bracketed (by decide) first, reads]
        cases takes (value inner) ('\x7b' :: s) with
        | none => rfl
        | some p =>
            simp only [Option.bind_some]
            cases around p.2 with
            | none => rfl
            | some q => simp [closes, Outside.fill, Function.comp_def]
      · obtain ⟨q, found, rest⟩ := Option.bind_eq_some_iff.mp h
        obtain ⟨m, -, same⟩ := Option.map_eq_some_iff.mp rest
        cases same
        exact avoids r q.1 q.2 found
  | @object depth inner blanks done key before name ms hblanks finished named other place ih =>
      obtain ⟨around, reads, avoids⟩ := ih
      refine ⟨fun r => (around r).bind fun q =>
        (takesMore (member (value depth)) '\x7d' [] q.2).map fun m =>
          (.object ms name q.1 m.1, m.2), fun s => ?_, fun r o u h => ?_⟩
      · -- the key of the field on the way, and the colon behind it
        obtain ⟨t, quotes, colon⟩ := named (before ++ '\x7b' :: s)
        have first : Begins (· ≠ '\x7d') (done ++ (key ++ ':' :: (before ++ '\x7b' :: s))) := by
          refine (finished.begins (fun _ _ => begins_of_member) (begins_of_quoted quotes)).mono ?_
          rintro c rfl
          decide
        rw [List.append_assoc, takes_value_append hblanks, List.cons_append, List.append_assoc,
          List.append_assoc, List.cons_append, takes_value_object,
          finished.takes_bracketed (by decide) first, takes_member _ quotes colon, reads]
        cases takes (value inner) ('\x7b' :: s) with
        | none => rfl
        | some p =>
            simp only [Option.bind_some]
            cases around p.2 with
            | none => rfl
            | some q => simp [closes, Outside.fill, Function.comp_def]
      · obtain ⟨q, found, rest⟩ := Option.bind_eq_some_iff.mp h
        obtain ⟨m, -, same⟩ := Option.map_eq_some_iff.mp rest
        cases same
        exact ⟨other, avoids r q.1 q.2 found⟩

/-! ### Whole texts

At the root the depth is bounded and nothing may follow. With these the result is about `parse?`. -/

/-- The text is an object, which is read as `j` wherever an object may stand, or not at all. -/
def Shows (text : String) (j : Option Json) : Prop :=
  (∃ s, text.toList = '\x7b' :: s) ∧ ∀ depth rest,
    takes (value (depth + 1)) (text.toList ++ rest) = j.map fun j => (j, rest)

/-- **A text with an object in some place** is read as what stands around it with the object in its
place, and what that is does not depend on the object. -/
theorem Place.exists_parse? {inner : Nat} {before : String}
    (h : Place maxDepth before.toList inner) (after : String) :
    ∃ around : Option Outside, (∀ o, around = some o → o.AvoidsValue) ∧
      ∀ text j, Shows text j →
        parse? (before ++ text ++ after) = j.bind fun j => around.map fun o => o.fill j := by
  obtain ⟨around, reads, avoids⟩ := h.exists_outside
  -- A text with an object in the place, up to what is read of the object.
  have whole {text : String} {s : List Char} (hs : text.toList = '\x7b' :: s) :
      parse? (before ++ text ++ after) =
        ((takes (value inner) (text.toList ++ after.toList)).bind fun p =>
          (around p.2).map fun q => (q.1.fill p.1, q.2)).bind fun p =>
            if skipBlanks p.2 = [] then some p.1 else none := by
    rw [parse?_eq, String.toList_append, String.toList_append, List.append_assoc, hs,
      List.cons_append, reads]
  cases inner with
  | zero => -- no object may stand here
      refine ⟨none, nofun, fun text j ⟨⟨s, hs⟩, _⟩ => ?_⟩
      rw [whole hs, hs, List.cons_append, takes_value_zero]
      cases j <;> rfl
  | succ inner =>
      refine ⟨(around after.toList).bind fun q => if skipBlanks q.2 = [] then some q.1 else none,
        fun o ho => ?_, fun text j ⟨⟨s, hs⟩, shown⟩ => ?_⟩
      · obtain ⟨q, found, last⟩ := Option.bind_eq_some_iff.mp ho
        obtain ⟨-, same⟩ := Option.ite_none_right_eq_some.mp last
        cases same
        exact avoids _ _ _ found
      · rw [whole hs, shown]
        cases j with
        | none => rfl
        | some j =>
            simp only [Option.map_some, Option.bind_some]
            cases around after.toList with
            | none => rfl
            | some q =>
                simp only [Option.map_some, Option.bind_some]
                split <;> rfl

end LexCell.Json
