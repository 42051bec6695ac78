import LexCell.Document.Error
import LexCell.Json

/-!
# Elements of a document

An element is a JSON object with a `type`. Its fields are fetched by key and checked for the shape
that the caller needs; a field that is `null` counts as absent. What is fetched is smaller than the
element it came from, and every accessor says so in its type, which is what reading a document
recursively ends by.
-/

namespace LexCell

/-- What a JSON value is, in words. -/
def Json.typeLabel : Json → String
  | null => "null"
  | boolean _ => "a boolean"
  | number _ => "a number"
  | string _ => "a string"
  | array _ => "an array"
  | object _ => "an object"

/-- A JSON object whose `type` says what it describes. -/
structure Element where
  kind : String
  fields : List (String × Json)

namespace Element

/-- How much an element holds: what recursion into its fields ends by. -/
noncomputable def size (e : Element) : Nat := sizeOf e.fields

theorem sizeOf_lt_of_lookup {key : String} {fields : List (String × Json)} {j : Json}
    (h : fields.lookup key = some j) : sizeOf j < sizeOf fields := by
  induction fields with
  | nil => simp [List.lookup_nil] at h
  | cons f rest ih =>
      obtain ⟨k, v⟩ := f
      rw [List.lookup_cons] at h
      split at h
      · cases h
        simp only [List.cons.sizeOf_spec, Prod.mk.sizeOf_spec]
        omega
      · have := ih h
        simp only [List.cons.sizeOf_spec]
        omega

def ofJson (j : Json) : Except DocumentError { e : Element // e.size < sizeOf j } :=
  match j with
  | .object fields =>
      match fields.lookup "type" with
      | some (.string kind) =>
          .ok ⟨⟨kind, fields⟩, by simp only [size, Json.object.sizeOf_spec]; omega⟩
      | some _ => .error (.wrongFieldType "node" "type" "a string")
      | none => .error (.missingField "node" "type")
  | j => .error (.expectedNode j.typeLabel)

/-- A field that may be absent; `null` is absence. -/
def field? (e : Element) (key : String) : Option { j : Json // sizeOf j < e.size } :=
  match h : e.fields.lookup key with
  | none => none
  | some .null => none
  | some j => some ⟨j, sizeOf_lt_of_lookup h⟩

/-- A field that must be there. -/
def field (e : Element) (key : String) : Except DocumentError { j : Json // sizeOf j < e.size } :=
  match e.field? key with
  | some j => .ok j
  | none => .error (.missingField e.kind key)

def child (e : Element) (key : String) :
    Except DocumentError { c : Element // c.size < e.size } := do
  let j ← e.field key
  let c ← ofJson j.val
  .ok ⟨c.val, Nat.lt_trans c.property j.property⟩

def text (e : Element) (key : String) : Except DocumentError String := do
  let j ← e.field key
  match j.val with
  | .string s => .ok s
  | _ => .error (.wrongFieldType e.kind key "a string")

def items (e : Element) (key : String) :
    Except DocumentError { xs : List Json // sizeOf xs < e.size } := do
  let j ← e.field key
  match j with
  | ⟨.array xs, h⟩ => .ok ⟨xs, by simp only [Json.array.sizeOf_spec] at h; omega⟩
  | _ => .error (.wrongFieldType e.kind key "an array")

end Element

end LexCell
