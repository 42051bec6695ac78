/-!
# JSON values

The data of a JSON text. An object is a list of fields sorted by key, each key once.
-/

namespace LexCell

/-- A number as a document gives it: an integer that a 64-bit word holds, signed or unsigned, or a
double. -/
inductive Json.Number where
  | integer (n : Int)
  | double (x : Float)

inductive Json where
  | null
  | boolean (b : Bool)
  | number (n : Json.Number)
  | string (s : String)
  | array (items : List Json)
  | object (fields : List (String × Json))

end LexCell
