import LexCell.Assoc
import LexCell.Json.Number

/-!
# Reading JSON text

A strict reader: one value, blanks around it, nothing else. Each reader takes a nonempty piece off
the front of its text and hands back the rest with a proof that it is shorter, which is what every
loop ends by. Arrays and objects nest at most `maxDepth` deep; the depth left is an argument, and
the recursion through nested values is structural on it.
-/

namespace LexCell.Json

/-- What is left of `s` after some of it was read. -/
abbrev Rest (s : List Char) : Type := { r : List Char // r.length < s.length }

/-- Takes a value off the front of a text. -/
abbrev Reader (α : Type) : Type := (s : List Char) → Option (α × Rest s)

def Rest.mono {s t : List Char} (h : s.length ≤ t.length) (r : Rest s) : Rest t :=
  ⟨r.val, Nat.lt_of_lt_of_le r.property h⟩

def maxDepth : Nat := 127

/-! ### Blanks

Blanks may stand before every value, before every key and before every delimiter. -/

def isBlank (c : Char) : Bool := c == ' ' || c == '\t' || c == '\n' || c == '\r'

def skipBlanks (s : List Char) : List Char := s.dropWhile isBlank

theorem length_dropWhile_le (p : Char → Bool) (s : List Char) :
    (s.dropWhile p).length ≤ s.length :=
  (List.dropWhile_sublist p).length_le

/-- What is left after blanks is no longer than what was there, so a rest of the one is a rest of
the other. -/
theorem length_skipBlanks_le (s : List Char) : (skipBlanks s).length ≤ s.length :=
  length_dropWhile_le isBlank s

def afterBlanks {α : Type} (reader : Reader α) : Reader α := fun s => do
  let (x, r) ← reader (skipBlanks s)
  some (x, r.mono (length_skipBlanks_le s))

/-! ### Fixed text -/

def literal : List Char → (s : List Char) → Option { r : List Char // r.length ≤ s.length }
  | [], s => some ⟨s, Nat.le_refl _⟩
  | _ :: _, [] => none
  | c :: cs, d :: s =>
      if c = d then do
        let r ← literal cs s
        some ⟨r.val, Nat.le_succ_of_le r.property⟩
      else none

/-! ### Numbers

The parts of a number are read one after the other. Each part takes as many digits as there are, so
what follows it is never a digit. -/

def digits (s : List Char) : List Char × { r : List Char // r.length ≤ s.length } :=
  (s.takeWhile Char.isDigit, ⟨s.dropWhile Char.isDigit, length_dropWhile_le _ s⟩)

def someDigits : Reader (List Char) := fun s =>
  match s with
  | c :: r =>
      if c.isDigit then
        let (ds, rest) := digits r
        some (c :: ds, ⟨rest.val, Nat.lt_succ_of_le rest.property⟩)
      else none
  | [] => none

/-- Digits without a needless leading zero. -/
def wholePart : Reader (List Char) := fun s => do
  let (ds, r) ← someDigits s
  if ds.head? = some '0' ∧ ds.length ≠ 1 then none else some (ds, r)

def fractionPart (s : List Char) :
    Option (Option (List Char) × { r : List Char // r.length ≤ s.length }) :=
  match s with
  | '.' :: r => do
      let (ds, rest) ← someDigits r
      some (some ds, ⟨rest.val, Nat.le_succ_of_le (Nat.le_of_lt rest.property)⟩)
  | s => some (none, ⟨s, Nat.le_refl _⟩)

/-- The sign of an exponent: whether it is negative. -/
def exponentSign (s : List Char) : Bool × { r : List Char // r.length ≤ s.length } :=
  match s with
  | '-' :: r => (true, ⟨r, Nat.le_succ _⟩)
  | '+' :: r => (false, ⟨r, Nat.le_succ _⟩)
  | s => (false, ⟨s, Nat.le_refl _⟩)

def exponentPart (s : List Char) :
    Option (Option (Bool × List Char) × { r : List Char // r.length ≤ s.length }) :=
  match s with
  | c :: r =>
      if c = 'e' ∨ c = 'E' then
        let (negative, signed) := exponentSign r
        match someDigits signed.val with
        | some (ds, rest) =>
            some (some (negative, ds), ⟨rest.val, by
              have := rest.property
              have := signed.property
              simp only [List.length_cons]; omega⟩)
        | none => none
      else some (none, ⟨c :: r, Nat.le_refl _⟩)
  | [] => some (none, ⟨[], Nat.le_refl _⟩)

/-- Whether a number starts with a minus sign, and what follows it. -/
def minusSign (s : List Char) : Bool × { r : List Char // r.length ≤ s.length } :=
  match s with
  | '-' :: r => (true, ⟨r, Nat.le_succ _⟩)
  | s => (false, ⟨s, Nat.le_refl _⟩)

def numeral : Reader Numeral := fun s =>
  let (negative, unsigned) := minusSign s
  match wholePart unsigned.val with
  | none => none
  | some (whole, r₁) =>
      match fractionPart r₁.val with
      | none => none
      | some (fraction, r₂) =>
          match exponentPart r₂.val with
          | none => none
          | some (exponent, r₃) =>
              some (⟨negative, whole, fraction, exponent⟩, ⟨r₃.val, by
                have := unsigned.property
                have := r₁.property
                have := r₂.property
                have := r₃.property
                omega⟩)

/-! ### Strings

A character is written as itself or escaped; the readers below take off one character at a time. -/

def hexDigit? (c : Char) : Option Nat :=
  if c.isDigit then some (c.toNat - '0'.toNat)
  else if 'a' ≤ c ∧ c ≤ 'f' then some (c.toNat - 'a'.toNat + 10)
  else if 'A' ≤ c ∧ c ≤ 'F' then some (c.toNat - 'A'.toNat + 10)
  else none

def hexUnit : Reader Nat := fun s =>
  match s with
  | a :: b :: c :: d :: r => do
      let n := (((← hexDigit? a) * 16 + (← hexDigit? b)) * 16 + (← hexDigit? c)) * 16
        + (← hexDigit? d)
      some (n, ⟨r, by simp only [List.length_cons]; omega⟩)
  | _ => none

/-- A character by its 16-bit units: one unit, or a high and a low surrogate. -/
def unicodeEscape : Reader Char := fun s => do
  let (n, r) ← hexUnit s
  -- A unit outside of the surrogates is a character by itself.
  if n < 0xD800 ∨ 0xDFFF < n then some (Char.ofNat n, r)
  else if n < 0xDC00 then
    match r with
    -- A high surrogate needs a low one right after it.
    | ⟨'\\' :: 'u' :: t, shorter⟩ => do
        let (m, rest) ← hexUnit t
        if 0xDC00 ≤ m ∧ m ≤ 0xDFFF then
          some (Char.ofNat (0x10000 + (n - 0xD800) * 0x400 + (m - 0xDC00)),
            ⟨rest.val, by
              have := rest.property
              simp only [List.length_cons] at shorter
              omega⟩)
        else none
    | _ => none
  -- A low surrogate cannot come first.
  else none

/-- The character that a backslash and `c` stand for. -/
def simpleEscape? (c : Char) : Option Char :=
  match c with
  | '"' => some '"'
  | '\\' => some '\\'
  | '/' => some '/'
  | 'b' => some '\x08'
  | 'f' => some '\x0c'
  | 'n' => some '\n'
  | 'r' => some '\r'
  | 't' => some '\t'
  | _ => none

/-- One character of a string, written as itself or escaped; control characters must be escaped. -/
def character : Reader Char := fun s =>
  match s with
  | '\\' :: 'u' :: r => do
      let (c, rest) ← unicodeEscape r
      some (c, ⟨rest.val, by have := rest.property; simp only [List.length_cons]; omega⟩)
  | '\\' :: e :: r =>
      (simpleEscape? e).map fun c => (c, ⟨r, by simp only [List.length_cons]; omega⟩)
  | c :: r => -- a backslash that gets here is the last character
      if c = '\\' ∨ c = '"' ∨ c < ' ' then none else some (c, ⟨r, Nat.lt_succ_self _⟩)
  | [] => none

/-- The characters of a string up to its closing quote, after those in `read`, which stand in
reverse. -/
def characters (read : List Char) (s : List Char) : Option (String × Rest s) :=
  match s with
  | '"' :: r => some (String.ofList read.reverse, ⟨r, Nat.lt_succ_self _⟩)
  | s =>
      match character s with
      | none => none
      | some (c, r) => do
          let (text, rest) ← characters (c :: read) r.val
          some (text, rest.mono (Nat.le_of_lt r.property))
termination_by s.length
decreasing_by exact r.property

def quoted : Reader String := fun s =>
  match s with
  | '"' :: r => do
      let (text, rest) ← characters [] r
      some (text, rest.mono (Nat.le_succ _))
  | _ => none

/-! ### Arrays and objects -/

/-- Items separated by commas up to a closing character, after those in `read`, which stand in
reverse. -/
def items {α : Type} (item : Reader α) (close : Char) (read : List α) (s : List Char) :
    Option (List α × Rest s) :=
  match item s with
  | none => none
  | some (x, r) => -- the text that is left must start with a comma or with the closing character
      match skipBlanks r.val, length_skipBlanks_le r.val with
      | [], _ => none
      | c :: t, h =>
          have shorter : t.length < s.length := by
            have := r.property
            simp only [List.length_cons] at h
            omega
          if c = close then some ((x :: read).reverse, ⟨t, shorter⟩)
          else if c = ',' then do
            let (xs, rest) ← items item close (x :: read) t
            some (xs, rest.mono (Nat.le_of_lt shorter))
          else none
termination_by s.length

def bracketed {α : Type} (item : Reader α) (close : Char) : Reader (List α) := fun s =>
  match skipBlanks s, length_skipBlanks_le s with
  | [], _ => none
  | c :: t, h => -- closed at once, or there is an item
      if c = close then some ([], ⟨t, by simp only [List.length_cons] at h; omega⟩)
      else items item close [] s

def member (value : Reader Json) : Reader (String × Json) := fun s =>
  match afterBlanks quoted s with
  | none => none
  | some (key, r) =>
      match skipBlanks r.val, length_skipBlanks_le r.val with
      | ':' :: t, h => do
          let (j, rest) ← value t
          some ((key, j), rest.mono (by
            have := r.property
            simp only [List.length_cons] at h
            omega))
      | _, _ => none

/-- The fields of an object from its members in text order: of a repeated key the last wins. -/
def fieldsOf (members : List (String × Json)) : List (String × Json) :=
  members.foldl (fun fields m => Assoc.insert m.1 m.2 fields) []

/-! ### Values

The first character tells what kind of value it is. Only arrays and objects need the reader of
nested values, which has one level less to go. -/

def word (text : String) (j : Json) : Reader Json := fun s =>
  match text.toList, s with
  | c :: cs, d :: r =>
      if c = d then do
        let rest ← literal cs r
        some (j, ⟨rest.val, Nat.lt_succ_of_le rest.property⟩)
      else none
  | _, _ => none

/-- A value that starts with the first character; `nested` reads what stands in arrays and objects,
if they are still allowed. -/
def valueWith (nested : Option (Reader Json)) : Reader Json := fun s =>
  match s with
  | [] => none
  | 'n' :: r => word "null" .null ('n' :: r)
  | 't' :: r => word "true" (.boolean true) ('t' :: r)
  | 'f' :: r => word "false" (.boolean false) ('f' :: r)
  | '"' :: r => do
      let (text, rest) ← quoted ('"' :: r)
      some (.string text, rest)
  | '[' :: r => do
      let (xs, rest) ← bracketed (← nested) ']' r
      some (.array xs, rest.mono (Nat.le_succ _))
  | '\x7b' :: r => do
      let (members, rest) ← bracketed (member (← nested)) '\x7d' r
      some (.object (fieldsOf members), rest.mono (Nat.le_succ _))
  -- Anything else is a number, or nothing.
  | c :: r => do
      let (num, rest) ← numeral (c :: r)
      some (.number (← num.value?), rest)

/-- A value with blanks before it, in which arrays and objects nest at most `depth` deep. -/
def value : Nat → Reader Json
  | 0 => afterBlanks (valueWith none)
  | depth + 1 => afterBlanks (valueWith (some (value depth)))

def parse? (text : String) : Option Json :=
  match value maxDepth text.toList with
  -- Nothing but blanks may follow the value.
  | some (j, r) => if skipBlanks r.val = [] then some j else none
  | none => none

end LexCell.Json
