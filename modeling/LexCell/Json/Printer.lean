import LexCell.Decimal.Shortest
import LexCell.Json

/-!
# Writing JSON text

The compact form: no blanks, object fields by key, and in strings only quotes, backslashes and
control characters escaped. A double is written with the fewest digits that read back, positionally
from `1e-5` up to below `1e16` and then always with a fraction, otherwise with a signed exponent.
-/

namespace LexCell.Json

/-! ### Doubles

A double is its sign and its magnitude, and the magnitude is the shortest decimal that reads back,
in one of two forms. -/

def zeros (n : Nat) : List Char := List.replicate n '0'

/-- Digits with a point after the first, unless there is only one. -/
def pointAfterFirst : List Char → List Char
  | [] => []
  | [c] => [c]
  | c :: cs => c :: '.' :: cs

/-- A decimal, the exponent written out with its sign. -/
def scientific (digits : List Char) (exponent : Int) : List Char :=
  pointAfterFirst digits ++ 'e' :: (if exponent < 0 then '-' else '+') ::
    (Nat.toDigits 10 exponent.natAbs)

/-- A decimal without exponent: `digits * 10 ^ exponent`. -/
def positional (digits : List Char) (exponent : Int) : List Char :=
  if 0 ≤ exponent then digits ++ zeros exponent.toNat ++ ['.', '0']
  else
    let places := (-exponent).toNat
    -- The point stands among the digits.
    if places < digits.length then
      digits.take (digits.length - places) ++ '.' :: digits.drop (digits.length - places)
    else '0' :: '.' :: zeros (places - digits.length) ++ digits

def magnitude (d : Decimal) : List Char :=
  let digits := Nat.toDigits 10 d.coefficient
  -- The power of ten of the first digit.
  let leading := d.exponent + (digits.length : Int) - 1
  if -5 ≤ leading ∧ leading < 16 then positional digits d.exponent
  else scientific digits leading

/-- A finite double; the sign of zero is kept. -/
def doubleText (x : Float) : String :=
  let bits := x.toBits
  let sign := if bits.toNat / Nat.pow 2 63 = 1 then ['-'] else []
  match Decimal.Binary.ofBits? bits with
  -- The double is zero.
  | none => String.ofList (sign ++ ['0', '.', '0'])
  | some b => String.ofList (sign ++ magnitude b.shortest)

def Number.text : Number → String
  | .integer n => toString n
  | .double x => doubleText x

/-! ### Strings -/

def controlEscape (c : Char) : List Char :=
  ['\\', 'u', '0', '0', (c.toNat / 16).digitChar, (c.toNat % 16).digitChar]

def escapeChar (c : Char) : List Char :=
  match c with
  | '"' => ['\\', '"']
  | '\\' => ['\\', '\\']
  | '\x08' => ['\\', 'b']
  | '\x0c' => ['\\', 'f']
  | '\n' => ['\\', 'n']
  | '\r' => ['\\', 'r']
  | '\t' => ['\\', 't']
  -- The control characters that have no letter of their own.
  | c => if c < ' ' then controlEscape c else [c]

def stringText (s : String) : String :=
  String.ofList ('"' :: s.toList.flatMap escapeChar ++ ['"'])

/-! ### Values -/

mutual

def compact : Json → String
  | null => "null"
  | boolean b => if b then "true" else "false"
  | number n => n.text
  | string s => stringText s
  | array items => "[" ++ compactItems items ++ "]"
  | object fields => "\x7b" ++ compactFields fields ++ "\x7d"

def compactItems : List Json → String
  | [] => ""
  | [j] => compact j
  | j :: rest => compact j ++ "," ++ compactItems rest

def compactFields : List (String × Json) → String
  | [] => ""
  | [(key, j)] => stringText key ++ ":" ++ compact j
  | (key, j) :: rest => stringText key ++ ":" ++ compact j ++ "," ++ compactFields rest

end

end LexCell.Json
