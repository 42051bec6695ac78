/-!
# Decimal digits

The number that a run of decimal digits writes, and 64-bit words in decimal. `decimal` writes a word
with a minus sign where it is negative; `ofDecimal?` reads what it writes, and also a leading plus
sign and leading zeros.
-/

namespace LexCell

def digitValue (c : Char) : Nat := c.toNat - '0'.toNat

def digitsValue (digits : List Char) : Nat :=
  digits.foldl (fun n c => 10 * n + digitValue c) 0

def decimal (n : Int64) : String :=
  -- The absolute value of the least word is no word, so the digits are those of a natural number.
  String.ofList (if n < 0 then '-' :: Nat.toDigits 10 n.toInt.natAbs
    else Nat.toDigits 10 n.toInt.natAbs)

/-- The word that is equal to an integer, if there is one. -/
def wordOf? (n : Int) : Option Int64 :=
  if Int64.minValue.toInt ≤ n ∧ n ≤ Int64.maxValue.toInt then some (Int64.ofInt n) else none

def unsigned? (digits : List Char) : Option Nat :=
  if digits ≠ [] ∧ digits.all Char.isDigit then some (digitsValue digits) else none

/-- Digits after an optional sign, as a number. -/
def signed? : List Char → Option Int
  | '-' :: digits => (unsigned? digits).map fun n => -(n : Int)
  | '+' :: digits => (unsigned? digits).map fun n => (n : Int)
  | digits => (unsigned? digits).map fun n => (n : Int)

def ofDecimal? (text : String) : Option Int64 := (signed? text.toList).bind wordOf?

end LexCell
