import LexCell.Decimal.Digits
import LexCell.Json

/-!
# The value of a written number

A `Numeral` is the written form of a JSON number, digit for digit. An integer that fits a signed or
unsigned 64-bit word is that integer; `-0`, an integer beyond, and whatever has a fraction or an
exponent is a double.

A double is computed in the working precision of doubles from the leading digits that fit an
unsigned word and a power of ten for the rest, so its last bit need not be the nearest one. A number
too large for a double has no value.
-/

namespace LexCell.Json

/-- The written form of a number: digits before and after the point, and a signed exponent. -/
structure Numeral where
  negative : Bool
  whole : List Char
  fraction : Option (List Char)
  exponent : Option (Bool × List Char)

/-- One past the largest unsigned 64-bit word. -/
def wordLimit : Nat := UInt64.size

/-- Appends digits to a significand for as long as it fits an unsigned word; the second part counts
the digits that are left over. -/
def absorb (significand : Nat) : List Char → Nat × Nat
  | [] => (significand, 0)
  | c :: rest =>
      let next := 10 * significand + digitValue c
      if next < wordLimit then absorb next rest else (significand, rest.length + 1)

/-- A power of ten that a double can hold. -/
def powerOfTen (n : Nat) : Float := Float.ofScientific 1 false n

/-- `x * 10 ^ e`, a large negative power being applied in parts. -/
def scaleByTen (x : Float) (e : Int) : Option Float :=
  if e.natAbs ≤ 308 then
    if 0 ≤ e then
      let y := x * powerOfTen e.natAbs
      if y.isInf then none else some y
    else some (x / powerOfTen e.natAbs)
  -- Zero stays zero however large the power is.
  else if x == 0 then some x
  else if 0 ≤ e then none
  -- The magnitude of the exponent goes down by 308.
  else scaleByTen (x / powerOfTen 308) (e + 308)
termination_by e.natAbs
decreasing_by omega

namespace Numeral

/-- The exponent a written exponent stands for; `none` if it does not fit a signed 32-bit word. -/
def writtenExponent? (digits : List Char) : Option Nat :=
  let n := digitsValue digits
  if n < Nat.pow 2 31 then some n else none

def magnitude? (num : Numeral) : Option Float :=
  let (significand, spilt) := absorb 0 num.whole
  -- Digits of the fraction that fit move the point to the right; others are dropped.
  let (significand, exponent) : Nat × Int :=
    match num.fraction with
    | none => (significand, spilt)
    | some digits =>
        let (significand, ignored) := absorb significand digits
        (significand, (spilt : Int) - (digits.length - ignored : Nat))
  let x := significand.toUInt64.toFloat
  match num.exponent with
  | none => scaleByTen x exponent
  | some (negative, digits) =>
      match writtenExponent? digits with
      | some n => scaleByTen x (if negative then exponent - n else exponent + n)
      -- The power is out of reach for any double but zero.
      | none => if significand = 0 ∨ negative then some 0 else none

def double? (num : Numeral) : Option Number :=
  num.magnitude?.map fun x => .double (if num.negative then -x else x)

/-- A numeral without fraction and exponent as an integer, if a 64-bit word holds it. -/
def integer? (num : Numeral) : Option Int :=
  let n := digitsValue num.whole
  if num.negative then
    -- Minus zero is no integer.
    if 0 < n ∧ n ≤ Nat.pow 2 63 then some (-n) else none
  else if n < wordLimit then some n else none

def value? (num : Numeral) : Option Number :=
  match num.fraction, num.exponent with
  | none, none =>
      match num.integer? with
      | some n => some (.integer n)
      | none => num.double?
  | _, _ => num.double?

end Numeral

end LexCell.Json
