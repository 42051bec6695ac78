/-!
# The shortest decimal that reads back

A binary floating-point number stands for an interval of reals: those that round to it. Of all
decimals in that interval, `shortest` picks one on the coarsest power-of-ten grid that has a point
there, and of two such points the one nearer to the number, a tie going to the even coefficient.

Everything is exact arithmetic on natural numbers. The unit is a quarter of the distance to the next
number above, so the number and the ends of its interval are whole.
-/

namespace LexCell

/-- The decimal `coefficient * 10 ^ exponent`. -/
structure Decimal where
  coefficient : Nat
  exponent : Int
  deriving DecidableEq

namespace Decimal

/-- A positive binary number `significand * 2 ^ exponent`. `narrow` says that the next number below
is only half as far away as the next above. -/
structure Binary where
  significand : Nat
  exponent : Int
  narrow : Bool
  deriving DecidableEq

/-- The magnitude of a double from its bits; `none` for zero. -/
def Binary.ofBits? (bits : UInt64) : Option Binary :=
  let field : Nat := (bits.toNat / Nat.pow 2 52) % Nat.pow 2 11
  let fraction : Nat := bits.toNat % Nat.pow 2 52
  -- No exponent field: there is no leading bit to add to the fraction.
  if field = 0 then
    if fraction = 0 then none else some ⟨fraction, -1074, false⟩
  else some ⟨Nat.pow 2 52 + fraction, (field : Int) - 1075, fraction = 0 && field > 1⟩

namespace Binary

def quarters (b : Binary) : Nat := 4 * b.significand

/-- The lower end of the interval that rounds to the number, in quarter units. -/
def low (b : Binary) : Nat := b.quarters - if b.narrow then 1 else 2

def high (b : Binary) : Nat := b.quarters + 2

/-- Quarter units and steps of the grid `10 ^ u` over one common unit: a quarter is the first
number, a step the second. -/
def scale (b : Binary) (u : Int) : Nat × Nat :=
  let q := b.exponent - 2
  -- Of each power one factor is 1, for an exponent and its negative are not both positive.
  (Nat.pow 2 q.toNat * Nat.pow 10 (-u).toNat, Nat.pow 10 u.toNat * Nat.pow 2 (-q).toNat)

/-- Whether the grid point `c * 10 ^ u` reads back as the number: the ends of the interval do when
the significand is even. -/
def readsBack (b : Binary) (u : Int) (c : Nat) : Bool :=
  let (quarter, step) := b.scale u
  if b.significand % 2 = 0 then
    b.low * quarter ≤ c * step && c * step ≤ b.high * quarter
  else b.low * quarter < c * step && c * step < b.high * quarter

/-- The grid points on both sides of the number; any point that reads back is no nearer. -/
def neighbours (b : Binary) (u : Int) : Nat × Nat :=
  let (quarter, step) := b.scale u
  let below := b.quarters * quarter / step
  (below, below + 1)

/-- Which of its two neighbours on a grid the number is nearer to. -/
def nearer (b : Binary) (u : Int) : Nat :=
  let (quarter, step) := b.scale u
  let (below, above) := b.neighbours u
  let down := b.quarters * quarter - below * step
  let up := above * step - b.quarters * quarter
  if down < up || (down = up && below % 2 = 0) then below else above

/-- The best point of a grid, if any of its points reads back. -/
def onGrid? (b : Binary) (u : Int) : Option Nat :=
  let (below, above) := b.neighbours u
  -- Any other point of the grid is farther away than one of the two.
  match b.readsBack u below, b.readsBack u above with
  | true, true => some (b.nearer u)
  | true, false => some below
  | false, true => some above
  | false, false => none

/-- The finest grid that is ever needed: no two doubles are closer than four of its steps. -/
def finest : Int := -324

/-- Searches the grids from `10 ^ (finest + n)` down. -/
def search (b : Binary) : Nat → Decimal
  | 0 => ⟨(b.onGrid? finest).getD (b.neighbours finest).1, finest⟩
  | n + 1 =>
      let u := finest + (n + 1 : Nat)
      match b.onGrid? u with
      | some c => ⟨c, u⟩
      | none => search b n

/-- The shortest decimal that reads back; no double reaches `10 ^ 309`. -/
def shortest (b : Binary) : Decimal := b.search (309 + 324)

end Binary

end Decimal

end LexCell
