import Breakpoint.Decimal.Binary

/-! The shortest decimal that reads back as a given binary number. A decimal reads back when it lies
between the midpoints to the two neighbouring binary numbers; a midpoint itself belongs to the
number with the even mantissa. Decimal grids are tried from coarse to fine. On each of them only the
two grid points around the number can read back unless a coarser grid already had one that does. -/

namespace Breakpoint.Decimal

/-- `digits · 10 ^ exponent`. -/
structure Scaled where
  digits : Nat
  exponent : Int
deriving DecidableEq, Repr

/-- The number of decimal digits of `n`. -/
def digitCount (n : Nat) : Nat := (Nat.toDigits 10 n).length

/-- A positive number between its two midpoints, all three counted in units of `2 ^ exponent`; the
midpoints read back as well when the bracket is closed. -/
structure Bracket where
  below : Nat
  value : Nat
  above : Nat
  exponent : Int
  closed : Bool

/-- The numbers that round to `mantissa · 2 ^ exponent`. The neighbour below a power of two is only
half as far away. -/
def Format.bracket (f : Format) (mantissa : Nat) (exponent : Int) : Bracket where
  below := 4 * mantissa - (if mantissa = Nat.pow 2 f.fractionWidth then 1 else 2)
  value := 4 * mantissa
  above := 4 * mantissa + 2
  exponent := exponent - 2
  closed := mantissa % 2 == 0

namespace Bracket

/-- What one unit of the bracket is worth when a unit of the grid `10 ^ k` is worth `gridUnit`. -/
def unit (b : Bracket) (k : Int) : Nat :=
  Nat.pow 2 b.exponent.toNat * Nat.pow 10 (-k).toNat

/-- What one unit of the grid `10 ^ k` is worth when a unit of the bracket is worth `unit`. -/
def gridUnit (b : Bracket) (k : Int) : Nat :=
  Nat.pow 10 k.toNat * Nat.pow 2 (-b.exponent).toNat

/-- Whether `digits · 10 ^ k` reads back. -/
def contains (b : Bracket) (k : Int) (digits : Nat) : Bool :=
  let point := digits * b.gridUnit k
  let low := b.below * b.unit k
  let high := b.above * b.unit k
  (low < point && point < high) || (b.closed && (point == low || point == high))

/-- The grid point that reads back and is nearest to the number; a tie goes to the larger. -/
def onGrid? (b : Bracket) (k : Int) : Option Nat :=
  let value := b.value * b.unit k
  let floor := value / b.gridUnit k
  match b.contains k floor, b.contains k (floor + 1) with
  | false, false => none
  | true, false => some floor
  | false, true => some (floor + 1)
  | true, true =>
    if b.gridUnit k ≤ 2 * (value - floor * b.gridUnit k) then some (floor + 1) else some floor

/-- An exponent whose power of ten exceeds the number, by a factor of at most a hundred. -/
def coarsest (b : Bracket) : Int :=
  let value := b.value * b.unit 0
  let one := b.gridUnit 0
  if one ≤ value then digitCount (value / one) else 2 - digitCount (one / value)

/-- The shortest decimal. Seventeen digits always suffice, so twenty grids are enough. -/
def shortest (b : Bracket) : Scaled :=
  let found := (List.range 20).findSome? fun (i : Nat) =>
    (b.onGrid? (b.coarsest - i)).map fun digits => Scaled.mk digits (b.coarsest - i)
  found.getD ⟨0, 0⟩

end Bracket

end Breakpoint.Decimal
