import SelectionPlan.Number.Binary64

/-!
# Shortest decimals

Of the decimals that round to a given binary number, the shortest one is the one with the fewest
digits, and among these the nearest. The search tries the decimal grids from the coarsest on. If a
point of a grid rounds to the number, so does one of the two grid points beside the number.
-/
namespace SelectionPlan

/-- The number `digits * 10 ^ exponent`. -/
structure Decimal where
  digits : Nat
  exponent : Int
  deriving DecidableEq, Repr

namespace Binary64

/-- `left.1 / left.2` is below, at or above `right.1 / right.2`, all of them natural. -/
def compareQuotients (left right : Nat × Nat) : Ordering :=
  compare (left.1 * right.2) (right.1 * left.2)

/-- `count * 10 ^ exponent` as a quotient. -/
def decimalQuotient (count : Nat) (exponent : Int) : Nat × Nat :=
  (count * tenTo exponent.toNat, tenTo (-exponent).toNat)

/-- `quarters * 2 ^ exponent / 4` as a quotient. -/
def binaryQuotient (quarters : Nat) (exponent : Int) : Nat × Nat :=
  (quarters * twoTo exponent.toNat, 4 * twoTo (-exponent).toNat)

/-- Whether a decimal rounds to the positive number `x`. The gap to the next number below is half
as wide when the significand is a power of two. -/
def isRead (x : Binary64) (decimal : Nat × Nat) : Bool :=
  let below := if x.significand = twoTo (precision - 1) && decide (minExponent < x.exponent) then 1
    else 2
  let low := compareQuotients (binaryQuotient (4 * x.significand - below) x.exponent) decimal
  let high := compareQuotients decimal (binaryQuotient (4 * x.significand + 2) x.exponent)
  if x.significand % 2 = 0 then low.isLE && high.isLE else low.isLT && high.isLT

/-- The exponent `e` with `10 ^ (e - 1) ≤ x < 10 ^ e`, for a positive number. -/
def magnitude (x : Binary64) : Int :=
  let estimate := ((x.significand.log2 : Int) + x.exponent) * 30103 / 100000
  let reached (e : Int) : Bool :=
    (compareQuotients (decimalQuotient 1 e) (binaryQuotient (4 * x.significand) x.exponent)).isLE
  if reached (estimate + 1) then estimate + 2
  else if reached estimate then estimate + 1
  else estimate

/-- The best decimal for a positive number on the grid with the given unit, if one rounds to it.
When both neighbours on the grid are equally near, the even one is taken. -/
def onGrid (x : Binary64) (exponent : Int) : Option Decimal :=
  let unit := decimalQuotient 1 exponent
  let number := binaryQuotient (4 * x.significand) x.exponent
  let count := number.1 * unit.2 / (number.2 * unit.1)
  let lower := x.isRead (decimalQuotient count exponent)
  let upper := x.isRead (decimalQuotient (count + 1) exponent)
  let nearer := roundQuotient (number.1 * unit.2) (number.2 * unit.1)
  match lower, upper with
  | true, true => some ⟨nearer, exponent⟩
  | true, false => some ⟨count, exponent⟩
  | false, true => some ⟨count + 1, exponent⟩
  | false, false => none

/-- The shortest decimal that rounds to a positive number. The first grid has one point above the
number and only zero below it; seventeen digits, on the last grid, are always enough. -/
def shortest (x : Binary64) : Decimal :=
  let top := x.magnitude
  ((List.range 18).findSome? fun (count : Nat) => x.onGrid (top - count)).getD ⟨0, 0⟩

end Binary64

end SelectionPlan
