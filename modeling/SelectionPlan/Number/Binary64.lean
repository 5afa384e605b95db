import SelectionPlan.Number.Power

/-!
# Binary floating point numbers

The finite numbers of the 64-bit binary format, as exact integers. A real number becomes one of
them by rounding to the nearest, and to the even significand when two are equally near.
-/
namespace SelectionPlan

/-- The number `± significand * 2 ^ exponent`. -/
structure Binary64 where
  negative : Bool
  significand : Nat
  exponent : Int
  deriving DecidableEq, Repr

namespace Binary64

def precision : Nat := 53

/-- The exponent of the smallest positive number. -/
def minExponent : Int := -1074

/-- The exponent of the largest numbers. -/
def maxExponent : Int := 971

def zero (negative : Bool) : Binary64 := ⟨negative, 0, minExponent⟩

/-- The integer nearest to a quotient; of two equally near ones the even one. -/
def roundQuotient (numerator denominator : Nat) : Nat :=
  let quotient := numerator / denominator
  let twice := 2 * (numerator % denominator)
  if twice < denominator then quotient
  else if denominator < twice then quotient + 1
  else quotient + quotient % 2

/-- `numerator / denominator` in units of `2 ^ exponent`, rounded. -/
def roundAt (numerator denominator : Nat) (exponent : Int) : Nat :=
  if 0 ≤ exponent then roundQuotient numerator (denominator * twoTo exponent.toNat)
  else roundQuotient (numerator * twoTo (-exponent).toNat) denominator

/-- The nearest number to a positive quotient; `none` if it is beyond the largest one. -/
def ofPositive (numerator denominator : Nat) : Option Binary64 :=
  let estimate : Int := (numerator.log2 : Int) - denominator.log2 - precision
  let exponent := max minExponent estimate
  let wide := roundAt numerator denominator exponent
  -- The estimate is at most two too small: then the significand has too many bits.
  let exponent := if wide < twoTo precision then exponent
    else if roundAt numerator denominator (exponent + 1) < twoTo precision then exponent + 1
    else exponent + 2
  let significand := roundAt numerator denominator exponent
  if maxExponent < exponent then none else some ⟨false, significand, exponent⟩

/-- The nearest number to a quotient; `none` if it is beyond the largest one. -/
def ofQuotient (numerator denominator : Nat) : Option Binary64 :=
  if numerator = 0 then some (zero false) else ofPositive numerator denominator

def ofNat (n : Nat) : Option Binary64 := ofQuotient n 1

def numerator (x : Binary64) : Nat := x.significand * twoTo x.exponent.toNat

def denominator (x : Binary64) : Nat := twoTo (-x.exponent).toNat

def mul (x y : Binary64) : Option Binary64 :=
  ofQuotient (x.numerator * y.numerator) (x.denominator * y.denominator)

/-- The quotient of two absolute values, rounded. The divisor is not zero. -/
def div (x y : Binary64) : Option Binary64 :=
  ofQuotient (x.numerator * y.denominator) (x.denominator * y.numerator)

end Binary64

end SelectionPlan
