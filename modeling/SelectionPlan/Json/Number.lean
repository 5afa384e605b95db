import SelectionPlan.Number.Shortest

/-!
# Numbers in JSON texts

A number is an integer if it is written without fraction and exponent and fits into 64 bits;
otherwise it is a binary floating point number. Such a number is found in two roundings: the
written digits, without those beyond the nineteenth or twentieth, are rounded first, and the result
is scaled by a rounded power of ten.
-/
namespace SelectionPlan.Json

/-- A number that a JSON text can hold. -/
inductive Number where
  | natural (value : Nat)
  /-- `-value`, for a positive value. -/
  | negative (value : Nat)
  | float (value : Binary64)
  deriving DecidableEq, Repr

/-- Scales by a power of ten up to the 308th; `none` if the result is too large. -/
def scale (x : Binary64) (exponent : Int) : Option Binary64 := do
  let power ← Binary64.ofNat (tenTo exponent.natAbs)
  if 0 ≤ exponent then x.mul power else x.div power

/-- `significand * 10 ^ exponent` as a floating point number; `none` if it is too large. Powers
below the smallest one are applied in two steps, and what is left after the second one is zero. -/
def floatOf (significand : Nat) (exponent : Int) : Option Binary64 := do
  let x ← Binary64.ofNat significand
  if significand = 0 then return .zero false
  if 308 < exponent then none
  if -308 ≤ exponent then scale x exponent
  else
    let small ← scale x (-308)
    if small.significand = 0 then return small
    if -616 ≤ exponent then scale small (exponent + 308) else return .zero false

namespace Number

/-- Decimal digits, and zeros after them or before them as far as `exponent` asks. -/
def positional (digits : List Char) (exponent : Int) : List Char :=
  let point := (digits.length : Int) + exponent
  if 0 ≤ exponent then digits ++ List.replicate exponent.toNat '0' ++ ['.', '0']
  else if 0 < point then digits.take point.toNat ++ ['.'] ++ digits.drop point.toNat
  else ['0', '.'] ++ List.replicate (-point).toNat '0' ++ digits

/-- A power of ten, always with its sign. -/
def signedPower (power : Int) : List Char :=
  (if 0 ≤ power then '+' else '-') :: Nat.toDigits 10 power.natAbs

/-- Digits with a point after the first, and the power of ten. -/
def scientific (digits : List Char) (exponent : Int) : List Char :=
  let power := signedPower (exponent + digits.length - 1)
  match digits with
  | [digit] => [digit, 'e'] ++ power
  | first :: rest => [first, '.'] ++ rest ++ ['e'] ++ power
  | [] => []

/-- Text of a floating point number: the fewest digits that read back, and always a point or an
exponent. From `1e-5` up to below `1e16` the digits stand at their places. -/
def floatText (x : Binary64) : List Char :=
  let sign := if x.negative then ['-'] else []
  if x.significand = 0 then sign ++ ['0', '.', '0']
  else
    let decimal := x.shortest
    let digits := Nat.toDigits 10 decimal.digits
    let point := (digits.length : Int) + decimal.exponent
    if -5 < point && point ≤ 16 then sign ++ positional digits decimal.exponent
    else sign ++ scientific digits decimal.exponent

def text : Number → List Char
  | .natural value => Nat.toDigits 10 value
  | .negative value => '-' :: Nat.toDigits 10 value
  | .float value => floatText value

end Number

end SelectionPlan.Json
