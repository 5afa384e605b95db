import SelectionPlan.Number.Binary64
import SelectionPlan.Text.Digits

/-!
# What plain scalars mean

Where any kind of value may stand, a scalar without quotes is null, a boolean or a number if it is
written like one, and a text otherwise. A number with needless zeros in front is a text, and so is
one that is too large for a floating point number.
-/
namespace SelectionPlan.Yaml

/-- The meaning of a plain scalar. -/
inductive Plain where
  | null
  | bool (value : Bool)
  /-- An integer from zero on that fits into 64 bits. -/
  | natural (value : Nat)
  | otherNumber
  | text
  deriving DecidableEq, Repr

namespace Plain

def bool? (word : String) : Option Bool :=
  if ["true", "True", "TRUE"].contains word then some true
  else if ["false", "False", "FALSE"].contains word then some false
  else none

def isNull (word : String) : Bool :=
  ["null", "Null", "NULL", "~"].contains word

/-- The number that digits in some base stand for; there has to be one at least. -/
def natural? (base : Nat) (digits : List Char) : Option Nat :=
  if digits.isEmpty then none else Text.number? base digits

/-- Whether a word is a zero followed by further decimal digits, behind a sign or not. -/
def hasNeedlessZero (word : List Char) : Bool :=
  let unsigned := match word with
    | '-' :: rest => rest
    | '+' :: rest => rest
    | rest => rest
  match unsigned with
  | '0' :: d :: rest => (d :: rest).all Char.isDigit
  | _ => false

def magnitude? (needlessZero : Bool) (unsigned : List Char) : Option Nat :=
  let based := match unsigned with
    | '0' :: 'x' :: digits => natural? 16 digits
    | '0' :: 'o' :: digits => natural? 8 digits
    | '0' :: 'b' :: digits => natural? 2 digits
    | _ => none
  match based with
  | some value => some value
  | none => if needlessZero then none else natural? 10 unsigned

/-- Splits a word into digits, with the number of them behind a point, and the power of ten. -/
def floatParts? (unsigned : List Char) : Option (List Char × Nat × Int) := do
  let (whole, rest) := unsigned.span Char.isDigit
  let (fraction, rest) := match rest with
    | '.' :: behind => behind.span Char.isDigit
    | rest => ([], rest)
  if whole.isEmpty && fraction.isEmpty then none
  let power ← match rest with
    | [] => some 0
    | e :: power =>
      if e = 'e' || e = 'E' then
        let (negative, digits) := match power with
          | '-' :: digits => (true, digits)
          | '+' :: digits => (false, digits)
          | digits => (false, digits)
        match natural? 10 digits with
        | some value => some (if negative then -(value : Int) else (value : Int))
        | none => none
      else none
  return (whole ++ fraction, fraction.length, power)

/-- Whether a word without its sign is a finite floating point number. -/
def isFloat (unsigned : List Char) : Bool :=
  match floatParts? unsigned with
  | none => false
  | some (digits, fraction, power) =>
    match natural? 10 digits with
    | none => false
    | some 0 => true
    | some significand =>
      let exponent := power - fraction
      -- Far outside of the range of exponents nothing has to be computed.
      if exponent + digits.length < -400 then true
      else if 400 < exponent then false
      else if 0 ≤ exponent then
        (Binary64.ofQuotient (significand * tenTo exponent.toNat) 1).isSome
      else (Binary64.ofQuotient significand (tenTo (-exponent).toNat)).isSome

/-- Whether a word is infinity or no number at all, in the spelling for such values. -/
def isSpecialFloat (word : String) : Bool :=
  [".inf", ".Inf", ".INF", "+.inf", "+.Inf", "+.INF", "-.inf", "-.Inf", "-.INF", ".nan", ".NaN",
    ".NAN"].contains word

def ofNumber (word : String) : Plain :=
  let needlessZero := hasNeedlessZero word.toList
  match word.toList with
  | '-' :: unsigned =>
    match magnitude? needlessZero unsigned with
    | some value => if value ≤ twoTo 127 || isFloat unsigned then .otherNumber else .text
    | none => if !needlessZero && isFloat unsigned then .otherNumber else .text
  | chars =>
    let unsigned := match chars with
      | '+' :: rest => rest
      | rest => rest
    match magnitude? needlessZero unsigned with
    | some value =>
      if value < twoTo 64 then .natural value
      else if value < twoTo 128 || isFloat unsigned then .otherNumber
      else .text
    | none => if !needlessZero && isFloat unsigned then .otherNumber else .text

/-- The meaning of a plain scalar. One that is not written at all is null. -/
def ofWord (word : String) : Plain :=
  if word = "" || isNull word then .null
  else
    match bool? word with
    | some value => .bool value
    | none => if isSpecialFloat word then .otherNumber else ofNumber word

end Plain

end SelectionPlan.Yaml
