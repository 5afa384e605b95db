import SelectionPlan.Json.Fault
import SelectionPlan.Text.Bytes
import SelectionPlan.Text.Digits

/-!
# Strings and numbers in JSON texts

Each of them is read by one who needs its value, and passed over by one who does not. The second is
less strict: half of a surrogate pair and a number out of range are no characters and no numbers,
but they can be passed over.
-/
namespace SelectionPlan.Json

namespace Scalar

/-! ## Strings -/

/-- Whether four bytes or more come before the end of the text. -/
def hasFourBytes (text : List Char) : Bool :=
  decide (4 ≤ Text.byteSize (text.take 4))

/-- Reads four hexadecimal digits. Fewer than four bytes before the end of the text are no digits
at all, whatever they are. -/
def hexUnit (text : List Char) : Except Fault (Nat × List Char) :=
  if hasFourBytes text then
    match Text.number? 16 (text.take 4) with
    | some unit => .ok (unit, text.drop 4)
    | none => .error .malformed
  else .error .truncated

/-- Whether a unit of two bytes is the first half of a surrogate pair. -/
def isLeading (unit : Nat) : Bool := 0xD800 ≤ unit && unit ≤ 0xDBFF

/-- Whether a unit of two bytes is the second half of a surrogate pair. -/
def isTrailing (unit : Nat) : Bool := 0xDC00 ≤ unit && unit ≤ 0xDFFF

/-- Reads the character that is escaped by its units, after the first `\u`. -/
def unicodeEscape (text : List Char) : Except Fault (Char × List Char) := do
  let (first, rest) ← hexUnit text
  if isTrailing first then throw .malformed
  if isLeading first then
    match rest with
    | [] => throw .truncated
    | ['\\'] => throw .truncated
    | '\\' :: 'u' :: more =>
      let (second, after) ← hexUnit more
      if isTrailing second then
        return (Char.ofNat (0x10000 + (first - 0xD800) * 0x400 + (second - 0xDC00)), after)
      else throw .malformed
    | _ => throw .malformed
  else return (Char.ofNat first, rest)

/-- The character that a backslash makes of a letter other than `u`. -/
def simpleEscape? (c : Char) : Option Char :=
  match c with
  | '"' => some '"'
  | '\\' => some '\\'
  | '/' => some '/'
  | 'b' => some '\x08'
  | 'f' => some '\x0c'
  | 'n' => some '\n'
  | 'r' => some '\r'
  | 't' => some '\t'
  | _ => none

/-- Reads the rest of a string, up to its closing quote. Every round consumes a character, so the
length of the text is fuel enough. -/
def readString : Nat → List Char → Except Fault (List Char × List Char)
  | 0, _ => .error .truncated
  | _ + 1, [] => .error .truncated
  | fuel + 1, c :: rest =>
    if c = '"' then .ok ([], rest)
    else if c = '\\' then
      match rest with
      | [] => .error .truncated
      | 'u' :: digits => do
        let (value, after) ← unicodeEscape digits
        let (values, done) ← readString fuel after
        return (value :: values, done)
      | letter :: after =>
        match simpleEscape? letter with
        | none => .error .malformed
        | some value => do
          let (values, done) ← readString fuel after
          return (value :: values, done)
    else if c.toNat < 0x20 then .error .malformed
    else do
      let (values, done) ← readString fuel rest
      return (c :: values, done)

/-- Passes over the rest of a string. Escaped units need not be characters. -/
def skipString : Nat → List Char → Except Fault (List Char)
  | 0, _ => .error .truncated
  | _ + 1, [] => .error .truncated
  | fuel + 1, c :: rest =>
    if c = '"' then .ok rest
    else if c = '\\' then
      match rest with
      | [] => .error .truncated
      | 'u' :: digits => do
        let (_, after) ← hexUnit digits
        skipString fuel after
      | letter :: after =>
        if (simpleEscape? letter).isSome then skipString fuel after else .error .malformed
    else if c.toNat < 0x20 then .error .malformed
    else skipString fuel rest

/-! ## Numbers -/

/-- Decimal digits at the front of a text, and what follows them. -/
def spanDigits (text : List Char) : List Char × List Char :=
  text.span Char.isDigit

/-- Appends digits to a significand as long as it fits into 64 bits. The digits that are left are
returned. -/
def accumulate (significand : Nat) : List Char → Nat × List Char
  | [] => (significand, [])
  | d :: rest =>
    let next := significand * 10 + (d.toNat - '0'.toNat)
    if next < twoTo 64 then accumulate next rest else (significand, d :: rest)

def float (negative : Bool) (significand : Nat) (exponent : Int) : Except Fault Number :=
  match floatOf significand exponent with
  | some x => .ok (.float { x with negative := negative })
  | none => .error .malformed

def readExponent (negative : Bool) (significand : Nat) (exponent : Int) (text : List Char) :
    Except Fault (Number × List Char) := do
  let (minus, unsigned) := match text with
    | '+' :: rest => (false, rest)
    | '-' :: rest => (true, rest)
    | rest => (false, rest)
  match spanDigits unsigned with
  | ([], []) => throw .truncated
  | ([], _) => throw .malformed
  | (digits, rest) =>
    let power : Int := (Nat.ofDigitChars 10 digits 0 : Nat)
    let exponent := if minus then exponent - power else exponent + power
    return (← float negative significand exponent, rest)

def readPower (negative : Bool) (significand : Nat) (exponent : Int) :
    List Char → Except Fault (Number × List Char)
  | 'e' :: rest => readExponent negative significand exponent rest
  | 'E' :: rest => readExponent negative significand exponent rest
  | rest => do return (← float negative significand exponent, rest)

def readFraction (negative : Bool) (significand : Nat) (exponent : Int) (text : List Char) :
    Except Fault (Number × List Char) := do
  match spanDigits text with
  | ([], []) => throw .truncated
  | ([], _) => throw .malformed
  | (digits, rest) =>
    let (longer, dropped) := accumulate significand digits
    -- Digits beyond those that fit are dropped, which changes no power after the point.
    readPower negative longer (exponent - (digits.length - dropped.length : Nat)) rest

def readNumber (negative : Bool) (text : List Char) : Except Fault (Number × List Char) := do
  match spanDigits text with
  | ([], []) => throw .truncated
  | ([], _) => throw .malformed
  | ('0' :: _ :: _, _) => throw .malformed
  | (digits, rest) =>
    let (significand, dropped) := accumulate 0 digits
    let exponent : Int := (dropped.length : Nat)
    match rest with
    | '.' :: fraction => readFraction negative significand exponent fraction
    | 'e' :: power => readExponent negative significand exponent power
    | 'E' :: power => readExponent negative significand exponent power
    | rest =>
      if dropped.isEmpty then
        if !negative then return (.natural significand, rest)
        else if 0 < significand && significand ≤ twoTo 63 then return (.negative significand, rest)
        else return (← float negative significand 0, rest)
      else return (← float negative significand exponent, rest)

def skipDigits (text : List Char) : Except Fault (List Char) :=
  match spanDigits text with
  | ([], _) => .error .malformed
  | (_, rest) => .ok rest

def skipExponent : List Char → Except Fault (List Char)
  | '+' :: rest => skipDigits rest
  | '-' :: rest => skipDigits rest
  | rest => skipDigits rest

def skipNumber (text : List Char) : Except Fault (List Char) := do
  match spanDigits text with
  | ([], _) => throw .malformed
  | ('0' :: _ :: _, _) => throw .malformed
  | (_, '.' :: fraction) =>
    match ← skipDigits fraction with
    | 'e' :: power => skipExponent power
    | 'E' :: power => skipExponent power
    | rest => return rest
  | (_, 'e' :: power) => skipExponent power
  | (_, 'E' :: power) => skipExponent power
  | (_, rest) => return rest

end Scalar

end SelectionPlan.Json
