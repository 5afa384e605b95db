/-!
# Digits

Values of digits in some base up to sixteen, with letters of either case for those from ten on, and
of numbers that are written with them.
-/
namespace SelectionPlan.Text

def digit? (base : Nat) (c : Char) : Option Nat :=
  let value :=
    if c.isDigit then c.toNat - '0'.toNat
    else if 'a' ≤ c && c ≤ 'f' then c.toNat - 'a'.toNat + 10
    else if 'A' ≤ c && c ≤ 'F' then c.toNat - 'A'.toNat + 10
    else base
  if value < base then some value else none

/-- The number that a row of digits stands for; nothing if one of the characters is no digit. -/
def number? (base : Nat) (digits : List Char) : Option Nat := do
  let values ← digits.mapM (digit? base)
  return values.foldl (fun number value => number * base + value) 0

end SelectionPlan.Text
