/-!
# Decimal numerals

Natural numbers as decimal digits, and back.
-/

namespace Lockstep.Decimal

/-- The digits of a number, the most significant first. -/
def digits (n : Nat) : List Char := Nat.toDigits 10 n

/-- The decimal text of a number. -/
def text (n : Nat) : String := String.ofList (digits n)

/-- What one decimal digit stands for. -/
def digitValue (c : Char) : Nat := c.toNat - '0'.toNat

/-- The number that a list of digit values writes, read after `start`. -/
def ofValues (start : Nat) (values : List Nat) : Nat :=
  values.foldl (fun n d => 10 * n + d) start

/-- The number that a list of digits writes. -/
def ofDigits (ds : List Char) : Nat := ofValues 0 (ds.map digitValue)

/-- Reads one or more digits and nothing else; leading zeros are allowed. -/
def read? (s : List Char) : Option Nat :=
  if s ≠ [] ∧ s.all Char.isDigit then some (ofDigits s) else none

/-- Reads a number below `2 ^ 64`, which may have a plus sign. -/
def readWord? (s : List Char) : Option UInt64 :=
  let unsigned := match s with
    | '+' :: rest => rest
    | _ => s
  (read? unsigned).bind fun n => if n < UInt64.size then some (UInt64.ofNat n) else none

end Lockstep.Decimal
