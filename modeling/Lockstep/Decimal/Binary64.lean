import Lockstep.Decimal

/-!
# Double-precision numbers, exactly

A finite double is a whole number times a power of two, so rounding, products
and quotients are questions about natural numbers and are answered here
without an approximation.
-/

namespace Lockstep.Decimal

/-- A double. A finite one is `mantissa * 2 ^ exponent` with
`mantissa < 2 ^ 53` and `-1074 ≤ exponent ≤ 971`; below `2 ^ 52` the mantissa
only has the least exponent. -/
inductive Binary64 where
  | finite (negative : Bool) (mantissa : Nat) (exponent : Int)
  | infinite (negative : Bool)
  | nan
deriving DecidableEq

namespace Binary64

/-- The leading bit of a full mantissa, `2 ^ 52`. -/
def leadingBit : Nat := 4503599627370496

/-- Zero with a sign. -/
def zero (negative : Bool) : Binary64 := .finite negative 0 (-1074)

/-- Whether a double is zero of either sign. -/
def isZero : Binary64 → Bool
  | .finite _ 0 _ => true
  | _ => false

/-- Whether a double is an infinity. -/
def isInfinite : Binary64 → Bool
  | .infinite _ => true
  | _ => false

/-- The quotient to the nearest whole number; a half goes to the even one. -/
def roundQuotient (a b : Nat) : Nat :=
  let q := a / b
  let r := a % b
  if 2 * r < b then q else if b < 2 * r then q + 1 else q + q % 2

/-- The fraction `num / den` over the unit `2 ^ e`, as a fraction again. -/
def overUnit (num den : Nat) (e : Int) : Nat × Nat :=
  if 0 ≤ e then (num,den * Nat.pow 2 e.toNat) else (num * Nat.pow 2 (-e).toNat,den)

/-- The exponent at which the mantissa of `num / den` has 53 bits, or the least
exponent if that is below it. -/
def unitOf (num den : Nat) : Int :=
  let guess : Int := (Nat.log2 num : Int) - Nat.log2 den - 52
  let (a,b) := overUnit num den guess
  max (if a < leadingBit * b then guess - 1 else guess) (-1074)

/-- The double nearest to `num / den`, an even mantissa winning a tie. -/
def ofRatio (negative : Bool) (num den : Nat) : Binary64 :=
  if num = 0 then zero negative
  else
    let e := unitOf num den
    let (a,b) := overUnit num den e
    let m := roundQuotient a b
    let (m,e) := if m = 2 * leadingBit then (leadingBit,e + 1) else (m,e)
    if 971 < e then .infinite negative else .finite negative m e

/-- The double nearest to a whole number. -/
def ofNat (n : Nat) : Binary64 := ofRatio false n 1

/-- The double nearest to `digits * 10 ^ exponent`. Exponents that leave the
range of doubles whatever the rounding are not computed. -/
def ofDecimal (negative : Bool) (digits : Nat) (exponent : Int) : Binary64 :=
  let top := (Nat.toDigits 10 digits).length + exponent
  if digits = 0 then zero negative
  else if 400 < top then .infinite negative
  else if top < -400 then zero negative
  else if 0 ≤ exponent then ofRatio negative (digits * Nat.pow 10 exponent.toNat) 1
  else ofRatio negative digits (Nat.pow 10 (-exponent).toNat)

/-- The sign in front of a number and the number; `true` is minus. -/
def splitSign : List Char → Bool × List Char
  | '-' :: s => (true,s)
  | '+' :: s => (false,s)
  | s => (false,s)

/-- Reads a decimal number without its sign. There is a digit before or after
the point, and an exponent may follow. -/
def ofDigits? (negative : Bool) (s : List Char) : Option Binary64 :=
  let whole := s.takeWhile Char.isDigit
  let rest := s.dropWhile Char.isDigit
  let (fraction,rest) := match rest with
    | '.' :: r => (r.takeWhile Char.isDigit,r.dropWhile Char.isDigit)
    | r => ([],r)
  let exponent? : Option Int := match rest with
    | [] => some 0
    | c :: r =>
      if c = 'e' ∨ c = 'E' then
        let (below,ds) := splitSign r
        (read? ds).map fun (n : Nat) => if below then -(n : Int) else n
      else none
  if whole.isEmpty ∧ fraction.isEmpty then none
  else exponent?.map fun e =>
    .ofDecimal negative (Decimal.ofDigits (whole ++ fraction)) (e - fraction.length)

/-- The names of what has no digits, in lower case. -/
def named (negative : Bool) : List (String × Binary64) :=
  [("inf",.infinite negative),("infinity",.infinite negative),("nan",.nan)]

/-- Reads a double with or without a sign: a decimal number, or a name in letters
of any case. -/
def ofText? (s : List Char) : Option Binary64 :=
  let (negative,s) := splitSign s
  match (named negative).lookup (String.ofList (s.map Char.toLower)) with
  | some x => some x
  | none => ofDigits? negative s

/-- The value `mantissa * 2 ^ exponent` as a fraction. -/
def ratio (mantissa : Nat) (exponent : Int) : Nat × Nat :=
  if 0 ≤ exponent then (mantissa * Nat.pow 2 exponent.toNat,1)
  else (mantissa,Nat.pow 2 (-exponent).toNat)

/-- A double with the given sign. -/
def withSign (negative : Bool) : Binary64 → Binary64
  | .finite _ m e => .finite negative m e
  | .infinite _ => .infinite negative
  | .nan => .nan

/-- The double nearest to the product of the magnitudes of two finite doubles. -/
def mul : Binary64 → Binary64 → Binary64
  | .finite s m e,.finite s' m' e' =>
    let (a,b) := ratio m e
    let (c,d) := ratio m' e'
    ofRatio (s != s') (a * c) (b * d)
  | _,_ => .nan

/-- The double nearest to the quotient of two finite doubles, the second of
which is not zero. -/
def div : Binary64 → Binary64 → Binary64
  | .finite s m e,.finite s' m' e' =>
    let (a,b) := ratio m e
    let (c,d) := ratio m' e'
    if c = 0 then .nan else ofRatio (s != s') (a * d) (b * c)
  | _,_ => .nan

end Binary64

end Lockstep.Decimal
