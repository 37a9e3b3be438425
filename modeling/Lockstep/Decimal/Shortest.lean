import Lockstep.Decimal
import Lockstep.Decimal.Binary64

/-!
# The shortest decimal of a double

The fewest digits that no other double is nearer to, and of those the digits
nearest to the double itself. The reals that round to a double are an
interval; on each decimal grid, from coarse to fine, only the two neighbours
of the double need to be looked at.
-/

namespace Lockstep.Decimal

/-- The decimal number `digits * 10 ^ exponent`. -/
structure Scientific where
  digits : Nat
  exponent : Int
deriving DecidableEq

/-- The greatest `p` with `10 ^ p ≤ num / den`, for `num` not zero. -/
def leadingPlace (num den : Nat) : Int :=
  if den ≤ num then ((Nat.toDigits 10 (num / den)).length : Int) - 1
  else
    match (List.range 400).find? fun j => den ≤ num * Nat.pow 10 j with
    | some j => -(j : Int)
    | none => -400

/-- Digits without the zeros at their end. -/
def stripZeros : Nat → Scientific → Scientific
  | 0,x => x
  | steps + 1,x =>
    if x.digits ≠ 0 ∧ x.digits % 10 = 0 then stripZeros steps ⟨x.digits / 10,x.exponent + 1⟩
    else x

/-- The neighbour on the grid of `10 ^ k` that rounds to the double
`mantissa * 2 ^ exponent`, if there is one. Distances are taken in quarters of
the double's last place, since the interval reaches half a place up and, under
a power of two, a quarter down. -/
def onGrid? (mantissa : Nat) (exponent : Int) (k : Int) : Option Scientific :=
  let unit := exponent - 2
  let step := (if 0 ≤ k then Nat.pow 10 k.toNat else 1) *
    (if unit < 0 then Nat.pow 2 (-unit).toNat else 1)
  let scale := (if k < 0 then Nat.pow 10 (-k).toNat else 1) *
    (if 0 ≤ unit then Nat.pow 2 unit.toNat else 1)
  let value := 4 * mantissa * scale
  let low := (4 * mantissa - if mantissa = Binary64.leadingBit ∧ -1074 < exponent then 1 else 2) * scale
  let high := (4 * mantissa + 2) * scale
  let even := mantissa % 2 = 0
  let inside (x : Nat) : Bool := (low < x && x < high) || (even && (x == low || x == high))
  let below := value / step
  let above := below + 1
  match inside (below * step),inside (above * step) with
  | true,true =>
    let down := value - below * step
    let up := above * step - value
    some ⟨if down < up ∨ (down = up ∧ below % 2 = 0) then below else above,k⟩
  | true,false => some ⟨below,k⟩
  | false,true => some ⟨above,k⟩
  | false,false => none

/-- The shortest decimal of the double `mantissa * 2 ^ exponent`. Seventeen
digits tell any two doubles apart. -/
def shortest (mantissa : Nat) (exponent : Int) : Scientific :=
  if mantissa = 0 then ⟨0,0⟩
  else
    let (num,den) := Binary64.ratio mantissa exponent
    let top := leadingPlace num den
    match (List.range 17).findSome? fun (i : Nat) => onGrid? mantissa exponent (top - (i : Int)) with
    | some x => stripZeros 17 x
    | none => ⟨0,0⟩

/-- Digits with a point after the first `places` of them, zeros filling up. -/
def positional (ds : List Char) (places : Int) : List Char × List Char :=
  if places ≤ 0 then (['0'],List.replicate (-places).toNat '0' ++ ds)
  else if ds.length ≤ places.toNat then (ds ++ List.replicate (places.toNat - ds.length) '0',[])
  else (ds.take places.toNat,ds.drop places.toNat)

/-- A double without an exponent and with a point only where digits follow. -/
def plainText : Binary64 → String
  | .nan => "NaN"
  | .infinite negative => if negative then "-inf" else "inf"
  | .finite negative m e =>
    let x := shortest m e
    let ds := digits x.digits
    let (whole,fraction) := positional ds (ds.length + x.exponent)
    let body := if fraction.isEmpty then whole else whole ++ '.' :: fraction
    String.ofList (if negative then '-' :: body else body)

/-- A finite double that can be told from a whole number: with at least one
digit after the point, or with a signed exponent where the first digit's place
is above `10 ^ 15` or below `10 ^ -5`. -/
def pointedText : Binary64 → String
  | .nan => "null"
  | .infinite _ => "null"
  | .finite negative m e =>
    let x := shortest m e
    let ds := digits x.digits
    let place : Int := ds.length - 1 + x.exponent
    let body :=
      if -5 ≤ place ∧ place ≤ 15 then
        let (whole,fraction) := positional ds (place + 1)
        whole ++ '.' :: if fraction.isEmpty then ['0'] else fraction
      else
        ds.take 1 ++ (if ds.length = 1 then [] else '.' :: ds.drop 1) ++
          ['e',if place < 0 then '-' else '+'] ++ digits place.natAbs
    String.ofList (if negative then '-' :: body else body)

end Lockstep.Decimal
