import Lockstep.Decimal
import Lockstep.Decimal.Binary64
import Lockstep.Json.Token

/-!
# Numbers

The written form of a number and its value. A whole number that fits in 64 bits
is kept as it is; everything else becomes a double.
-/

namespace Lockstep.Json

open Lockstep.Decimal (Binary64)

/-- A number as it is written, by the values of its digits. `fraction` is empty
where there is no point; the exponent has a sign and digits. -/
structure Literal where
  negative : Bool
  whole : List Nat
  fraction : List Nat
  exponent : Option (Bool × List Nat)
deriving DecidableEq

/-- The value of a number: `unsigned n` is `n`, `negative n` is `-n` with
`0 < n ≤ 2 ^ 63`. -/
inductive Number where
  | unsigned (n : Nat)
  | negative (n : Nat)
  | float (x : Binary64)
deriving DecidableEq

/-- Whether a byte is a decimal digit. -/
def isDigit (b : UInt8) : Bool := 0x30 ≤ b.toNat && b.toNat ≤ 0x39

/-- The digits at the front, as values, and what follows them. -/
def spanDigits (s : List UInt8) : List Nat × List UInt8 :=
  ((s.takeWhile isDigit).map (fun b => b.toNat - 0x30),s.dropWhile isDigit)

theorem length_spanDigits (s : List UInt8) :
    (spanDigits s).1.length + (spanDigits s).2.length = s.length := by
  simp only [spanDigits,List.length_map]
  rw [← List.length_append,List.takeWhile_append_dropWhile]

/-- What a missing digit means: `atEnd` where the text has ended. -/
def noDigit (atEnd : Fault) (s : List UInt8) : Fault :=
  if s.isEmpty then atEnd else .badNumber

/-- Whether a minus sign stands in front, and what follows it. -/
def splitMinus (s : List UInt8) : Bool × List UInt8 :=
  match s with
  | [] => (false,[])
  | b :: t => if b = ascii '-' then (true,t) else (false,s)

/-- Whether a minus sign stands in front, and what follows the sign, a plus
included. -/
def splitSign (s : List UInt8) : Bool × List UInt8 :=
  match s with
  | [] => (false,[])
  | b :: t =>
    if b = ascii '-' then (true,t) else if b = ascii '+' then (false,t) else (false,s)

theorem length_splitMinus_le (s : List UInt8) : (splitMinus s).2.length ≤ s.length := by
  unfold splitMinus
  split
  · simp
  · split <;> simp

theorem length_splitSign_le (s : List UInt8) : (splitSign s).2.length ≤ s.length := by
  unfold splitSign
  split
  · simp
  · split
    · simp
    · split <;> simp

/-- Reads the exponent, if there is one. -/
def readExponent (atEnd : Fault) (s : List UInt8) :
    Except Fault (Option (Bool × List Nat) × List UInt8) :=
  match s with
  | [] => .ok (none,[])
  | b :: t =>
    if b = ascii 'e' ∨ b = ascii 'E' then
      let (negative,t) := splitSign t
      let (ds,u) := spanDigits t
      if ds.isEmpty then .error (noDigit atEnd u) else .ok (some (negative,ds),u)
    else .ok (none,s)

/-- Reads the digits after the point, if there is one. -/
def readFraction (atEnd : Fault) (s : List UInt8) : Except Fault (List Nat × List UInt8) :=
  match s with
  | [] => .ok ([],[])
  | b :: t =>
    if b = ascii '.' then
      let (ds,u) := spanDigits t
      if ds.isEmpty then .error (noDigit atEnd u) else .ok (ds,u)
    else .ok ([],s)

/-- Reads the digits before the point; a zero stands alone. -/
def readWhole (atEnd : Fault) (s : List UInt8) : Except Fault (List Nat × List UInt8) :=
  let (ds,t) := spanDigits s
  match ds with
  | [] => .error (noDigit atEnd t)
  | 0 :: _ :: _ => .error .badNumber
  | ds => .ok (ds,t)

/-- Reads a number; `atEnd` is the fault of a text that ends before a digit
that has to come. -/
def readLiteral (atEnd : Fault) (s : List UInt8) : Except Fault (Literal × List UInt8) :=
  let (negative,s) := splitMinus s
  match readWhole atEnd s with
  | .error f => .error f
  | .ok (whole,s) =>
    match readFraction atEnd s with
    | .error f => .error f
    | .ok (fraction,s) =>
      match readExponent atEnd s with
      | .error f => .error f
      | .ok (exponent,s) => .ok (⟨negative,whole,fraction,exponent⟩,s)

theorem length_readExponent {f : Fault} {s t : List UInt8} {e : Option (Bool × List Nat)}
    (read : readExponent f s = .ok (e,t)) : t.length ≤ s.length := by
  unfold readExponent at read
  split at read
  · cases read; simp
  · next b u =>
    split at read
    · simp only at read
      split at read
      · cases read
      · simp only [Except.ok.injEq,Prod.mk.injEq] at read
        obtain ⟨_,rfl⟩ := read
        have := length_spanDigits (splitSign u).2
        have := length_splitSign_le u
        simp only [List.length_cons]
        omega
    · cases read; simp

theorem length_readFraction {f : Fault} {s t : List UInt8} {ds : List Nat}
    (read : readFraction f s = .ok (ds,t)) : t.length ≤ s.length := by
  unfold readFraction at read
  split at read
  · cases read; simp
  · next b u =>
    split at read
    · have bound := length_spanDigits u
      simp only at read
      split at read
      · cases read
      · cases read; simp only [List.length_cons]; omega
    · cases read; simp

theorem length_readWhole {f : Fault} {s t : List UInt8} {ds : List Nat}
    (read : readWhole f s = .ok (ds,t)) : t.length < s.length := by
  have bound := length_spanDigits s
  unfold readWhole at read
  simp only at read
  split at read
  · cases read
  · cases read
  · next some_digit _ =>
    cases read
    have : (spanDigits s).1.length ≠ 0 := by
      rw [Ne,List.length_eq_zero_iff]; exact some_digit
    omega

theorem length_readLiteral {f : Fault} {s t : List UInt8} {n : Literal}
    (read : readLiteral f s = .ok (n,t)) : t.length < s.length := by
  unfold readLiteral at read
  simp only at read
  split at read
  · cases read
  · next whole =>
    split at read
    · cases read
    · next fraction =>
      split at read
      · cases read
      · next exponent =>
        cases read
        have a := length_readWhole whole
        have b := length_readFraction fraction
        have c := length_readExponent exponent
        have d := length_splitMinus_le s
        omega

/-! ## Values -/

/-- Appends digits to a number as long as it stays below `2 ^ 64`; the digits
that no longer fit are left over. -/
def appendDigits : Nat → List Nat → Nat × List Nat
  | n,[] => (n,[])
  | n,d :: ds => if 10 * n + d < UInt64.size then appendDigits (10 * n + d) ds else (n,d :: ds)

/-- The double nearest to a power of ten. -/
def powerOfTen (k : Nat) : Binary64 := .ofNat (Nat.pow 10 k)

/-- A double divided by `10 ^ k`, at most 308 places at a time. -/
def scaleDown (x : Binary64) (k : Nat) : Binary64 :=
  if k ≤ 308 then x.div (powerOfTen k)
  else if x.isZero then x
  else scaleDown (x.div (powerOfTen 308)) (k - 308)
termination_by k

/-- The double for `significand * 10 ^ exponent`: the significand is rounded
first, then the product or quotient. -/
def scaled (negative : Bool) (significand : Nat) (exponent : Int) : Except Fault Number :=
  let x := Binary64.ofNat significand
  if exponent < 0 then .ok (.float ((scaleDown x exponent.natAbs).withSign negative))
  else if significand = 0 then .ok (.float (.zero negative))
  else if 308 < exponent then .error .numberOutOfRange
  else
    let y := x.mul (powerOfTen exponent.toNat)
    if y.isInfinite then .error .numberOutOfRange else .ok (.float (y.withSign negative))

/-- The value of a written number. Digits past the first nineteen or twenty
only count as places, an exponent past `2 ^ 31` as infinitely far. -/
def Literal.value (n : Literal) : Except Fault Number :=
  let (significand,dropped) := appendDigits 0 n.whole
  match n.fraction,n.exponent with
  | [],none =>
    if dropped ≠ [] then scaled n.negative significand dropped.length
    else if !n.negative then .ok (.unsigned significand)
    else if significand = 0 ∨ UInt64.size / 2 < significand then
      .ok (.float ((Binary64.ofNat significand).withSign true))
    else .ok (.negative significand)
  | fraction,exponent =>
    let (significand,ignored) := appendDigits significand fraction
    let places : Int := dropped.length - (fraction.length - ignored.length : Nat)
    match exponent with
    | none => scaled n.negative significand places
    | some (below,ds) =>
      let size := Decimal.ofValues 0 ds
      if UInt32.size / 2 ≤ size then
        if significand ≠ 0 ∧ !below then .error .numberOutOfRange
        else .ok (.float (.zero n.negative))
      else scaled n.negative significand (if below then places - size else places + size)

/-- Reads a number and its value. -/
def readNumber (s : List UInt8) : Except Fault (Number × List UInt8) :=
  match readLiteral .endInValue s with
  | .error f => .error f
  | .ok (n,s) =>
    match n.value with
    | .error f => .error f
    | .ok x => .ok (x,s)

theorem length_readNumber {s t : List UInt8} {n : Number} (read : readNumber s = .ok (n,t)) :
    t.length < s.length := by
  unfold readNumber at read
  split at read
  · cases read
  · next literal =>
    split at read
    · cases read
    · cases read; exact length_readLiteral literal

end Lockstep.Json
