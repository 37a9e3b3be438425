import Lockstep.Json.Number

/-!
# Passing over a value

A value nobody asked for is only checked for its form: numbers of any size and
strings that are no text pass. Brackets left open are kept in a list, so the
depth of nesting has no limit. `skipValue` answers with what follows the value.
-/

namespace Lockstep.Json

/-- A bracket that is open. -/
inductive Bracket where
  | list
  | object
deriving DecidableEq, Repr

namespace Bracket

/-- The byte that opens a bracket. -/
def opening : Bracket → UInt8
  | .list => 0x5B
  | .object => 0x7B

/-- The byte that closes a bracket. -/
def closing : Bracket → UInt8
  | .list => 0x5D
  | .object => 0x7D

/-- The fault of a text that ends inside a bracket. -/
def atEnd : Bracket → Fault
  | .list => .endInList
  | .object => .endInObject

/-- The fault of anything but a comma or the closing byte after an element. -/
def expectedEnd : Bracket → Fault
  | .list => .expectedListEnd
  | .object => .expectedObjectEnd

/-- The bracket that a byte opens. -/
def ofOpening? (b : UInt8) : Option Bracket :=
  if b = opening .list then some .list
  else if b = opening .object then some .object
  else none

end Bracket

/-- Passes over the colon between a member's name and its value. -/
def readColon (s : List UInt8) : Except Fault (List UInt8) :=
  match skipSpace s with
  | [] => .error .endInObject
  | b :: s => if b = ascii ':' then .ok s else .error .expectedColon

theorem length_readColon {s t : List UInt8} (read : readColon s = .ok t) : t.length < s.length := by
  have space := length_skipSpace_le s
  unfold readColon at read
  split at read
  · cases read
  · next begun =>
    split at read
    · cases read; rw [begun] at space; exact space
    · cases read

/-- Passes over a member's name and its colon. -/
def skipName (s : List UInt8) : Except Fault (List UInt8) :=
  match skipSpace s with
  | [] => .error .endInObject
  | b :: s =>
    if b = ascii '"' then
      match skipString s with
      | .error f => .error f
      | .ok s => readColon s
    else .error .keyNotString

theorem length_skipName {s t : List UInt8} (skipped : skipName s = .ok t) : t.length < s.length := by
  have space := length_skipSpace_le s
  unfold skipName at skipped
  split at skipped
  · cases skipped
  · next begun =>
    rw [begun,List.length_cons] at space
    split at skipped
    · split at skipped
      · cases skipped
      · next text =>
        have := length_skipString text
        have := length_readColon skipped
        omega
    · cases skipped

/-- Passes over what comes before an element of a bracket. -/
def skipLead : Bracket → List UInt8 → Except Fault (List UInt8)
  | .list,s => .ok s
  | .object,s => skipName s

theorem length_skipLead_le {k : Bracket} {s t : List UInt8} (skipped : skipLead k s = .ok t) :
    t.length ≤ s.length := by
  cases k with
  | list => cases skipped; exact Nat.le_refl _
  | object => exact Nat.le_of_lt (length_skipName skipped)

/-- Passes over a value that is no list and no object. -/
def skipScalar (s : List UInt8) : Except Fault (List UInt8) :=
  match s with
  | [] => .error .endInValue
  | b :: t =>
    if b = ascii 'n' then readWord (word "ull") t
    else if b = ascii 't' then readWord (word "rue") t
    else if b = ascii 'f' then readWord (word "alse") t
    else if b = ascii '"' then skipString t
    else if b = ascii '-' ∨ isDigit b then
      match readLiteral .badNumber s with
      | .error f => .error f
      | .ok (_,t) => .ok t
    else .error .expectedValue

theorem length_skipScalar {s t : List UInt8} (skipped : skipScalar s = .ok t) :
    t.length < s.length := by
  unfold skipScalar at skipped
  split at skipped
  · cases skipped
  · split at skipped
    · exact Nat.lt_succ_of_le (length_readWord_le skipped)
    · split at skipped
      · exact Nat.lt_succ_of_le (length_readWord_le skipped)
      · split at skipped
        · exact Nat.lt_succ_of_le (length_readWord_le skipped)
        · split at skipped
          · exact Nat.lt_succ_of_lt (length_skipString skipped)
          · split at skipped
            · split at skipped
              · cases skipped
              · next literal => cases skipped; exact length_readLiteral literal
            · cases skipped

/-- After a value: closes brackets until a comma announces another element.
The answer holds the brackets still open and the place where the next value
starts, or the end where none is open. -/
def skipClosed : List Bracket → List UInt8 → Except Fault (List Bracket × List UInt8)
  | [],s => .ok ([],s)
  | k :: ks,s =>
    match skipSpace s with
    | [] => .error k.atEnd
    | b :: t =>
      if b = ascii ',' then
        match skipLead k t with
        | .error f => .error f
        | .ok u => .ok (k :: ks,u)
      else if b = k.closing then skipClosed ks t
      else .error k.expectedEnd

theorem length_skipClosed_le {ks js : List Bracket} {s t : List UInt8}
    (skipped : skipClosed ks s = .ok (js,t)) : t.length ≤ s.length := by
  induction ks generalizing s with
  | nil => cases skipped; exact Nat.le_refl _
  | cons k ks ih =>
    have space := length_skipSpace_le s
    unfold skipClosed at skipped
    split at skipped
    · cases skipped
    · next begun =>
      rw [begun,List.length_cons] at space
      split at skipped
      · split at skipped
        · cases skipped
        · next lead => cases skipped; have := length_skipLead_le lead; omega
      · split at skipped
        · have := ih skipped; omega
        · cases skipped

/-- Passes over a scalar or an opening bracket and all that closes with it. -/
def skipStep (ks : List Bracket) (s : List UInt8) : Except Fault (List Bracket × List UInt8) :=
  match skipSpace s with
  | [] => .error .endInValue
  | b :: t =>
    match Bracket.ofOpening? b with
    | some k =>
      match skipSpace t with
      | [] => .error k.atEnd
      | c :: u =>
        if c = k.closing then skipClosed ks u
        else match skipLead k (c :: u) with
          | .error f => .error f
          | .ok u => .ok (k :: ks,u)
    | none =>
      match skipScalar (b :: t) with
      | .error f => .error f
      | .ok u => skipClosed ks u

theorem length_skipStep {ks js : List Bracket} {s t : List UInt8}
    (skipped : skipStep ks s = .ok (js,t)) : t.length < s.length := by
  have space := length_skipSpace_le s
  unfold skipStep at skipped
  split at skipped
  · cases skipped
  · next b u begun =>
    rw [begun,List.length_cons] at space
    split at skipped
    · have inner := length_skipSpace_le u
      split at skipped
      · cases skipped
      · next within =>
        rw [within,List.length_cons] at inner
        split at skipped
        · have := length_skipClosed_le skipped; omega
        · split at skipped
          · cases skipped
          · next lead =>
            cases skipped
            have := length_skipLead_le lead
            simp only [List.length_cons] at this
            omega
    · split at skipped
      · cases skipped
      · next scalar =>
        have := length_skipScalar scalar
        have := length_skipClosed_le skipped
        simp only [List.length_cons] at *
        omega

/-- Passes over values until no bracket is open. -/
def skipOpen (ks : List Bracket) (s : List UInt8) : Except Fault (List UInt8) :=
  match _h : skipStep ks s with
  | .error f => .error f
  | .ok ([],t) => .ok t
  | .ok (k :: ks,t) => skipOpen (k :: ks) t
termination_by s.length
decreasing_by exact length_skipStep _h

theorem length_skipOpen {ks : List Bracket} {s t : List UInt8} (skipped : skipOpen ks s = .ok t) :
    t.length < s.length := by
  fun_induction skipOpen ks s with
  | case1 => cases skipped
  | case2 ks s t' step => cases skipped; exact length_skipStep step
  | case3 ks s k js u step ih => exact Nat.lt_trans (ih skipped) (length_skipStep step)

/-- Passes over one value, spaces before it included. -/
def skipValue (s : List UInt8) : Except Fault (List UInt8) := skipOpen [] s

end Lockstep.Json
