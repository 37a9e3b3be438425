import Lockstep.Text.UpperTable

/-!
# Upper case

Full upper-casing, one character at a time: a character may become two or
three (`ß` becomes `SS`), and no neighbour is looked at.
-/

namespace Lockstep.Text

/-- Whether the run maps the code point `n`. -/
def CaseRun.covers (r : CaseRun) (n : Nat) : Bool :=
  r.first ≤ n && n ≤ r.last && (n - r.first) % r.step == 0

/-- The upper case of one character. -/
def upper (c : Char) : List Char :=
  let n := c.toNat
  if n < 0x80 then
    [if 0x61 ≤ n ∧ n ≤ 0x7A then Char.ofNat (n - 0x20) else c]
  else
    match caseExpansions.lookup n with
    | some image => image.map Char.ofNat
    | none =>
      match caseRuns.find? (·.covers n) with
      | some r => [Char.ofNat (r.image + (n - r.first))]
      | none => [c]

/-- The upper case of a text. -/
def uppercase (s : List Char) : List Char := s.flatMap upper

end Lockstep.Text
