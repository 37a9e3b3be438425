import Lockstep.Text.Blank
import Lockstep.Text.Hex

/-!
# Atoms of patterns

The smallest parts of a pattern: characters, classes of characters with a name,
and conditions on a place. What is allowed hangs on the mode, which a pattern
can change as it goes.
-/

namespace Lockstep.Log.Pattern

/-- How a pattern is read. A verbose one may hold blanks and remarks. One that is
not about Unicode is about bytes and must not match what is no text. One that
does not tell the cases of letters apart is called folding. -/
structure Mode where
  verbose : Bool := false
  unicode : Bool := true
  folding : Bool := false
deriving DecidableEq, Repr

/-- Whether a pattern may hold characters in a mode. Where case does not count in
all of Unicode it would take a table of letters, and there is none. -/
def Mode.namesChars (m : Mode) : Bool := !(m.unicode && m.folding)

/-! ## Blanks and remarks -/

/-- What is left after blanks and remarks. A remark goes from a number sign to
the end of its line; `remark` says whether the text starts in one. -/
def afterIdle : Bool → List Char → List Char
  | _,[] => []
  | true,c :: s => afterIdle (c != '\n') s
  | false,c :: s =>
    if Text.isBlank c then afterIdle false s
    else if c = '#' then afterIdle true s
    else c :: s

/-- What is left after what does not count in a mode. -/
def skipIdle (m : Mode) (s : List Char) : List Char := if m.verbose then afterIdle false s else s

/-- The character that is seen to come next. The look ahead passes blanks and one
number sign, but does not read a remark. -/
def ahead? (m : Mode) (s : List Char) : Option Char :=
  if m.verbose then
    let rest := match s.dropWhile Text.isBlank with
      | '#' :: t => t.dropWhile Text.isBlank
      | t => t
    (rest.head?).or s.head?
  else s.head?

/-! ## Atoms -/

/-- An atom: a character, which may be written as a byte; any character; a class
of digits, blanks or word characters, or of all others; a condition on a place;
and the condition that a word starts or ends there, or does not. -/
inductive Atom where
  | char (c : Char) (byte : Bool)
  | any
  | named (negated : Bool)
  | place
  | wordEdge
deriving DecidableEq, Repr

/-- Whether a class of digits, blanks or word characters is allowed: only in bytes,
since there are no tables of Unicode, and there not negated. -/
def Mode.namesClass (m : Mode) (negated : Bool) : Bool := !m.unicode && !negated

/-- Whether an atom is allowed outside of brackets. -/
def Atom.fits (m : Mode) : Atom → Bool
  | .char c byte => m.namesChars && (m.unicode || !byte || c.toNat < 0x80)
  | .named negated => m.namesClass negated
  | .any => m.unicode
  | .place | .wordEdge => true

/-- Whether an atom is allowed as a member of brackets. -/
def Atom.fitsInside (m : Mode) : Atom → Bool
  | .char c _ => m.namesChars && (m.unicode || c.toNat < 0x80)
  | .named negated => m.namesClass negated
  | .any | .place | .wordEdge => false

/-! ## Escapes -/

/-- Reads a number of hexadecimal digits after `n`, with what follows them. -/
def readDigits (m : Mode) : Nat → Nat → List Char → Option (Nat × List Char)
  | 0,n,s => some (n,skipIdle m s)
  | count + 1,n,s =>
    match skipIdle m s with
    | [] => none
    | c :: s => (Text.hexDigit? c).bind fun d => readDigits m count (16 * n + d) s

/-- Reads the character whose number has `count` hexadecimal digits. -/
def readNumbered (m : Mode) (count : Nat) (s : List Char) : Option (Atom × List Char) :=
  (readDigits m count 0 s).bind fun (n,s) =>
    if n.isValidChar then some (.char (Char.ofNat n) (count == 2),s) else none

/-- Whether a character loses any meaning behind a backslash: the ASCII ones do,
but not letters, digits and angle brackets. -/
def isPlainEscaped (c : Char) : Bool :=
  c.toNat < 0x80 && !c.isAlphanum && c != '<' && c != '>'

/-- Reads an escape after its backslash. Classes by a property of Unicode are not
known, for want of tables. -/
def readEscape (m : Mode) : List Char → Option (Atom × List Char)
  | [] => none
  | c :: s =>
    if isPlainEscaped c then some (.char c false,s)
    else if c = 'x' then readNumbered m 2 s
    else if c = 'u' then readNumbered m 4 s
    else if c = 'U' then readNumbered m 8 s
    else if ['d','s','w'].contains c then some (.named false,s)
    else if ['D','S','W'].contains c then some (.named true,s)
    else if ['a','f','t','n','r','v'].contains c then some (.char c false,s)
    else if c = 'A' ∨ c = 'z' then some (.place,s)
    else if ['b','B','<','>'].contains c then some (.wordEdge,s)
    else none

end Lockstep.Log.Pattern
