import Lockstep.Log.Pattern.Atom

/-!
# Brackets in patterns

A class of characters between brackets: members, ranges, classes by name, and
brackets again, with `&&`, `--` and `~~` between sets of them. Reading one gives
its height, the number of levels that are nested in it.
-/

namespace Lockstep.Log.Pattern

/-! ## Heights -/

/-- Parts side by side: how many, and the height of the highest. -/
structure Row where
  count : Nat := 0
  highest : Nat := 0
deriving DecidableEq, Repr

/-- A row with one more part. -/
def Row.add (r : Row) (height : Nat) : Row := ⟨r.count + 1,max r.highest height⟩

/-- The height of a row. Several parts make a level. -/
def Row.height (r : Row) : Nat := if r.count ≤ 1 then r.highest else r.highest + 1

/-! ## Sets -/

/-- Brackets that are open: the height of the sets before the last operator, and
the parts since. -/
structure Brackets where
  before : Option Nat := none
  row : Row := {}
deriving DecidableEq, Repr

namespace Brackets

/-- Brackets with one more part. -/
def add (b : Brackets) (height : Nat) : Brackets := { b with row := b.row.add height }

/-- The height of what the brackets hold. An operator makes a level. -/
def height (b : Brackets) : Nat :=
  match b.before with
  | none => b.row.height
  | some h => max h b.row.height + 1

/-- Brackets after an operator. -/
def operator (b : Brackets) : Brackets := ⟨some b.height,{}⟩

end Brackets

/-! ## Reading -/

/-- The classes with names in brackets of their own. -/
def classNames : List String :=
  ["alnum","alpha","ascii","blank","cntrl","digit","graph","lower","print","punct",
    "space","upper","word","xdigit"]

/-- Reads a class by name after its bracket, and whether it is negated. -/
def readClass? : List Char → Option (Bool × List Char)
  | ':' :: s =>
    let (negated,s) := match s with
      | '^' :: t => (true,t)
      | t => (false,t)
    let name := s.takeWhile (· != ':')
    match s.drop name.length with
    | ':' :: ']' :: rest =>
      if classNames.contains (String.ofList name) then some (negated,rest) else none
    | _ => none
  | _ => none

/-- Reads dashes that stand for themselves. -/
def readDashes (m : Mode) : Nat → Brackets → List Char → Brackets × List Char
  | 0,b,s => (b,s)
  | steps + 1,b,s =>
    match s with
    | '-' :: t => readDashes m steps (b.add 0) (skipIdle m t)
    | s => (b,s)

/-- Whether a class with a bracketed name is allowed. These are of ASCII characters
and need no tables unless case does not count; a mode of bytes has no negation,
since that would match what is no text. -/
def Mode.bracketsClass (m : Mode) (negated : Bool) : Bool :=
  m.namesChars && (m.unicode || !negated)

/-- Reads what follows an opening bracket: a sign of negation, dashes, and a
closing bracket that stands for itself if it comes first. -/
def readBracketStart (m : Mode) (s : List Char) : Option (Brackets × List Char) :=
  let (negated,s) := match skipIdle m s with
    | '^' :: t => (true,skipIdle m t)
    | t => (false,t)
  let (b,s) := readDashes m s.length {} s
  let (b,s) := match b.row.count,s with
    | 0,']' :: t => (b.add 0,t)
    | _,t => (b,t)
  if (negated && !m.unicode) || (b.row.count != 0 && !m.namesChars) then none else some (b,s)

/-- Reads one character or escape. -/
def readMember (m : Mode) : List Char → Option (Atom × List Char)
  | [] => none
  | '\\' :: s => readEscape m s
  | c :: s => some (.char c false,s)

/-- Whether two atoms can be the ends of a range. -/
def isRange (m : Mode) : Atom → Atom → Bool
  | .char a x,.char b y =>
    (Atom.char a x).fitsInside m && (Atom.char b y).fitsInside m && a.toNat ≤ b.toNat
  | _,_ => false

/-- Reads a member or a range. A dash before another one or before the closing
bracket is not the dash of a range. -/
def readItem (m : Mode) (s : List Char) : Option (List Char) :=
  (readMember m s).bind fun (first,s) =>
    match skipIdle m s with
    | [] => none
    | '-' :: t =>
      if (ahead? m t).any fun c => c == ']' || c == '-' then
        if first.fitsInside m then some ('-' :: t) else none
      else
        (readMember m (skipIdle m t)).bind fun (last,t) =>
          if isRange m first last then some t else none
    | t => if first.fitsInside m then some t else none

/-- Reads what is between brackets and the closing one, `outer` being the brackets
around them. -/
def readSets (m : Mode) :
    Nat → List Brackets → Brackets → List Char → Option (Nat × List Char)
  | 0,_,_,_ => none
  | steps + 1,outer,b,s =>
    match skipIdle m s with
    | [] => none
    | ']' :: s =>
      match outer with
      | [] => some (b.height + 1,s)
      | around :: outer => readSets m steps outer (around.add (b.height + 1)) s
    | '[' :: s =>
      match readClass? s with
      | some (negated,s) =>
        if m.bracketsClass negated then readSets m steps outer (b.add 0) s else none
      | none =>
        (readBracketStart m s).bind fun (inner,s) => readSets m steps (b :: outer) inner s
    | '&' :: '&' :: s => readSets m steps outer b.operator s
    | '-' :: '-' :: s => readSets m steps outer b.operator s
    | '~' :: '~' :: s => readSets m steps outer b.operator s
    | s => (readItem m s).bind fun s => readSets m steps outer (b.add 0) s

/-- Reads brackets after the opening one: their height and what follows. -/
def readBracket (m : Mode) (s : List Char) : Option (Nat × List Char) :=
  (readBracketStart m s).bind fun (b,t) => readSets m (t.length + 1) [] b t

end Lockstep.Log.Pattern
