import Lockstep.Log.Pattern.Bracket
import Lockstep.Text.Alphanumeric
import Lockstep.Text.Split

/-!
# Patterns

A condition on a field can give its value as a pattern, a regular expression.
No record is held against one here, since records are written outside of all
spans, but the pattern has to be well formed. A closing brace ends the condition,
so within a pattern no brace is ever closed.
-/

namespace Lockstep.Log.Pattern

/-- What is wrong with a pattern: it is none, or it asks for the edges of words
in the sense of Unicode. -/
inductive Fault where
  | malformed
  | wordEdge
deriving DecidableEq, Repr

/-- The wording of a fault. -/
def Fault.message : Fault → String
  | .malformed => "error building NFA"
  | .wordEdge =>
    "unsupported regex feature for DFAs: cannot build DFAs for regexes with Unicode word " ++
      "boundaries; switch to ASCII word boundaries, or heuristically enable Unicode word " ++
      "boundaries or use a different regex engine"

/-! ## Groups -/

/-- One of the choices of a group: its parts, and the height of the last one if
that can be repeated. -/
structure Branch where
  row : Row := {}
  last : Option Nat := none
deriving DecidableEq, Repr

/-- A group that is open: how it is read from here on, the choices that are
done, and the one at hand. -/
structure Group where
  mode : Mode := {}
  choices : Row := {}
  branch : Branch := {}
deriving DecidableEq, Repr

namespace Group

/-- A group with one more part. -/
def add (g : Group) (height : Nat) : Group :=
  { g with branch := ⟨g.branch.row.add height,some height⟩ }

/-- A group in another mode from here on. What sets it is a part too. -/
def switch (g : Group) (mode : Mode) : Group :=
  { g with mode, branch := ⟨g.branch.row.add 0,none⟩ }

/-- A group whose last part is repeated. -/
def repeat? (g : Group) : Option Group :=
  g.branch.last.map fun h =>
    { g with branch := ⟨⟨g.branch.row.count,max g.branch.row.highest (h + 1)⟩,some (h + 1)⟩ }

/-- A group before its next choice. -/
def choose (g : Group) : Group :=
  { g with choices := g.choices.add g.branch.row.height, branch := {} }

/-- The height of what a group holds. -/
def height (g : Group) : Nat := (g.choices.add g.branch.row.height).height

end Group

/-- What an opening parenthesis turns out to be: the start of a group, which can
have a name, or a change of mode. -/
inductive Opening where
  | group (mode : Mode) (name : Option (List Char))
  | switch (mode : Mode)
deriving DecidableEq, Repr

/-- The letters that set something. -/
def flagLetters : List Char := ['i','m','s','U','u','R','x']

/-- A mode with some letters set or taken back. -/
def Mode.set (m : Mode) (value : Bool) (letters : List Char) : Mode :=
  ⟨if letters.contains 'x' then value else m.verbose,
    if letters.contains 'u' then value else m.unicode,
    if letters.contains 'i' then value else m.folding⟩

/-- The mode after some flags: letters that are set and, after a dash, at least
one that is taken back, none of them twice. -/
def Mode.flagged? (m : Mode) (flags : List Char) : Option Mode :=
  let known (letters : List Char) : Bool :=
    letters.all flagLetters.contains && letters.eraseDups.length == letters.length
  match Text.split (· == '-') flags with
  | [on] => if known on then some (m.set true on) else none
  | [on,off] =>
    if !off.isEmpty && known (on ++ off) then some ((m.set true on).set false off) else none
  | _ => none

/-- Whether a character may be in the name of a group. -/
def isNameChar (c : Char) : Bool := ['_','.','[',']'].contains c || Text.isAlphanumeric c

/-- Reads the name of a group up to the angle bracket behind it. -/
def readName (s : List Char) : Option (List Char × List Char) :=
  match s.takeWhile isNameChar,s.dropWhile isNameChar with
  | c :: name,'>' :: rest =>
    if c = '_' ∨ Text.isLetter c then some (c :: name,rest) else none
  | _,_ => none

/-- Reads flags up to the colon or the parenthesis behind them. -/
def readFlags (m : Mode) (s : List Char) : Option (Opening × List Char) :=
  let isInside (c : Char) : Bool := c != ':' && c != ')'
  let flags := s.takeWhile isInside
  (m.flagged? flags).bind fun mode =>
    match s.dropWhile isInside with
    | ':' :: rest => some (.group mode none,rest)
    | ')' :: rest => if flags.isEmpty then none else some (.switch mode,rest)
    | _ => none

/-- Reads what follows an opening parenthesis. Conditions on what is before or
behind a place are not known. -/
def readOpening (m : Mode) (s : List Char) : Option (Opening × List Char) :=
  let named (s : List Char) : Option (Opening × List Char) :=
    (readName s).map fun (name,rest) => (.group m (some name),rest)
  match skipIdle m s with
  | '?' :: '<' :: s => named s
  | '?' :: 'P' :: '<' :: s => named s
  | '?' :: s => readFlags m s
  | s => some (.group m none,s)

/-! ## Reading -/

/-- What has been read: the group at hand, those around it, the names that are
taken, and whether the edges of words have been asked for. -/
structure Reading where
  group : Group := {}
  outer : List Group := []
  names : List (List Char) := []
  edges : Bool := false
deriving DecidableEq, Repr

namespace Reading

/-- After an opening. A name can be taken once only. -/
def start? (r : Reading) : Opening → Option Reading
  | .switch mode => some { r with group := r.group.switch mode }
  | .group mode name =>
    if name.any r.names.contains then none
    else
      some { r with
        group := { mode }
        outer := r.group :: r.outer
        names := name.toList ++ r.names }

/-- After a closing parenthesis, if there is a group to close. -/
def close? (r : Reading) : Option Reading :=
  match r.outer with
  | [] => none
  | g :: outer => some { r with group := g.add (r.group.height + 1), outer }

/-- After an atom, if it is allowed. -/
def atom? (r : Reading) (a : Atom) : Option Reading :=
  if a.fits r.group.mode then
    some { r with
      group := r.group.add 0
      edges := r.edges || (a == .wordEdge && r.group.mode.unicode) }
  else none

end Reading

/-- What is left after the sign that a repetition is to be short. -/
def skipShort : List Char → List Char
  | '?' :: s => s
  | s => s

/-- Whether a character repeats what is before it. -/
def isRepeat (c : Char) : Bool := c == '?' || c == '*' || c == '+'

/-- The atom that a character is outside of brackets. -/
def atomOf (c : Char) : Atom :=
  if c = '.' then .any else if c = '^' ∨ c = '$' then .place else .char c false

/-- Reads a pattern to its end. An open brace would count repetitions and is
never closed. -/
def read : Nat → Reading → List Char → Option Reading
  | 0,_,_ => none
  | steps + 1,r,s =>
    match skipIdle r.group.mode s with
    | [] => some r
    | c :: s =>
      if c = '(' then
        (readOpening r.group.mode s).bind fun (opening,s) =>
          (r.start? opening).bind fun r => read steps r s
      else if c = ')' then r.close?.bind fun r => read steps r s
      else if c = '|' then read steps { r with group := r.group.choose } s
      else if c = '[' then
        (readBracket r.group.mode s).bind fun (height,s) =>
          read steps { r with group := r.group.add height } s
      else if isRepeat c then
        r.group.repeat?.bind fun group => read steps { r with group } (skipShort s)
      else if c = '\x7b' then none
      else if c = '\\' then
        (readEscape r.group.mode s).bind fun (a,s) => (r.atom? a).bind fun r => read steps r s
      else
        (r.atom? (atomOf c)).bind fun r => read steps r s

/-- How many levels a pattern may have. -/
def heightLimit : Nat := 250

/-- What is wrong with a pattern, if anything. -/
def fault? (s : List Char) : Option Fault :=
  match read (s.length + 1) {} s with
  | none => some .malformed
  | some r =>
    if !r.outer.isEmpty || heightLimit < r.group.height then some .malformed
    else if r.edges then some .wordEdge
    else none

end Lockstep.Log.Pattern
