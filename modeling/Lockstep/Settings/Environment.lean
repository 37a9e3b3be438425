import Lockstep.Settings.Document
import Lockstep.Text.Blank
import Lockstep.Text.Hex
import Lockstep.Text.Split

/-!
# Settings from environment variables

A variable whose name starts with `SCOUT_SYNC_` sets the value at the keys that
the rest of its name spells. Its text is read in a small notation for values
and taken as it stands where it is no such notation.
-/

namespace Lockstep.Settings.Environment

open Lockstep.Decimal (Binary64)

/-! ## Names -/

/-- What the names of variables start with. -/
def namePrefix : String := "SCOUT_SYNC_"

/-- A character in lower case; only ASCII letters have another. -/
def lower (c : Char) : Char := c.toLower

/-- The rest of a name after the common start, in which letter case does not
count. -/
def nameRest? (name : List Char) : Option (List Char) :=
  let start := namePrefix.toList.map lower
  if (name.take start.length).map lower = start then some (name.drop start.length) else none

/-- A name with a point for each pair of underscores, from the left. -/
def pointed : List Char → List Char
  | '_' :: '_' :: s => '.' :: pointed s
  | c :: s => c :: pointed s
  | [] => []

/-- The keys that a variable's name spells. -/
def keys? (name : String) : Option (List String) :=
  match nameRest? (Text.trim name.toList) with
  | none => none
  | some rest =>
    let parts := Text.split (· == '.') (Text.trim (pointed rest))
    if parts.all (!·.isEmpty) then
      some (parts.map fun part => String.ofList (part.map lower))
    else none

/-! ## Values -/

/-- The blanks of the notation: those of ASCII but the vertical tab. -/
def isSpace (c : Char) : Bool :=
  c == ' ' || c == '\t' || c == '\n' || c == '\x0c' || c == '\r'

/-- What is left after the blanks. -/
def skipSpace (s : List Char) : List Char := s.dropWhile isSpace

/-- Reads the character whose number has `count` hexadecimal digits. -/
def readNumbered (count : Nat) (s : List Char) : Option (Char × List Char) :=
  let ds := (s.take count).filterMap Text.hexDigit?
  let n := ds.foldl (fun n d => 16 * n + d) 0
  if ds.length = count ∧ n.isValidChar then some (Char.ofNat n,s.drop count) else none

/-- Reads an escape after its backslash. -/
def readEscape : List Char → Option (Char × List Char)
  | '"' :: s => some ('"',s)
  | '\\' :: s => some ('\\',s)
  | 'b' :: s => some ('\x08',s)
  | 'f' :: s => some ('\x0c',s)
  | 'n' :: s => some ('\n',s)
  | 'r' :: s => some ('\r',s)
  | 't' :: s => some ('\t',s)
  | 'u' :: s => readNumbered 4 s
  | 'U' :: s => readNumbered 8 s
  | _ => none

/-- Reads the rest of a string in double quotes; what is in `seen`, in reverse,
comes first. -/
def readQuotedFrom : Nat → List Char → List Char → Option (List Char × List Char)
  | 0,_,_ => none
  | _ + 1,_,[] => none
  | steps + 1,seen,c :: s =>
    if c = '"' then some (seen.reverse,s)
    else if c = '\\' then
      (readEscape s).bind fun (x,s) => readQuotedFrom steps (x :: seen) s
    else if c = '\t' ∨ (0x20 ≤ c.toNat ∧ c.toNat ≠ 0x7F) then readQuotedFrom steps (c :: seen) s
    else none

/-- Reads a string after its opening quote. -/
def readQuoted (s : List Char) : Option (String × List Char) :=
  (readQuotedFrom (s.length + 1) [] s).map fun (cs,s) => (String.ofList cs,s)

/-- The characters that end a text without quotes. -/
def endsBare (c : Char) : Bool :=
  c == ',' || c == '\x7b' || c == '\x7d' || c == '[' || c == ']'

/-- The characters of keys without quotes. -/
def isBareKey (c : Char) : Bool := c.isAlphanum || c == '_' || c == '-'

/-- Reads a whole number of 64 bits with or without a sign. -/
def signed? (s : List Char) : Option Int :=
  let (negative,ds) := Binary64.splitSign s
  (Decimal.read? ds).bind fun (n : Nat) =>
    let n : Int := if negative then -(n : Int) else n
    if Int64.minValue.toInt ≤ n ∧ n ≤ Int64.maxValue.toInt then some n else none

/-- A text without quotes: a number if it is one, else itself. -/
def bareValue (s : List Char) : Document :=
  if s.contains '.' then
    match Binary64.ofText? s with
    | some x => .float .environment x
    | none => .text .environment (String.ofList s)
  else match Decimal.readWord? s with
    | some n => .unsigned .environment n.toNat
    | none =>
      match signed? s with
      | some n => .signed .environment n
      | none => .text .environment (String.ofList s)

/-- Reads the elements of a bracket up to its closing character. A comma stands
between two elements and may stand after the last. -/
def readElements {α : Type} (closing : Char) (element : List Char → Option (α × List Char)) :
    Nat → List Char → Option (List α × List Char)
  | 0,_ => none
  | steps + 1,s =>
    match s with
    | [] => (element s).bind fun _ => none
    | c :: t =>
      if c = closing then some ([],t)
      else
        (element s).bind fun (x,s) =>
          match s with
          | ',' :: s => (readElements closing element steps s).map fun (xs,s) => (x :: xs,s)
          | d :: s => if d = closing then some ([x],s) else none
          | [] => none

/-- Reads a key. -/
def readKey (s : List Char) : Option (String × List Char) :=
  match s with
  | '"' :: s => readQuoted s
  | s =>
    let key := s.takeWhile isBareKey
    if key.isEmpty then none else some (String.ofList key,s.dropWhile isBareKey)

/-- Reads an entry of a table, given how to read its value. -/
def readEntry (value : List Char → Option (Document × List Char)) (s : List Char) :
    Option ((String × Document) × List Char) :=
  (readKey (skipSpace s)).bind fun (key,s) =>
    match skipSpace s with
    | '=' :: s => (value s).map fun (v,s) => ((key,v),s)
    | _ => none

/-- Reads a value with the blanks around it, nested `depth` deep at most. -/
def readValue : Nat → List Char → Option (Document × List Char)
  | 0,_ => none
  | depth + 1,s =>
    let s := skipSpace s
    let found : Option (Document × List Char) :=
      if "true".toList.isPrefixOf s then some (.bool .environment true,s.drop 4)
      else if "false".toList.isPrefixOf s then some (.bool .environment false,s.drop 5)
      else match s with
        | '\x7b' :: t =>
          (readElements '\x7d' (readEntry (readValue depth)) (t.length + 1) t).map
            fun (entries,t) => (.table .environment (tableOf entries),t)
        | '[' :: t =>
          (readElements ']' (readValue depth) (t.length + 1) t).map
            fun (items,t) => (.list .environment items,t)
        | '"' :: t => (readQuoted t).map fun (text,t) => (.text .environment text,t)
        | '\'' :: c :: '\'' :: t => some (.char .environment c,t)
        | '\'' :: _ => none
        | _ =>
          some (bareValue (Text.trim (s.takeWhile (!endsBare ·))),s.dropWhile (!endsBare ·))
    found.map fun (v,t) => (v,skipSpace t)

/-- The value of a variable. -/
def value (s : String) : Document :=
  match readValue (s.length + 1) s.toList with
  | some (v,[]) => v
  | _ => .text .environment s

/-- A value below some keys. -/
def nest (v : Document) : List String → Document
  | [] => v
  | key :: keys => .table .environment [(key,nest v keys)]

end Lockstep.Settings.Environment
