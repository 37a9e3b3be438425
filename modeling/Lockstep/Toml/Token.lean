import Lockstep.Decimal
import Lockstep.Text.Hex
import Lockstep.Toml.Value

/-!
# Spaces, keys and scalars of TOML

The parts of a line. A reader takes the characters that are left and answers
with what it found and the characters after it, or with nothing; why a document
is refused is not told.
-/

namespace Lockstep.Toml

open Lockstep.Decimal (Binary64)

/-- A reader of something at the front of a text. -/
abbrev Reader (α : Type) := List Char → Option (α × List Char)

/-! ## Spaces -/

/-- Space and tab. -/
def isSpace (c : Char) : Bool := c == ' ' || c == '\t'

/-- What is left after the spaces. -/
def skipSpace (s : List Char) : List Char := s.dropWhile isSpace

/-- What is left after the end of a line. -/
def newline? : List Char → Option (List Char)
  | '\n' :: s => some s
  | '\r' :: '\n' :: s => some s
  | _ => none

/-- The characters of comments: tab, and all but the control characters. -/
def isShown (c : Char) : Bool := c == '\t' || (0x20 ≤ c.toNat && c.toNat != 0x7F)

/-- What is left after a comment, if one stands in front. -/
def skipComment : List Char → List Char
  | '#' :: s => s.dropWhile isShown
  | s => s

/-- What is left after the rest of a line that holds no more. -/
def endLine? (s : List Char) : Option (List Char) :=
  match skipComment (skipSpace s) with
  | [] => some []
  | s => newline? s

/-- What is left after spaces, comments and line ends. -/
def skipLines : Nat → List Char → Option (List Char)
  | 0,s => some s
  | steps + 1,s =>
    match skipSpace s with
    | '#' :: s => (endLine? ('#' :: s)).bind (skipLines steps)
    | s =>
      match newline? s with
      | some s => skipLines steps s
      | none => some s

/-! ## Strings -/

/-- The character with a number, if there is one. -/
def scalar? (n : Nat) : Option Char :=
  if n.isValidChar then some (Char.ofNat n) else none

/-- Reads a number of `count` hexadecimal digits after `start`. -/
def readHex (start : Nat) : Nat → Reader Nat
  | 0,s => some (start,s)
  | count + 1,c :: s => (Text.hexDigit? c).bind fun d => readHex (16 * start + d) count s
  | _ + 1,[] => none

/-- Reads an escape after its backslash. -/
def readEscape : Reader Char
  | 'b' :: s => some ('\x08',s)
  | 't' :: s => some ('\t',s)
  | 'n' :: s => some ('\n',s)
  | 'f' :: s => some ('\x0c',s)
  | 'r' :: s => some ('\r',s)
  | '"' :: s => some ('"',s)
  | '\\' :: s => some ('\\',s)
  | 'u' :: s => (readHex 0 4 s).bind fun (n,s) => (scalar? n).map (·,s)
  | 'U' :: s => (readHex 0 8 s).bind fun (n,s) => (scalar? n).map (·,s)
  | _ => none

/-- What is left after spaces and line ends. -/
def skipBlankLines : List Char → List Char
  | '\n' :: s => skipBlankLines s
  | '\r' :: '\n' :: s => skipBlankLines s
  | ' ' :: s => skipBlankLines s
  | '\t' :: s => skipBlankLines s
  | s => s

/-- What is left after a backslash at the end of a line: the line end and all
spaces and line ends after it. -/
def joinLine? (s : List Char) : Option (List Char) :=
  (newline? (skipSpace s)).map skipBlankLines

/-- The quotes that may still belong to a string which three quotes end: up to
two of those that follow. -/
def extraQuotes (quote : Char) : List Char → List Char × List Char
  | a :: b :: s =>
    if a = quote ∧ b = quote then ([quote,quote],s)
    else if a = quote then ([quote],b :: s)
    else ([],a :: b :: s)
  | [a] => if a = quote then ([quote],[]) else ([],[a])
  | [] => ([],[])

/-- Reads the rest of a string. `quote` closes it, alone or, if `many`, three in
a row; `escapes` says whether a backslash is an escape. Line ends are allowed
if `many`. The characters in `seen` come first and are in reverse. -/
def readStringFrom (quote : Char) (escapes many : Bool) :
    Nat → List Char → Reader (List Char)
  | 0,_,_ => none
  | _ + 1,_,[] => none
  | steps + 1,seen,c :: s =>
    if c = quote then
      if !many then some (seen.reverse,s)
      else match s with
        | a :: b :: s' =>
          if a = quote ∧ b = quote then
            let (extra,rest) := extraQuotes quote s'
            some (seen.reverse ++ extra,rest)
          else readStringFrom quote escapes many steps (c :: seen) s
        | _ => none
    else if c = '\\' ∧ escapes then
      match readEscape s with
      | some (x,s) => readStringFrom quote escapes many steps (x :: seen) s
      | none =>
        if many then (joinLine? s).bind (readStringFrom quote escapes many steps seen) else none
    else if isShown c then readStringFrom quote escapes many steps (c :: seen) s
    else if many then
      (newline? (c :: s)).bind (readStringFrom quote escapes many steps ('\n' :: seen))
    else none

/-- Reads a string of any of the four kinds. A line end right after three
opening quotes does not belong to it. -/
def readString : Reader String
  | '"' :: '"' :: '"' :: s => text '"' true true ((newline? s).getD s)
  | '\'' :: '\'' :: '\'' :: s => text '\'' false true ((newline? s).getD s)
  | '"' :: s => text '"' true false s
  | '\'' :: s => text '\'' false false s
  | _ => none
where
  text (quote : Char) (escapes many : Bool) (s : List Char) : Option (String × List Char) :=
    (readStringFrom quote escapes many (s.length + 1) [] s).map fun (cs,s) =>
      (String.ofList cs,s)

/-! ## Keys -/

/-- The characters of keys without quotes. -/
def isBare (c : Char) : Bool := c.isAlphanum || c == '_' || c == '-'

/-- Reads one part of a key, with the spaces around it. -/
def readKeyPart (s : List Char) : Option (String × List Char) :=
  let s := skipSpace s
  let part : Option (String × List Char) :=
    match s with
    | '"' :: s => readString.text '"' true false s
    | '\'' :: s => readString.text '\'' false false s
    | s =>
      let bare := s.takeWhile isBare
      if bare.isEmpty then none else some (String.ofList bare,s.dropWhile isBare)
  part.map fun (name,s) => (name,skipSpace s)

/-- Reads the parts of a key, separated by points. -/
def readKeyParts : Nat → Reader (List String)
  | 0,_ => none
  | steps + 1,s =>
    (readKeyPart s).bind fun (name,s) =>
      match s with
      | '.' :: s => (readKeyParts steps s).map fun (names,s) => (name :: names,s)
      | s => some ([name],s)

/-- How deep keys and values may be nested. -/
def depthLimit : Nat := 80

/-- Reads a key: the parts that lead to it and its last part. -/
def readKey (s : List Char) : Option ((List String × String) × List Char) :=
  (readKeyParts (s.length + 1) s).bind fun (names,s) =>
    if depthLimit ≤ names.length then none
    else match names.getLast? with
      | some name => some ((names.dropLast,name),s)
      | none => none

/-! ## Numbers -/

/-- Reads digits with single underscores between them. -/
def readDigits (isDigit : Char → Bool) : Reader (List Char)
  | c :: '_' :: d :: s =>
    if isDigit c ∧ isDigit d then
      (readDigits isDigit (d :: s)).map fun (ds,s) => (c :: ds,s)
    else none
  | c :: s =>
    if isDigit c then
      match s with
      | '_' :: _ => none
      | d :: _ =>
        if isDigit d then (readDigits isDigit s).map fun (ds,s) => (c :: ds,s)
        else some ([c],s)
      | [] => some ([c],[])
    else none
  | [] => none

/-- Reads a sign, if there is one; `true` is minus. -/
def readSign : List Char → Bool × List Char
  | '-' :: s => (true,s)
  | '+' :: s => (false,s)
  | s => (false,s)

/-- A whole number of 64 bits with a sign. -/
def integer? (n : Int) : Option Value :=
  if Int64.minValue.toInt ≤ n ∧ n ≤ Int64.maxValue.toInt then some (.integer n) else none

/-- Reads a number to the base 16, 8 or 2 after its letter. -/
def readBased (base : Nat) (s : List Char) : Option (Value × List Char) :=
  let isDigit (c : Char) : Bool := match Text.hexDigit? c with
    | some d => d < base
    | none => false
  (readDigits isDigit s).bind fun (ds,s) =>
    (integer? (ds.foldl (fun n c => base * n + (Text.hexDigit? c).getD 0) 0 : Nat)).map (·,s)

/-- Reads the exponent of a number, if there is one. -/
def readExponent : Reader (Option Int)
  | c :: s =>
    if c = 'e' ∨ c = 'E' then
      let (negative,s) := readSign s
      (readDigits Char.isDigit s).map fun (ds,s) =>
        let n : Int := Decimal.ofDigits ds
        (some (if negative then -n else n),s)
    else some (none,c :: s)
  | [] => some (none,[])

/-- Reads the digits after the point of a number, if there are any. -/
def readFraction : Reader (List Char)
  | '.' :: s => readDigits Char.isDigit s
  | s => some ([],s)

/-- Reads a decimal number. With a fraction or an exponent it is a double,
which has to be below positive infinity. -/
def readDecimal (s : List Char) : Option (Value × List Char) :=
  let (negative,s) := readSign s
  (readDigits Char.isDigit s).bind fun (whole,s) =>
    match whole with
    | '0' :: _ :: _ => none
    | _ =>
      (readFraction s).bind fun (fraction,s) =>
        (readExponent s).bind fun (exponent,s) =>
          if fraction.isEmpty ∧ exponent.isNone then
            let n : Int := Decimal.ofDigits whole
            (integer? (if negative then -n else n)).map (·,s)
          else
            let x := Binary64.ofDecimal negative (Decimal.ofDigits (whole ++ fraction))
              (exponent.getD 0 - fraction.length)
            if x = .infinite false then none else some (.float x,s)

/-- Reads a word. -/
def readWord (word : String) (v : Value) (s : List Char) : Option (Value × List Char) :=
  if word.toList.isPrefixOf s then some (v,s.drop word.length) else none

/-- Reads a number of any form. -/
def readNumber (s : List Char) : Option (Value × List Char) :=
  match s with
  | '0' :: 'x' :: s => readBased 16 s
  | '0' :: 'o' :: s => readBased 8 s
  | '0' :: 'b' :: s => readBased 2 s
  | s =>
    let (negative,rest) := readSign s
    match readWord "inf" (.float (.infinite negative)) rest with
    | some x => some x
    | none =>
      match readWord "nan" (.float .nan) rest with
      | some x => some x
      | none => readDecimal s

/-! ## Dates and times -/

/-- Reads `count` digits that are a number from `low` to `high`. -/
def readField (count low high : Nat) (s : List Char) : Option (Nat × List Char) :=
  let ds := s.take count
  if ds.length = count ∧ ds.all Char.isDigit then
    let n := Decimal.ofDigits ds
    if low ≤ n ∧ n ≤ high then some (n,s.drop count) else none
  else none

/-- Passes over one character. -/
def expect? (c : Char) : List Char → Option (List Char)
  | d :: s => if d = c then some s else none
  | [] => none

/-- How many days a month has. -/
def daysIn (year month : Nat) : Nat :=
  if month = 2 then
    if year % 4 = 0 ∧ (year % 100 ≠ 0 ∨ year % 400 = 0) then 29 else 28
  else if month = 4 ∨ month = 6 ∨ month = 9 ∨ month = 11 then 30
  else 31

/-- What is left after a date. -/
def skipDate? (s : List Char) : Option (List Char) := do
  let (year,s) ← readField 4 0 9999 s
  let s ← expect? '-' s
  let (month,s) ← readField 2 1 12 s
  let s ← expect? '-' s
  let (_,s) ← readField 2 1 (daysIn year month) s
  return s

/-- What is left after a time of day. -/
def skipTime? (s : List Char) : Option (List Char) := do
  let (_,s) ← readField 2 0 23 s
  let s ← expect? ':' s
  let (_,s) ← readField 2 0 59 s
  let s ← expect? ':' s
  let (_,s) ← readField 2 0 60 s
  match s with
  | '.' :: s =>
    if (s.takeWhile Char.isDigit).isEmpty then none else some (s.dropWhile Char.isDigit)
  | s => return s

/-- What is left after the offset of a time, if there is one. -/
def skipOffset? : List Char → Option (List Char)
  | c :: s =>
    if c = 'Z' ∨ c = 'z' then some s
    else if c = '+' ∨ c = '-' then do
      let (_,s) ← readField 2 0 23 s
      let s ← expect? ':' s
      let (_,s) ← readField 2 0 59 s
      return s
    else some (c :: s)
  | [] => some []

/-- What is left after a date, a time or both. Between them stand a `T` or a
space, and only a time with a date has an offset. -/
def skipMoment? (s : List Char) : Option (List Char) :=
  match skipDate? s with
  | none => skipTime? s
  | some s =>
    match s with
    | c :: t =>
      if c = 'T' ∨ c = 't' ∨ c = ' ' then
        match skipTime? t with
        | some u => skipOffset? u
        | none => some s
      else some s
    | [] => some s

/-- Reads a date, a time or both. -/
def readMoment (s : List Char) : Option (Value × List Char) :=
  (skipMoment? s).map fun rest => (.moment (String.ofList (s.take (s.length - rest.length))),rest)

/-! ## Scalars -/

/-- Reads a value that is no list and no table. -/
def readScalar (s : List Char) : Option (Value × List Char) :=
  match s with
  | [] => none
  | c :: _ =>
    if c = '"' ∨ c = '\'' then (readString s).map fun (text,s) => (.text text,s)
    else if c = 't' then readWord "true" (.bool true) s
    else if c = 'f' then readWord "false" (.bool false) s
    else match readMoment s with
      | some x => some x
      | none => readNumber s

end Lockstep.Toml
