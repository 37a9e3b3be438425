import Lockstep.Json.Skip

/-!
# The grammar of JSON

JSON as byte strings, said apart from any reader. Strings come in two grades.
`Spells` is text: well-formed UTF-8 in which code units of a surrogate pair only
come as a pair. `Loose` is any string that can be told from what follows it.
Values are loose throughout; what a snapshot consists of is not.
-/

namespace Lockstep.Json

/-- Spaces, tabs and line ends. -/
def Blank (s : List UInt8) : Prop := ∀ b ∈ s, b ∈ [ascii ' ',ascii '\n',ascii '\t',ascii '\r']

/-! ## Strings -/

/-- A hexadecimal digit and its value, in either case. -/
def HexDigit (b : UInt8) (v : Nat) : Prop :=
  v < 16 ∧ (b = ascii (Nat.digitChar v) ∨ b = ascii (Nat.digitChar v).toUpper)

/-- The four digits of a UTF-16 code unit. -/
inductive CodeUnit : List UInt8 → Nat → Prop
  | mk {a b c d : UInt8} {i j k l : Nat} (first : HexDigit a i) (second : HexDigit b j) (third : HexDigit c k)
      (fourth : HexDigit d l) : CodeUnit [a,b,c,d] (i * 0x1000 + j * 0x100 + k * 0x10 + l)

/-- The letters that may follow a backslash and the characters they stand for. -/
def letters : List (Char × Char) :=
  [('"','"'),('\\','\\'),('/','/'),('b','\x08'),('f','\x0c'),('n','\n'),('r','\r'),('t','\t')]

/-- What may follow a backslash in text: a letter, or a character by its number,
which beyond the sixteen bits of one code unit takes a surrogate pair. -/
inductive Escape : List UInt8 → Char → Prop
  | letter {l c : Char} (known : (l,c) ∈ letters) : Escape [ascii l] c
  | code {h : List UInt8} {n : Nat} (digits : CodeUnit h n) (whole : n < 0xD800 ∨ 0xDFFF < n) :
      Escape (ascii 'u' :: h) (Char.ofNat n)
  | pair {h l : List UInt8} {high low : Nat} (first : CodeUnit h high) (leading : 0xD800 ≤ high ∧ high ≤ 0xDBFF)
      (second : CodeUnit l low) (trailing : 0xDC00 ≤ low ∧ low ≤ 0xDFFF) :
      Escape (ascii 'u' :: h ++ ascii '\\' :: ascii 'u' :: l)
        (Char.ofNat (0x10000 + (high - 0xD800) * 0x400 + (low - 0xDC00)))

/-- The body of a string, without its quotes, and the characters it stands for. -/
inductive Spells : List UInt8 → List Char → Prop
  | nil : Spells [] []
  | plain {c : Char} {body : List UInt8} {s : List Char} (printable : 0x20 ≤ c.toNat) (quote : c ≠ '"')
      (backslash : c ≠ '\\') (further : Spells body s) : Spells (Utf8.encodeChar c ++ body) (c :: s)
  | escape {p body : List UInt8} {c : Char} {s : List Char} (escape : Escape p c) (further : Spells body s) :
      Spells (ascii '\\' :: p ++ body) (c :: s)

/-- A string of text, quotes included. -/
def Quoted (v : List UInt8) (text : String) : Prop :=
  ∃ body, Spells body text.toList ∧ v = ascii '"' :: body ++ [ascii '"']

/-- What may follow a backslash in any string: surrogates need no partner. -/
inductive LooseEscape : List UInt8 → Prop
  | letter {l c : Char} (known : (l,c) ∈ letters) : LooseEscape [ascii l]
  | code {h : List UInt8} {n : Nat} (digits : CodeUnit h n) : LooseEscape (ascii 'u' :: h)

/-- A byte that stands for itself in a string, part of a character or not. -/
structure Plain (b : UInt8) : Prop where
  printable : 0x20 ≤ b.toNat
  quote : b ≠ ascii '"'
  backslash : b ≠ ascii '\\'

/-- The body of any string. -/
inductive Loose : List UInt8 → Prop
  | nil : Loose []
  | plain {b : UInt8} {body : List UInt8} (plain : Plain b) (further : Loose body) : Loose (b :: body)
  | escape {p body : List UInt8} (escape : LooseEscape p) (further : Loose body) : Loose (ascii '\\' :: p ++ body)

/-! ## Numbers -/

/-- One decimal digit or more. -/
structure Digits (ds : List UInt8) : Prop where
  some : ds ≠ []
  all : ∀ b ∈ ds, ascii '0' ≤ b ∧ b ≤ ascii '9'

/-- What the digits stand for, one by one. -/
def digitValues (ds : List UInt8) : List Nat := ds.map fun b => b.toNat - 0x30

/-- The digits before the point: a zero only stands alone. -/
structure Whole (ds : List UInt8) : Prop where
  digits : Digits ds
  leading : ds.head? = .some (ascii '0') → ds = [ascii '0']

/-- The point and the digits after it, if there are any. -/
inductive Fraction : List UInt8 → List Nat → Prop
  | absent : Fraction [] []
  | present {ds : List UInt8} (digits : Digits ds) : Fraction (ascii '.' :: ds) (digitValues ds)

/-- The sign of an exponent; a minus is `true`. -/
inductive Sign : List UInt8 → Bool → Prop
  | none : Sign [] false
  | plus : Sign [ascii '+'] false
  | minus : Sign [ascii '-'] true

/-- The exponent, if there is one. -/
inductive Exponent : List UInt8 → Option (Bool × List Nat) → Prop
  | absent : Exponent [] none
  | present {e : UInt8} {sign ds : List UInt8} {below : Bool} (mark : e = ascii 'e' ∨ e = ascii 'E')
      (signed : Sign sign below) (digits : Digits ds) : Exponent (e :: (sign ++ ds)) (some (below,digitValues ds))

/-- A number without its sign. -/
inductive Magnitude (negative : Bool) : List UInt8 → Literal → Prop
  | mk {w f e : List UInt8} {fraction : List Nat} {exponent : Option (Bool × List Nat)} (whole : Whole w)
      (places : Fraction f fraction) (scale : Exponent e exponent) :
      Magnitude negative (w ++ (f ++ e)) ⟨negative,digitValues w,fraction,exponent⟩

/-- A number and its parts. -/
inductive Numeral : List UInt8 → Literal → Prop
  | positive {p : List UInt8} {n : Literal} (magnitude : Magnitude false p n) : Numeral p n
  | negative {p : List UInt8} {n : Literal} (magnitude : Magnitude true p n) : Numeral (ascii '-' :: p) n

/-! ## Values -/

/-- What comes before the value of an element: nothing in a list, a name and a
colon in an object. -/
inductive Lead : Bracket → List UInt8 → Prop
  | item : Lead .list []
  | member {a body b : List UInt8} (before : Blank a) (name : Loose body) (between : Blank b) :
      Lead .object (a ++ ascii '"' :: body ++ ascii '"' :: b ++ [ascii ':'])

/-- The two things whose form is told together: a value, and the elements of a
bracket, one or more. -/
inductive Form where
  | value
  | elements (k : Bracket)

/-- The bytes that have a form. -/
inductive Conforms : Form → List UInt8 → Prop
  | null : Conforms .value (word "null")
  | true : Conforms .value (word "true")
  | false : Conforms .value (word "false")
  | number {p : List UInt8} {n : Literal} (numeral : Numeral p n) : Conforms .value p
  | string {body : List UInt8} (loose : Loose body) : Conforms .value (ascii '"' :: body ++ [ascii '"'])
  | empty {k : Bracket} {a : List UInt8} (inside : Blank a) : Conforms .value (k.opening :: a ++ [k.closing])
  | bracket {k : Bracket} {es : List UInt8} (inside : Conforms (.elements k) es) :
      Conforms .value (k.opening :: es ++ [k.closing])
  | last {k : Bracket} {l a v b : List UInt8} (lead : Lead k l) (before : Blank a) (value : Conforms .value v)
      (after : Blank b) : Conforms (.elements k) (l ++ a ++ v ++ b)
  | more {k : Bracket} {l a v b es : List UInt8} (lead : Lead k l) (before : Blank a) (value : Conforms .value v)
      (after : Blank b) (further : Conforms (.elements k) es) :
      Conforms (.elements k) (l ++ a ++ v ++ b ++ ascii ',' :: es)

end Lockstep.Json
