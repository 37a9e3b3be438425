import Lockstep.Decimal
import Lockstep.Decimal.Binary64
import Lockstep.Log
import Lockstep.Log.Pattern
import Lockstep.Text.Blank
import Lockstep.Text.Alphanumeric
import Lockstep.Text.Split
import Lockstep.Utf8

/-!
# Filters

Which records are let through. A filter is a list of directives between commas,
`target[span{field=value}]=level`, of which every part may be left out. Of the
directives that apply to a record the most specific one decides.
-/

namespace Lockstep.Log

/-- How much is let through: nothing, or the levels up to one. -/
inductive Threshold where
  | off
  | upTo (level : Level)
deriving DecidableEq, Repr

namespace Threshold

/-- Whether a threshold lets a level through. -/
def admits : Threshold → Level → Bool
  | .off,_ => false
  | .upTo most,level => level.detail ≤ most.detail

/-- The names of the thresholds, from none to all; their places count as names
too. -/
def named : List (String × Threshold) :=
  [("off",.off),("error",.upTo .error),("warn",.upTo .warn),("info",.upTo .info),
    ("debug",.upTo .debug),("trace",.upTo .trace)]

/-- Reads a name, in letters of any case, or a number. -/
def ofText? (s : List Char) : Option Threshold :=
  match Decimal.readWord? s with
  | some place => named[place.toNat]?.map (·.2)
  | none => named.lookup (String.ofList (s.map Char.toLower))

end Threshold

/-! ## Directives -/

/-- What a directive asks of a record's fields: that there is one of a name, or
even one with a value. -/
structure FieldTest where
  name : String
  valued : Bool
deriving DecidableEq, Repr

/-- A directive. Records are written outside of all spans here, so one that asks
for a span applies to none. -/
structure Directive where
  target : Option String := none
  span : Option String := none
  field : Option FieldTest := none
  threshold : Threshold := .upTo .trace
deriving DecidableEq, Repr

namespace Directive

/-- What is wrong with a directive: its shape, only its level, or the pattern that
it holds a field against. -/
inductive Fault where
  | shape
  | level
  | pattern (fault : Pattern.Fault)
deriving DecidableEq, Repr

/-- The wording of a fault. -/
def Fault.message : Fault → String
  | .shape => "invalid filter directive"
  | .level =>
    "error parsing level filter: expected one of \"off\", \"error\", \"warn\", \"info\", " ++
      "\"debug\", \"trace\", or a number 0-5"
  | .pattern fault => "invalid field filter: " ++ fault.message

/-- A stretch of a directive. The marks that divide it are found in the text
without the blanks at its ends, and the parts are cut, byte by byte, from the
same places of the text as it is: each byte stands beside the one that it is
cut as. -/
abbrev Stretch := List (UInt8 × UInt8)

/-- Whether a byte of a stretch is none of some marks. -/
def isInside (marks : List Char) (byte : UInt8 × UInt8) : Bool :=
  marks.all fun mark => byte.1.toNat != mark.toNat

/-- The part that a stretch is cut as. -/
def part (s : Stretch) : List UInt8 := s.map (·.2)

/-- Sets the level; none means all levels. -/
def leveled (d : Directive) (level : List UInt8) : Except Fault Directive :=
  if level.isEmpty then .ok d
  else match Threshold.ofText? (Utf8.lossy level) with
    | some threshold => .ok { d with threshold }
    | none => .error .level

/-- Reads what follows the brackets; `beyond` are the bytes behind the last
stretch. -/
def afterBrackets (d : Directive) (beyond : List UInt8) : Stretch → Except Fault Directive
  | [] => .ok d
  | mark :: level =>
    if isInside ['='] mark then .error .shape else d.leveled (part level ++ beyond)

/-- What is wrong with the value in a condition, if anything. Any number is
right, and what is none is a pattern; the truth values are patterns too. -/
def valueFault? (value : List Char) : Option Pattern.Fault :=
  if (Decimal.Binary64.ofText? value).isSome then none else Pattern.fault? value

/-- Reads a condition on a field. A second equals sign ends its value. -/
def fieldTest (text : List UInt8) : Except Fault FieldTest :=
  let (name,value) := (Utf8.lossy text).span (· != '=')
  match value with
  | [] => .ok ⟨String.ofList name,false⟩
  | _ :: value =>
    match valueFault? (value.takeWhile (· != '=')) with
    | some fault => .error (.pattern fault)
    | none => .ok ⟨String.ofList name,true⟩

/-- Reads what is between brackets, and on. -/
def bracketed (d : Directive) (beyond : List UInt8) (s : Stretch) : Except Fault Directive :=
  let (name,rest) := s.span (isInside [']','\x7b'])
  let span := Utf8.toLossyString (part name)
  match rest with
  | [] => .error .shape
  | mark :: rest =>
    if isInside ['\x7b'] mark then { d with span := some span }.afterBrackets beyond rest
    else
      let (field,rest) := rest.span (isInside ['\x7d'])
      match field,rest with
      | _ :: _,_ :: rest =>
        match fieldTest (part field),rest with
        | .error fault,_ => .error fault
        | .ok test,mark :: rest =>
          if isInside [']'] mark then .error .shape
          else
            { d with
              span := if name.isEmpty then none else some span
              field := some test }.afterBrackets beyond rest
        | .ok _,[] => .error .shape
      | _,_ => .error .shape

/-- Reads a directive that is one word: a level, or else a target with all its
levels. -/
def ofWord (word : List UInt8) : Directive :=
  match Threshold.ofText? (Utf8.lossy word) with
  | some threshold => { threshold }
  | none => { target := some (Utf8.toLossyString word) }

/-- Whether a target may start with a character. -/
def opensTarget (c : Char) : Bool := ['-',':','_'].contains c || Text.isAlphanumeric c

/-- Reads a directive. -/
def ofChars (s : List Char) : Except Fault Directive :=
  let bare := Text.trim s
  let marks := Utf8.encode bare
  let bytes := Utf8.encode s
  let beyond := bytes.drop marks.length
  let whole := marks.zip bytes
  match bare with
  | [] => .error .shape
  | first :: _ =>
    if first = '[' then ({} : Directive).bracketed beyond (whole.drop 1)
    else if !opensTarget first then .error .shape
    else
      let (word,rest) := whole.span (isInside ['=','['])
      let d : Directive := { target := some (Utf8.toLossyString (part word)) }
      match rest with
      | [] => .ok (ofWord (part word ++ beyond))
      | mark :: rest =>
        if isInside ['='] mark then d.bracketed beyond rest
        else d.leveled (part rest ++ beyond)

/-- The names of a record's fields, its message among them. -/
def fieldNames (r : Record) : List String := "message" :: r.fields.map (·.1)

/-- Whether a directive applies to a record. -/
def applies (d : Directive) (r : Record) : Bool :=
  d.span.isNone && (d.target.all fun t => t.toList.isPrefixOf r.target.toList) &&
    d.field.all fun test => !test.valued && (fieldNames r).contains test.name

/-- How long the target of a directive is; one without is behind all others. -/
def reach (d : Directive) : Nat := d.target.elim 0 fun t => t.utf8ByteSize + 1

/-- The name of the field that a directive asks for. -/
def asked (d : Directive) : String := d.field.elim "" (·.name)

/-- Whether a directive gives way to a later one that also applies: to a longer
target, of equal ones to a condition on a field, of equal ones to any. -/
def yieldsTo (d later : Directive) : Bool :=
  d.reach < later.reach || (d.reach == later.reach && !decide (later.asked < d.asked))

end Directive

/-- A filter: its directives in the order in which they are given. -/
structure Filter where
  directives : List Directive
deriving DecidableEq, Repr

namespace Filter

/-- Reads a filter. A text without directives lets errors through. -/
def ofText (s : String) : Except Directive.Fault Filter :=
  let pieces := (Text.split (· == ',') s.toList).filter (!·.isEmpty)
  if pieces.isEmpty then .ok ⟨[{ threshold := .upTo .error }]⟩
  else (pieces.mapM Directive.ofChars).map Filter.mk

/-- The directive that decides about a record. -/
def decisive? (f : Filter) (r : Record) : Option Directive :=
  (f.directives.filter (·.applies r)).foldl
    (fun best d =>
      match best with
      | some b => if b.yieldsTo d then some d else some b
      | none => some d)
    none

/-- Whether a record is let through. -/
def passes (f : Filter) (r : Record) : Bool :=
  (f.decisive? r).any (·.threshold.admits r.level)

end Filter

end Lockstep.Log
