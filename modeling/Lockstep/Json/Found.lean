import Lockstep.Json.Value
import Lockstep.Text.Quoted

/-!
# What stood in a value's place

The description of a JSON value that is not of the type asked for.
-/

namespace Lockstep.Json

/-- The kind of a value, with its content where it is a scalar. -/
inductive Found where
  | null
  | bool (b : Bool)
  | number (n : Number)
  | string (s : String)
  | list
  | object

/-- The kind of a value. -/
def Value.found : Value → Found
  | .null => .null
  | .bool b => .bool b
  | .number n => .number n
  | .string s => .string s
  | .array _ => .list
  | .object _ => .object

/-- Whole numbers and doubles are described apart. -/
def Number.describe : Number → String
  | .unsigned n => "integer \x60" ++ Decimal.text n ++ "\x60"
  | .negative n => "integer \x60-" ++ Decimal.text n ++ "\x60"
  | .float x => "floating point \x60" ++ Decimal.pointedText x ++ "\x60"

/-- The wording of a description. -/
def Found.describe : Found → String
  | .null => "null"
  | .bool b => "boolean \x60" ++ (if b then "true" else "false") ++ "\x60"
  | .number n => n.describe
  | .string s => "string " ++ Text.quoted s
  | .list => "sequence"
  | .object => "map"

/-- Reads as much of a value as its description needs: scalars to their end, of
a list or an object only the bracket. -/
def readFound (s : List UInt8) : Except Fault Found :=
  match s with
  | [] => .error .endInValue
  | b :: t =>
    if b = ascii 'n' then (readWord (word "ull") t).map fun _ => .null
    else if b = ascii 't' then (readWord (word "rue") t).map fun _ => .bool true
    else if b = ascii 'f' then (readWord (word "alse") t).map fun _ => .bool false
    else if b = ascii '"' then (readString t).map fun (text,_) => .string text
    else if b = ascii '-' ∨ isDigit b then (readNumber s).map fun (n,_) => .number n
    else if b = ascii '[' then .ok .list
    else if b = 0x7B then .ok .object
    else .error .expectedValue

end Lockstep.Json
