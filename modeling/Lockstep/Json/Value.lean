import Lockstep.Decimal.Shortest
import Lockstep.Json.Number

/-!
# JSON values and their text

A value as a tree, the members of an object in the order of the text, and two
ways to write it: on one line without spaces, or indented by two spaces.
-/

namespace Lockstep.Json

/-- A JSON value. -/
inductive Value where
  | null
  | bool (b : Bool)
  | number (n : Number)
  | string (s : String)
  | array (items : List Value)
  | object (members : List (String × Value))

namespace Value

/-- A whole number as a value. -/
def nat (n : Nat) : Value := .number (.unsigned n)

/-- The value of a member; of several with one name the last counts. -/
def member? (v : Value) (name : String) : Option Value :=
  match v with
  | .object members => members.reverse.lookup name
  | _ => none

end Value

/-! ## Writing -/

/-- One character inside a string. -/
def writeChar (c : Char) : List Char :=
  if c = '"' then ['\\','"']
  else if c = '\\' then ['\\','\\']
  else if c = '\x08' then ['\\','b']
  else if c = '\t' then ['\\','t']
  else if c = '\n' then ['\\','n']
  else if c = '\x0c' then ['\\','f']
  else if c = '\r' then ['\\','r']
  else if c.toNat < 0x20 then
    ['\\','u','0','0',Nat.digitChar (c.toNat / 16),Nat.digitChar (c.toNat % 16)]
  else [c]

/-- A string with its quotes. -/
def writeString (s : String) : List Char := '"' :: s.toList.flatMap writeChar ++ ['"']

/-- A number. -/
def writeNumber : Number → List Char
  | .unsigned n => Decimal.digits n
  | .negative n => '-' :: Decimal.digits n
  | .float x => (Decimal.pointedText x).toList

/-- A value that is no list and no object with something in it. -/
def Value.writeScalar : Value → List Char
  | .null => "null".toList
  | .bool true => "true".toList
  | .bool false => "false".toList
  | .number n => writeNumber n
  | .string s => writeString s
  | .array _ => "[]".toList
  | .object _ => ['\x7b','\x7d']

mutual

/-- A value on one line. -/
def Value.writeCompact : Value → List Char
  | .array (v :: vs) => '[' :: (v.writeCompact ++ writeItems vs) ++ [']']
  | .object ((name,v) :: ms) =>
    '\x7b' :: (writeString name ++ ':' :: (v.writeCompact ++ writeMembers ms)) ++ ['\x7d']
  | v => v.writeScalar

/-- The elements of a list after the first. -/
def writeItems : List Value → List Char
  | [] => []
  | v :: vs => ',' :: (v.writeCompact ++ writeItems vs)

/-- The members of an object after the first. -/
def writeMembers : List (String × Value) → List Char
  | [] => []
  | (name,v) :: ms =>
    ',' :: (writeString name ++ ':' :: (v.writeCompact ++ writeMembers ms))

end

/-- The start of a line at a depth. -/
def newLine (depth : Nat) : List Char := '\n' :: List.replicate (2 * depth) ' '

mutual

/-- A value with every element on a line of its own. -/
def Value.writePretty (depth : Nat) : Value → List Char
  | .array (v :: vs) =>
    '[' :: (newLine (depth + 1) ++ v.writePretty (depth + 1) ++ writePrettyItems (depth + 1) vs) ++
      newLine depth ++ [']']
  | .object ((name,v) :: ms) =>
    '\x7b' :: (newLine (depth + 1) ++ writeString name ++ ':' :: ' ' ::
      (v.writePretty (depth + 1) ++ writePrettyMembers (depth + 1) ms)) ++
      newLine depth ++ ['\x7d']
  | v => v.writeScalar

/-- The elements of a list after the first. -/
def writePrettyItems (depth : Nat) : List Value → List Char
  | [] => []
  | v :: vs => ',' :: (newLine depth ++ v.writePretty depth ++ writePrettyItems depth vs)

/-- The members of an object after the first. -/
def writePrettyMembers (depth : Nat) : List (String × Value) → List Char
  | [] => []
  | (name,v) :: ms =>
    ',' :: (newLine depth ++ writeString name ++ ':' :: ' ' ::
      (v.writePretty depth ++ writePrettyMembers depth ms))

end

/-- The text of a value without spaces. -/
def Value.compact (v : Value) : String := String.ofList v.writeCompact

/-- The text of a value, indented. -/
def Value.pretty (v : Value) : String := String.ofList (v.writePretty 0)

end Lockstep.Json
