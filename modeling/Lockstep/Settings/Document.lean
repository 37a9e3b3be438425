import Lockstep.Decimal.Shortest
import Lockstep.Json.Found

/-!
# Documents

A document is a tree of values that settings are read from. It comes as a whole
from a JSON value or is laid together from several sources, so every value
remembers where it comes from. The entries of a table are in ascending order of
their keys, each key once.
-/

namespace Lockstep.Settings

open Lockstep.Decimal (Binary64)

/-- Where a value comes from. -/
inductive Origin where
  | json
  | defaults
  | file (name : String)
  | environment
deriving DecidableEq, Repr

/-- A value with its origin. Numbers keep the kind they are written as, and a
single character is told from a text. -/
inductive Document where
  | null (origin : Origin)
  | bool (origin : Origin) (b : Bool)
  | unsigned (origin : Origin) (n : Nat)
  | signed (origin : Origin) (n : Int)
  | float (origin : Origin) (x : Binary64)
  | char (origin : Origin) (c : Char)
  | text (origin : Origin) (s : String)
  | list (origin : Origin) (items : List Document)
  | table (origin : Origin) (entries : List (String × Document))

/-! ## Tables -/

/-- Puts an entry into its place in a table, over one with the same key. -/
def insertEntry {α : Type} (key : String) (value : α) : List (String × α) → List (String × α)
  | [] => [(key,value)]
  | (k,v) :: rest =>
    if key < k then (key,value) :: (k,v) :: rest
    else if key = k then (key,value) :: rest
    else (k,v) :: insertEntry key value rest

/-- The table of some entries; of several with one key the last counts. -/
def tableOf {α : Type} (entries : List (String × α)) : List (String × α) :=
  entries.foldl (fun table (k,v) => insertEntry k v table) []

namespace Document

/-- Where a value comes from. -/
def origin : Document → Origin
  | .null o | .bool o _ | .unsigned o _ | .signed o _ | .float o _ | .char o _ | .text o _
  | .list o _ | .table o _ => o

mutual

/-- A JSON value as a document of some origin. -/
def ofValue (o : Origin) : Json.Value → Document
  | .null => .null o
  | .bool b => .bool o b
  | .number (.unsigned n) => .unsigned o n
  | .number (.negative n) => .signed o (-n)
  | .number (.float x) => .float o x
  | .string s => .text o s
  | .array items => .list o (ofItems o items)
  | .object members => .table o (ofMembers o members [])

/-- The elements of a list as documents. -/
def ofItems (o : Origin) : List Json.Value → List Document
  | [] => []
  | v :: vs => ofValue o v :: ofItems o vs

/-- The members of an object, put into a table. -/
def ofMembers (o : Origin) :
    List (String × Json.Value) → List (String × Document) → List (String × Document)
  | [],built => built
  | (name,v) :: ms,built => ofMembers o ms (insertEntry name (ofValue o v) built)

end

/-! ## Description -/

/-- A value as it is described among JSON values. -/
def found : Document → Json.Found
  | .null _ => .null
  | .bool _ b => .bool b
  | .unsigned _ n => .number (.unsigned n)
  | .signed _ n => .number (if n < 0 then .negative n.natAbs else .unsigned n.natAbs)
  | .float _ x => .number (.float x)
  | .char _ c => .string (String.singleton c)
  | .text _ s => .string s
  | .list _ _ => .list
  | .table _ _ => .object

/-- A whole number with its sign. -/
def signedText (n : Int) : String :=
  (if n < 0 then "-" else "") ++ Decimal.text n.natAbs

/-- A value as it is described among layers. -/
def describe : Document → String
  | .null _ => "unit"
  | .bool _ b => "bool " ++ if b then "true" else "false"
  | .unsigned _ n => "unsigned int \x60" ++ Decimal.text n ++ "\x60"
  | .signed _ n => "signed int \x60" ++ signedText n ++ "\x60"
  | .float _ x => "float \x60" ++ Decimal.plainText x ++ "\x60"
  | .char _ c => "string " ++ Text.quoted (String.singleton c)
  | .text _ s => "string " ++ Text.quoted s
  | .list _ _ => "sequence"
  | .table _ _ => "map"

end Document

end Lockstep.Settings
