import Lockstep.Json.Value

/-!
# Log records

What the program tells about itself: a level, the part of the program that
speaks, a message and named values. The two forms of a record on a line leave
the time to the one who prints it.
-/

namespace Lockstep.Log

/-- How much a record matters. -/
inductive Level where
  | error
  | warn
  | info
  | debug
  | trace
deriving DecidableEq, Repr

/-- The name of a level. -/
def Level.name : Level → String
  | .error => "ERROR"
  | .warn => "WARN"
  | .info => "INFO"
  | .debug => "DEBUG"
  | .trace => "TRACE"

/-- How much detail a level stands for, from the errors up. -/
def Level.detail : Level → Nat
  | .error => 1
  | .warn => 2
  | .info => 3
  | .debug => 4
  | .trace => 5

/-- A value in a record. -/
inductive Field where
  | text (s : String)
  | number (n : Nat)
deriving DecidableEq, Repr

/-- The text of a value. -/
def Field.shown : Field → String
  | .text s => s
  | .number n => Decimal.text n

/-- The JSON value of a value. -/
def Field.toValue : Field → Json.Value
  | .text s => .string s
  | .number n => .nat n

/-- A record of the log. -/
structure Record where
  level : Level
  target : String
  message : String
  fields : List (String × Field) := []
deriving DecidableEq, Repr

/-- A record as a line of text. -/
def Record.line (r : Record) : String :=
  r.level.name ++ " " ++ r.target ++ ": " ++ r.message ++
    String.join (r.fields.map fun (name,x) => " " ++ name ++ "=" ++ x.shown)

/-- A record as a JSON object. -/
def Record.toValue (r : Record) : Json.Value :=
  .object [("level",.string r.level.name),
    ("fields",.object (("message",.string r.message) ::
      r.fields.map fun (name,x) => (name,x.toValue))),
    ("target",.string r.target)]

end Lockstep.Log
