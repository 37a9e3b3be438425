import Lockstep.Run
import Lockstep.Text.Blank
import Lockstep.Text.Split

/-!
# Commands for the scouting peer

The two commands, the text that goes over the wire, and the grammar by which
the peer reads it.
-/

namespace Lockstep

/-- A command for the scouting peer. -/
inductive Command where
  | start (run : Run)
  | stop
deriving DecidableEq

namespace Command

/-- The run that a command names. -/
def run? : Command → Option Run
  | .start run => some run
  | .stop => none

/-- The text of a command on the wire. -/
def wire : Command → String
  | .start run => "start " ++ run.text
  | .stop => "stop"

/-- The words of a text: what stands between spaces and commas, without blanks
at its ends, as far as anything is left. -/
def words (s : List Char) : List (List Char) :=
  ((Text.split (fun c => c == ' ' || c == ',') s).map Text.trim).filter (!·.isEmpty)

/-- Reads a command as the peer does. The verb is `start` with a run number or
`stop` alone, in lower case. -/
def ofText? (s : String) : Option Command :=
  match words s.toList with
  | [verb] => if verb = "stop".toList then some .stop else none
  | [verb,run] =>
    if verb = "start".toList then (Decimal.readWord? run).map .start else none
  | _ => none

end Command

end Lockstep
