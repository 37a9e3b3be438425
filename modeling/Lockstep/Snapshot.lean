import Lockstep.Json.Value
import Lockstep.Run

/-!
# Snapshots of the facility

What one poll of the status feed tells, and its JSON text.
-/

namespace Lockstep

/-- The facility as the status feed reports it. -/
structure Snapshot where
  run : Run
  beamMode : String
  daqState : String
deriving DecidableEq

namespace Snapshot

/-- The members of a snapshot's JSON object. -/
inductive Field where
  | run
  | beamMode
  | daqState
deriving DecidableEq, Repr

/-- The name of a member. -/
def Field.name : Field → String
  | .run => "runNumber"
  | .beamMode => "lhcBeamMode"
  | .daqState => "daqState"

/-- The members in the order in which they are written. -/
def Field.all : List Field := [.run,.beamMode,.daqState]

/-- The member with a name. -/
def Field.ofName? (name : String) : Option Field := all.find? (·.name == name)

/-- The JSON value of a snapshot. -/
def toValue (s : Snapshot) : Json.Value :=
  .object [
    (Field.run.name,.nat s.run.toNat),
    (Field.beamMode.name,.string s.beamMode),
    (Field.daqState.name,.string s.daqState)]

/-- The JSON text of a snapshot. -/
def toJson (s : Snapshot) : String := s.toValue.compact

end Snapshot

end Lockstep
