import Lockstep.Command
import Lockstep.Error
import Lockstep.Log
import Lockstep.Text.Occurs

/-!
# Links to the peer

A link delivers a command and brings back the peer's verdict. It is a machine:
what it answers may depend on all it was sent before.
-/

namespace Lockstep

/-- The word that makes a reply an acknowledgment. -/
def acknowledgment : String := "ok"

/-- Whether a reply acknowledges. -/
def acknowledges (response : String) : Bool :=
  Text.occurs acknowledgment.toList response.toList

/-- The verdict that a reply stands for: itself, or that it does not
acknowledge. -/
def verdict (response : String) : Except LinkError String :=
  if acknowledges response then .ok response else .error (.notAcknowledged response)

/-- What came of sending a command, what was noted meanwhile, and how long it took, in
nanoseconds. -/
structure Delivery where
  result : Except LinkError String
  notes : List Log.Record := []
  took : Nat := 0

/-- A link, with what it remembers. -/
structure Link (σ : Type) where
  send : Command → σ → Delivery × σ

end Lockstep
