import Lockstep.Decimal

/-!
# Run numbers

A run is numbered by a 64-bit word; number zero stands for no run.
-/

namespace Lockstep

/-- The number of a run. -/
abbrev Run := UInt64

/-- The decimal text of a run number. -/
def Run.text (r : Run) : String := Decimal.text r.toNat

end Lockstep
