import Lockstep.Error
import Lockstep.Log
import Lockstep.Snapshot

/-!
# Status feeds

A feed answers polls with snapshots. Like a link it is a machine with a memory.
-/

namespace Lockstep

/-- What came of a poll, what was noted meanwhile, and how long it took, in
nanoseconds. -/
structure Reading where
  result : Except FeedError Snapshot
  notes : List Log.Record := []
  took : Nat := 0

/-- A feed, with what it remembers. -/
structure Feed (φ : Type) where
  poll : φ → Reading × φ

end Lockstep
