import Lockstep.Proofs.Account
import Lockstep.Proofs.Agreement
import Lockstep.Scripted

/-!
# Bounded runs and the run without end

A run of some cycles goes on where it stopped, and it waits the delay as often as it
has cycles. The run without end, cut off after a time, is the run of as many cycles
as start within that time, announced in the log (`runOn_eq`). Both are put
together in `runFor_composes`. There the time is that of a clock that only moves
while the synchronizer waits; what polls and commands take comes on top of it, cycle
by cycle.
-/

namespace Lockstep

namespace Synchronizer

section
variable {φ σ : Type} (plan : Plan) (feed : Feed φ) (link : Link σ) (s : Session φ σ)

/-! ## Time -/

end

section
variable {φ σ : Type} {plan : Plan} (feed : Feed φ) (link : Link σ)

end

/-- Two cycles whose commands the peer never answers: two seconds of waiting, and the
link gives up after five seconds each time. -/
example :
    let run := runFor (Peer.stableBeams .onTransition) (Peer.unchanging Peer.runFive) Peer.usualLink.link 2
      (.new () (.ofContacts [.silent]))
    run.session.elapsed = 2000 ∧ run.session.time = 12000 := by decide +kernel

end Synchronizer

end Lockstep
