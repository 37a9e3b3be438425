import Lockstep.TcpLink

/-!
# The scouting peer

The peer as it is documented: it is stopped or runs a run, does what fits its
state and ignores what does not. `Peer.link` puts it behind a network that may
lose a command on the way or its reply on the way back; what the synchronizer
then sees is what the link over TCP makes of it.
-/

namespace Lockstep

/-- The state of the peer. -/
inductive Peer where
  | stopped
  | running (run : Run)
deriving DecidableEq

namespace Peer

/-- The reply to a command that does not fit. -/
def ignored : String := "ignored"

/-- The reply to a text that is no command. -/
def unreadable : String := "ERROR: Cannot parse input."

/-- What the peer does with a command, and its reply. -/
def obey (p : Peer) (c : Command) : String × Peer :=
  match p,c with
  | .stopped,.start run => (acknowledgment,.running run)
  | .running _,.stop => (acknowledgment,.stopped)
  | p,_ => (ignored,p)

/-- What the peer does with a text, and its reply. -/
def receive (p : Peer) (text : String) : String × Peer :=
  match Command.ofText? text with
  | some c => p.obey c
  | none => (unreadable,p)

/-- What becomes of a command: it is answered, or it never arrives, or it
arrives and the answer is lost. -/
inductive Fate where
  | answered
  | unroutable
  | refused
  | unanswered
  | closed
  | silent
  | reset
deriving DecidableEq, Repr

/-- The connection that a command with a fate is sent over, to a peer that would
reply. -/
def Fate.contact (reply : String) : Fate → Contact
  | .answered => .replied (Utf8.ofString reply)
  | .unroutable => .unroutable
  | .refused => .refused
  | .unanswered => .unanswered
  | .closed => .closed
  | .silent => .silent
  | .reset => .reset

/-- Whether the peer reads a command. -/
def Fate.arrives : Fate → Bool
  | .unroutable | .refused | .unanswered => false
  | .answered | .closed | .silent | .reset => true

/-- Whether the peer reads a command and its reply does not come back. -/
def Fate.losesReply : Fate → Bool
  | .closed | .silent | .reset => true
  | .answered | .unroutable | .refused | .unanswered => false

/-- The peer behind a network, with the fates to come; after them everything is
answered. -/
structure Remote where
  peer : Peer
  fates : List Fate
deriving DecidableEq

/-- The fate of the command that comes after some others. -/
def Remote.fate (r : Remote) (others : Nat) : Fate := r.fates[others]?.getD .answered

/-- The link to a peer over TCP. The peer acts on what it reads from the
connection. -/
def link (l : TcpLink) : Link Remote where
  send c r :=
    let (reply,after) := r.peer.receive c.wire
    let contact := (r.fate 0).contact reply
    (l.deliver c contact,
      ⟨if contact.reads then after else r.peer,r.fates.tail⟩)

end Peer

end Lockstep
