import Lockstep.Link
import Lockstep.Settings
import Lockstep.Text.Blank
import Lockstep.Utf8

/-!
# The link over TCP

Every command opens a connection of its own, is written to it as text, and the
reply is read once. What becomes of the connection is a `Contact`; everything else
follows from it.
-/

namespace Lockstep

/-- What a link meets that waits for a reply. A reply is what has arrived of it when
it is read: bytes that come later are never seen. -/
inductive Answer where
  | broken (error : SystemError)
  | closed
  | silent
  | replied (bytes : List UInt8)
deriving DecidableEq, Repr

/-- What becomes of a connection to the peer: it fails, or takes too long, or it comes
about, be it to a peer that never reads the command. -/
inductive Contact where
  | failed (error : SystemError)
  | unanswered
  | met (reads : Bool) (answer : Answer)
deriving DecidableEq, Repr

namespace Contact

/-- There is no way to the peer. -/
def unroutable : Contact := .failed .networkUnreachable

/-- Nobody listens at the peer's port. -/
def refused : Contact := .failed .connectionRefused

/-- A peer that reads the command and resets the connection. -/
def reset : Contact := .met true (.broken .connectionReset)

/-- A peer that reads the command and closes without a byte. -/
def closed : Contact := .met true .closed

/-- A peer that reads the command and says nothing. -/
def silent : Contact := .met true .silent

/-- A peer that reads the command and replies in one piece. -/
def replied (bytes : List UInt8) : Contact := .met true (.replied bytes)

/-- Whether the peer reads the command. -/
def reads : Contact → Bool
  | .failed _ | .unanswered => false
  | .met reads _ => reads

end Contact

/-- The link to a peer at an address. -/
structure TcpLink where
  address : String
  connectTimeout : Duration := .ofSeconds 5
  readTimeout : Duration := .ofSeconds 5

namespace TcpLink

/-- The link to the configured peer. -/
def ofSettings (p : Settings.Peer) : TcpLink := ⟨p.address,p.connectTimeout,p.readTimeout⟩

/-- How many bytes of a reply count. -/
def replyLimit : Nat := 256

/-- The text of a reply. -/
def response (bytes : List UInt8) : String := Utf8.toLossyString (bytes.take replyLimit)

/-- What the peer reads from a connection. -/
def heard? (c : Command) (contact : Contact) : Option String :=
  if contact.reads then some c.wire else none

/-- The part of the program that speaks. -/
def target : String := "scout_sync::adapters::control_link"

/-- The record of a command that is about to be written. -/
def sending (l : TcpLink) (c : Command) : Log.Record :=
  ⟨.debug,target,"Sending control command",
    [("peer",.text l.address),("command",.text c.wire)]⟩

/-- The record of a reply. -/
def answered (l : TcpLink) (response : String) : Log.Record :=
  ⟨.debug,target,"Peer response",
    [("peer",.text l.address),("response",.text (Text.trimmed response))]⟩

/-- A delivery that a reply has ended. -/
def settled (l : TcpLink) (c : Command) (response : String) : Delivery :=
  { result := verdict response, notes := [l.sending c,l.answered response] }

/-- What a link makes of an answer. A peer that closes has replied with nothing; one
that stays silent is not waited for beyond the timeout. -/
def conclude (l : TcpLink) (c : Command) : Answer → Delivery
  | .broken error => { result := .error (.unreachable l.address error), notes := [l.sending c] }
  | .closed => l.settled c ""
  | .silent =>
    { result := .error (.notAcknowledged ""), notes := [l.sending c], took := l.readTimeout.inNanos }
  | .replied bytes => l.settled c (response bytes)

/-- What comes of a command on a connection. Of the time it takes only the two
timeouts are counted. -/
def deliver (l : TcpLink) (c : Command) : Contact → Delivery
  | .failed error => { result := .error (.unreachable l.address error) }
  | .unanswered =>
    let cause := .told ("connect timed out after " ++ l.connectTimeout.plainText)
    { result := .error (.unreachable l.address cause), took := l.connectTimeout.inNanos }
  | .met _ answer => l.conclude c answer

theorem deliver_replied (l : TcpLink) (c : Command) (bytes : List UInt8) :
    l.deliver c (.replied bytes) = l.settled c (response bytes) := rfl

/-- The connections to come, the last of which comes again and again, and what
the peer has read. -/
structure Line where
  contacts : List Contact
  heard : List String

/-- The connections to come. -/
def Line.ofContacts (contacts : List Contact) : Line := ⟨contacts,[]⟩

/-- The next connection; where none is foreseen nobody listens. -/
def Line.next (line : Line) : Contact × List Contact :=
  match line.contacts with
  | [] => (.refused,[])
  | [contact] => (contact,[contact])
  | contact :: rest => (contact,rest)

/-- The link over a line. -/
def link (l : TcpLink) : Link Line where
  send c line :=
    let (contact,rest) := line.next
    (l.deliver c contact,⟨rest,line.heard ++ (heard? c contact).toList⟩)

end TcpLink

end Lockstep
