import Lockstep.Feed
import Lockstep.Link

/-!
# Scripted links and feeds

Stand-ins for the peer and the status feed that answer from a script. All
handles to one stand-in share its memory; the reply that a link falls back on
belongs to the handle.
-/

namespace Lockstep.Scripted

/-- A reply from the script: `ok`, a text, or as if nobody was there. -/
inductive Reply where
  | ack
  | text (s : String)
  | unreachable
deriving DecidableEq, Repr

/-- The address of a stand-in. -/
def address : String := "mock"

/-- The verdict that a reply stands for. -/
def Reply.verdict : Reply → Except LinkError String
  | .ack => .ok acknowledgment
  | .text s => Lockstep.verdict s
  | .unreachable => .error (.unreachable address (.told "connection refused"))

/-! ## Links -/

/-- What the handles of a link share: the replies to come and the commands that
were sent. -/
structure Script where
  replies : List Reply
  sent : List Command
deriving DecidableEq

/-- A script of some replies. -/
def Script.ofReplies (replies : List Reply) : Script := ⟨replies,[]⟩

/-- Adds replies to those to come. -/
def Script.queue (s : Script) (replies : List Reply) : Script :=
  { s with replies := s.replies ++ replies }

/-- Forgets the commands that were sent. -/
def Script.clear (s : Script) : Script := { s with sent := [] }

/-- The reply that comes next for a handle with a fallback, and those after. -/
def Script.next (s : Script) (fallback : Reply) : Reply × List Reply :=
  match s.replies with
  | [] => (fallback,[])
  | reply :: rest => (reply,rest)

/-- The link of a handle. -/
def link (fallback : Reply) : Link Script where
  send command s :=
    let (reply,rest) := s.next fallback
    ({ result := reply.verdict },⟨rest,s.sent ++ [command]⟩)

/-! ## Feeds -/

/-- What the handles of a feed share: the entries to come, of which an empty one
is a poll that fails, the entry served last, and how often was polled. -/
structure Playlist where
  entries : List (Option Snapshot)
  last : Option Snapshot
  polls : Nat
deriving DecidableEq

/-- A playlist of some entries. -/
def Playlist.ofEntries (entries : List (Option Snapshot)) : Playlist := ⟨entries,none,0⟩

/-- The entry that comes next and the playlist after it. At the end the last
entry comes again. -/
def Playlist.next (p : Playlist) : Option Snapshot × Playlist :=
  match p.entries with
  | [] => (p.last,{ p with polls := p.polls + 1 })
  | entry :: rest => (entry,⟨rest,entry,p.polls + 1⟩)

/-- The status of a poll that fails. -/
def failure : FeedError := .status 503

/-- The feed of a playlist. -/
def feed : Feed Playlist where
  poll p :=
    let (entry,p) := p.next
    let result := match entry with
      | some snapshot => .ok snapshot
      | none => .error failure
    ({ result },p)

end Lockstep.Scripted
