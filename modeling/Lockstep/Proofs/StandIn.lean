import Mathlib.Data.List.Forall2
import Lockstep.Proofs.Agreement
import Lockstep.Proofs.Utf8
import Lockstep.Scripted

/-!
# A script in the peer's place

What a synchronizer makes of an answer is whether it acknowledges and what it
says. Two links that are alike in this (`Link.Alike`) lead to runs that differ in
nothing but the causes of failures (`runFor_mirrors`). The link over TCP and a
scripted link are alike where every connection has its reply in the script
(`alike_of_encounters`), so a script can take the place of the peer.
-/

namespace Lockstep

variable {φ σ τ : Type} {first : Link σ} {second : Link τ}

/-! ## Links that are alike -/

/-- Two answers tell a synchronizer the same. Of a peer that could not be spoken to
neither its address nor the cause counts. -/
inductive SameVerdict : Except LinkError String → Except LinkError String → Prop
  | acknowledged (response : String) : SameVerdict (.ok response) (.ok response)
  | refused (response : String) : SameVerdict (.error (.notAcknowledged response)) (.error (.notAcknowledged response))
  | unreached (address other : String) (cause reason : SystemError) :
      SameVerdict (.error (.unreachable address cause)) (.error (.unreachable other reason))

theorem sameVerdict_verdict (response : String) : SameVerdict (verdict response) (verdict response) := by
  unfold verdict
  split
  · exact .acknowledged response
  · exact .refused response

/-- Two links give the same verdicts on the next commands, as many as are counted. -/
def Link.Alike (first : Link σ) (second : Link τ) : Nat → σ → τ → Prop
  | 0,_,_ => True
  | n + 1,s,t => ∀ c, SameVerdict (first.send c s).1.result (second.send c t).1.result ∧
      first.Alike second n (first.send c s).2 (second.send c t).2

namespace Synchronizer

/-- Two exchanges of the same command in the same state, with the same verdict. -/
structure Exchange.Mirrors (x y : Exchange) : Prop where
  command : y.command = x.command
  before : y.before = x.before
  after : y.after = x.after
  verdict : SameVerdict x.result y.result

theorem Exchange.Mirrors.isAcknowledged {x y : Exchange} (mirrors : x.Mirrors y) :
    y.isAcknowledged = x.isAcknowledged := by
  have same := mirrors.verdict
  unfold Exchange.isAcknowledged
  generalize x.result = answer,y.result = other at same
  cases same with
  | acknowledged | refused | unreached => rfl

theorem commands_of_mirrors {xs ys : List Exchange} (mirrors : List.Forall₂ Exchange.Mirrors xs ys) :
    commands ys = commands xs := by
  induction mirrors with
  | nil => rfl
  | cons first _ ih => rw [commands_cons,commands_cons,first.command,ih]

section
variable {n : Nat} {s : σ} {t : τ}

theorem send_mirrors (alike : first.Alike second (n + 1) s t) (state : State) (c : Command) :
    (send first state c s).exchange.Mirrors (send second state c t).exchange ∧
      first.Alike second n (send first state c s).link (send second state c t).link := by
  obtain ⟨same,onward⟩ := alike c
  rw [send_exchange,send_exchange,send_link,send_link]
  refine ⟨⟨rfl,rfl,?_,same⟩,onward⟩
  generalize (first.send c s).1.result = answer,(second.send c t).1.result = other at same
  cases same with
  | acknowledged | refused | unreached => rfl

/-- Two cycles that differ at most in the causes of failures. -/
structure Cycle.Mirrors (done : Cycle σ) (other : Cycle τ) : Prop where
  outcome : other.outcome = done.outcome
  state : other.state = done.state
  exchanges : List.Forall₂ Exchange.Mirrors done.exchanges other.exchanges

theorem single_mirrors (alike : first.Alike second (n + 1) s t) (state : State) (c : Command) (outcome : Outcome) :
    (single first state c outcome s).Mirrors (single second state c outcome t) ∧
      first.Alike second n (single first state c outcome s).link (single second state c outcome t).link := by
  obtain ⟨mirrors,onward⟩ := send_mirrors alike state c
  refine ⟨⟨?_,mirrors.after,.cons mirrors .nil⟩,onward⟩
  simp only [single,mirrors.isAcknowledged]

theorem rollOver_mirrors {old new : Lockstep.Run}
    (alike : first.Alike second ((rollOver first old new s).exchanges.length + n) s t) :
    (rollOver first old new s).Mirrors (rollOver second old new t) ∧
      first.Alike second n (rollOver first old new s).link (rollOver second old new t).link := by
  unfold rollOver at alike ⊢
  by_cases stopped : (send first (.active old) .stop s).exchange.isAcknowledged = true
  · -- The start is sent as well, in the state that the stop has left.
    simp only [stopped,if_true] at alike ⊢
    have two : first.Alike second (n + 1 + 1) s t := by
      rw [Nat.add_comm] at alike
      exact alike
    obtain ⟨stop,onward⟩ := send_mirrors two (.active old) .stop
    have heard : (send second (.active old) .stop t).exchange.isAcknowledged = true :=
      stop.isAcknowledged.trans stopped
    simp only [heard,if_true]
    rw [stop.after]
    obtain ⟨start,last⟩ := single_mirrors onward (send first (.active old) .stop s).exchange.after (.start new)
      (.rolled old new)
    exact ⟨⟨start.outcome,start.state,.cons stop start.exchanges⟩,last⟩
  · simp only [stopped,Bool.false_eq_true,if_false] at alike ⊢
    have one : first.Alike second (n + 1) s t := by
      rw [Nat.add_comm] at alike
      exact alike
    obtain ⟨stop,onward⟩ := send_mirrors one (.active old) .stop
    have unheard : ¬(send second (.active old) .stop t).exchange.isAcknowledged = true := by
      rw [stop.isAcknowledged]
      exact stopped
    simp only [unheard,Bool.false_eq_true,if_false]
    exact ⟨⟨rfl,stop.after,.cons stop .nil⟩,onward⟩

theorem carryOut_mirrors (state : State) (decision : Decision)
    (alike : first.Alike second ((decision.carryOut first state s).exchanges.length + n) s t) :
    (decision.carryOut first state s).Mirrors (decision.carryOut second state t) ∧
      first.Alike second n (decision.carryOut first state s).link (decision.carryOut second state t).link := by
  cases decision with
  | rest outcome event =>
    refine ⟨⟨rfl,rfl,.nil⟩,?_⟩
    rw [← Nat.zero_add n]
    exact alike
  | command c outcome =>
    refine single_mirrors ?_ state c outcome
    rw [Nat.add_comm]
    exact alike
  | rollOver old new => exact rollOver_mirrors alike

end

/-! ## Runs over them -/

/-- Two runs that differ at most in the causes of failures. -/
structure Run.Mirrors (run : Run φ σ) (other : Run φ τ) : Prop where
  outcomes : other.outcomes = run.outcomes
  state : other.session.state = run.session.state
  feed : other.session.feed = run.session.feed
  exchanges : List.Forall₂ Exchange.Mirrors run.exchanges other.exchanges

variable {s : Session φ σ} {t : Session φ τ}

theorem step_mirrors (plan : Plan) (feed : Feed φ) (state : t.state = s.state) (polls : t.feed = s.feed) {n : Nat}
    (alike : first.Alike second ((step plan feed first s).exchanges.length + n) s.link t.link) :
    (step plan feed first s).Mirrors (step plan feed second t) ∧
      first.Alike second n (step plan feed first s).session.link (step plan feed second t).session.link := by
  rw [step_eq] at alike
  rw [step_eq,step_eq,state,polls]
  obtain ⟨done,onward⟩ := carryOut_mirrors s.state (plan.decide s.state (feed.poll s.feed).1) alike
  exact ⟨⟨congrArg ([·]) done.outcome,done.state,rfl,done.exchanges⟩,onward⟩

/-- Over links that are alike for as many commands as are sent, two runs mirror each
other. -/
theorem runFor_mirrors (plan : Plan) (feed : Feed φ) (n : Nat) (state : t.state = s.state) (polls : t.feed = s.feed)
    (alike : first.Alike second (runFor plan feed first n s).exchanges.length s.link t.link) :
    (runFor plan feed first n s).Mirrors (runFor plan feed second n t) := by
  induction n generalizing s t with
  | zero => exact ⟨rfl,state,polls,.nil⟩
  | succ n ih =>
    simp only [runFor,Run.append,List.length_append] at alike ⊢
    obtain ⟨now,onward⟩ := step_mirrors plan feed state polls alike
    have later := ih (s := wait plan (step plan feed first s).session) (t := wait plan (step plan feed second t).session)
      now.state now.feed onward
    exact ⟨by rw [now.outcomes,later.outcomes],later.state,later.feed,List.rel_append now.exchanges later.exchanges⟩

end Synchronizer

/-! ## What the peer reads -/

namespace TcpLink

/-- The connection of the command that comes after some others. -/
def Line.contact (line : Line) (others : Nat) : Contact :=
  line.contacts[others]?.getD (line.contacts.getLast?.getD .refused)

theorem link_heard (l : TcpLink) (c : Command) (line : Line) :
    (l.link.send c line).2.heard = line.heard ++ (heard? c (line.contact 0)).toList := by
  obtain ⟨contacts,heard⟩ := line
  match contacts with
  | [] | [_] | _ :: _ :: _ => rfl

theorem link_contact (l : TcpLink) (c : Command) (line : Line) (others : Nat) :
    (l.link.send c line).2.contact others = line.contact (others + 1) := by
  obtain ⟨contacts,heard⟩ := line
  match contacts with
  | [] | _ :: _ :: _ => rfl
  | [contact] => cases others <;> rfl

/-- The peer reads the text of every command whose connection comes about. -/
theorem link_after_heard (l : TcpLink) (line : Line) (cs : List Command) :
    (l.link.after line cs).heard =
      line.heard ++ (cs.mapIdx fun k c => (heard? c (line.contact k)).toList).flatten := by
  induction cs generalizing line with
  | nil => exact (List.append_nil _).symm
  | cons c cs ih =>
    rw [Link.after,ih,link_heard,List.mapIdx_cons,List.flatten_cons,List.append_assoc]
    simp only [link_contact]

/-- A reply that counts as a whole is read as it was written. -/
theorem response_ofString {text : String} (fits : (Utf8.ofString text).length ≤ replyLimit) :
    response (Utf8.ofString text) = text := by
  rw [response,List.take_of_length_le fits,Utf8.toLossyString_ofString]

end TcpLink

/-! ## Connections and their replies -/

namespace Scripted

open Synchronizer

/-- What may become of a connection that a reply of the script stands for: it fails, or
the peer, when it has read the command, replies in one piece with a text that counts as
a whole. -/
inductive Encounter where
  | unroutable
  | refused
  | unanswered
  | reset
  | closed
  | silent
  | replied (text : String) (fits : (Utf8.ofString text).length ≤ TcpLink.replyLimit)

def Encounter.contact : Encounter → Contact
  | .unroutable => .unroutable
  | .refused => .refused
  | .unanswered => .unanswered
  | .reset => .reset
  | .closed => .closed
  | .silent => .silent
  | .replied text _ => .replied (Utf8.ofString text)

/-- The reply that stands for a connection. -/
def Encounter.reply : Encounter → Reply
  | .unroutable | .refused | .unanswered | .reset => .unreachable
  | .closed | .silent => .text ""
  | .replied text _ => .text text

theorem deliver_verdict (l : TcpLink) (c : Command) (e : Encounter) :
    SameVerdict (l.deliver c e.contact).result e.reply.verdict := by
  cases e with
  | unroutable | refused | unanswered | reset => exact .unreached _ _ _ _
  | closed => exact sameVerdict_verdict ""
  | silent =>
    have nothing : Encounter.silent.reply.verdict = .error (.notAcknowledged "") := Peer.verdict_nothing
    rw [nothing]
    exact .refused ""
  | replied text fits =>
    simp only [Encounter.contact,Encounter.reply,TcpLink.deliver_replied,TcpLink.settled,Reply.verdict,
      TcpLink.response_ofString fits]
    exact sameVerdict_verdict text

section
variable (l : TcpLink) (fallback : Reply) (heard : List String) (sent : List Command)

/-- A connection that comes again and again is alike a script that is at its end. -/
theorem alike_of_fallback (e : Encounter) (n : Nat) :
    l.link.Alike (link e.reply) n ⟨[e.contact],heard⟩ ⟨[],sent⟩ := by
  induction n generalizing heard sent with
  | zero => trivial
  | succ n ih =>
    intro c
    exact ⟨deliver_verdict l c e,ih _ _⟩

/-- Connections are alike their replies as long as there are any, and ever after
where the script falls back on the reply to the last. -/
theorem alike_of_encounters (es : List Encounter) (n : Nat)
    (enough : n ≤ es.length ∨ es.getLast?.map Encounter.reply = some fallback) :
    l.link.Alike (link fallback) n ⟨es.map Encounter.contact,heard⟩ ⟨es.map Encounter.reply,sent⟩ := by
  induction es generalizing n heard sent with
  | nil =>
    rcases enough with none | last
    · obtain rfl := Nat.le_zero.mp none
      trivial
    · cases last
  | cons e es ih =>
    cases n with
    | zero => trivial
    | succ n =>
      cases es with
      | nil =>
        intro c
        refine ⟨deliver_verdict l c e,?_⟩
        rcases enough with one | last
        · obtain rfl : n = 0 := Nat.le_zero.mp (Nat.le_of_succ_le_succ one)
          trivial
        · obtain rfl : e.reply = fallback := Option.some.inj last
          exact alike_of_fallback l _ _ e n
      | cons next es =>
        intro c
        refine ⟨deliver_verdict l c e,ih _ _ n ?_⟩
        rcases enough with more | last
        · exact .inl (Nat.le_of_succ_le_succ more)
        · exact .inr last

end

theorem link_after_sent (fallback : Reply) (s : Script) (cs : List Command) :
    ((link fallback).after s cs).sent = s.sent ++ cs := by
  induction cs generalizing s with
  | nil => exact (List.append_nil _).symm
  | cons c cs ih =>
    rw [Link.after,ih]
    show (s.sent ++ [c]) ++ cs = s.sent ++ c :: cs
    rw [List.append_assoc,List.singleton_append]

/-- Let every connection to the peer fail or end in a reply that counts as a whole,
and let a script hold the replies that stand for them. A single command gets the
same verdict, with the same text, from the link over TCP and from the script. If
there are connections for all commands, or the script falls back on the reply to
the last connection, which comes again and again, then two runs over the two links
have the same outcomes, go through the same states and send the same commands. The
script records all of these, the peer reads those whose connection comes about. -/
theorem runFor_mirrors_script (plan : Plan) (feed : Feed φ) (l : TcpLink) (polls : φ) (es : List Encounter)
    (fallback : Reply) (n : Nat) :
    let line : TcpLink.Line := .ofContacts (es.map Encounter.contact)
    let real := fun k => runFor plan feed l.link k (.new polls line)
    let mock := fun k => runFor plan feed (link fallback) k (.new polls (.ofReplies (es.map Encounter.reply)))
    (∀ c e, SameVerdict (l.link.send c (.ofContacts [Encounter.contact e])).1.result
      ((link fallback).send c (.ofReplies [e.reply])).1.result) ∧
    ((real n).exchanges.length ≤ es.length ∨ es.getLast?.map Encounter.reply = some fallback →
      (mock n).outcomes = (real n).outcomes ∧
      (∀ k ≤ n, (mock k).session.state = (real k).session.state) ∧
      List.Forall₂ Exchange.Mirrors (real n).exchanges (mock n).exchanges ∧
      (mock n).session.link.sent = commands (real n).exchanges ∧
      (real n).session.link.heard =
        ((commands (real n).exchanges).mapIdx fun k c => (TcpLink.heard? c (line.contact k)).toList).flatten) := by
  intro line real mock
  refine ⟨fun c e => deliver_verdict l c e,fun enough => ?_⟩
  have mirrored (k : Nat) (inside : k ≤ n) : (real k).Mirrors (mock k) := by
    refine runFor_mirrors plan feed k rfl rfl (alike_of_encounters l fallback [] [] es _ ?_)
    have fewer := (prefix_runFor plan feed l.link inside (.new polls line)).length_le
    exact enough.imp_left (Nat.le_trans fewer)
  have whole := mirrored n (Nat.le_refl n)
  refine ⟨whole.outcomes,fun k inside => (mirrored k inside).state,whole.exchanges,?_,?_⟩
  · rw [(runFor_converses plan feed (link fallback) n _).memory_eq,link_after_sent,
      ← commands_of_mirrors whole.exchanges]
    rfl
  · rw [(runFor_converses plan feed l.link n _).memory_eq,TcpLink.link_after_heard]
    rfl

/-- A run that makes way for another: the reply to the first stop does not come, and
after the second nobody is there for the start. The script falls back on
acknowledging, which it is never asked to. -/
theorem hampered_rollOver_mirrored :
    let plan := Peer.stableBeams .onTransition
    let polls : Playlist := .ofEntries [some Peer.runFive,some { Peer.runFive with run := 6 }]
    let es : List Encounter := [.replied "ok" (by decide +kernel),.silent,.replied "ok" (by decide +kernel),.refused]
    let real := runFor plan feed Peer.usualLink.link 3 (.new polls (.ofContacts (es.map Encounter.contact)))
    let mock := runFor plan feed (link .ack) 3 (.new polls (.ofReplies (es.map Encounter.reply)))
    real.exchanges.length = es.length ∧ mock.outcomes = real.outcomes ∧
    real.outcomes = [.started 5,.commandFailed .stop,.commandFailed (.start 6)] ∧
    mock.session.link.sent = [.start 5,.stop,.stop,.start 6] ∧
    real.session.link.heard = ["start 5","stop","stop"] := by
  intro plan polls es real mock
  have enough : real.exchanges.length = es.length := by decide +kernel
  have sent : commands real.exchanges = [.start 5,.stop,.stop,.start 6] := by decide +kernel
  obtain ⟨_,mirrors⟩ := runFor_mirrors_script plan feed Peer.usualLink polls es .ack 3
  obtain ⟨outcomes,_,_,recorded,read⟩ := mirrors (.inl (Nat.le_of_eq enough))
  refine ⟨enough,outcomes,by decide +kernel,recorded.trans sent,read.trans ?_⟩
  show ((commands real.exchanges).mapIdx _).flatten = _
  rw [sent]
  decide +kernel

end Scripted

end Lockstep
