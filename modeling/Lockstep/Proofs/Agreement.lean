import Lockstep.Peer
import Lockstep.Proofs.Conversation
import Lockstep.Proofs.Wire

/-!
# Agreement with the peer

The synchronizer and the documented peer are two machines that see each other
only through the text of commands and replies. As long as no reply is lost they
agree after every command (`Sound.after_send`); under the gated policy the peer
then never ignores a command (`answered_acknowledged`), and it follows the
snapshot within a cycle (`step_follows`).
-/

namespace Lockstep.Peer

open Synchronizer

variable {φ : Type}

/-- The synchronizer is active with a run exactly where the peer runs it, and idle
exactly where the peer is stopped. -/
structure Agree (state : State) (p : Peer) : Prop where
  active : ∀ run, state = .active run ↔ p = .running run
  idle : state = .idle ↔ p = .stopped

theorem agree_idle : Agree .idle .stopped := ⟨by simp,by simp⟩
theorem agree_active (run : Lockstep.Run) : Agree (.active run) (.running run) := ⟨by simp,by simp⟩

theorem Agree.cases {state : State} {p : Peer} (agree : Agree state p) :
    (state = .idle ∧ p = .stopped) ∨ ∃ run, state = .active run ∧ p = .running run := by
  cases state with
  | idle => exact .inl ⟨rfl,agree.idle.mp rfl⟩
  | active run => exact .inr ⟨run,rfl,(agree.active run).mp rfl⟩

/-! ## What the peer hears and says -/

/-- The peer reads the text of a command as that command. -/
theorem receive_wire (p : Peer) (c : Command) : p.receive c.wire = p.obey c := by
  rw [receive,Command.ofText?_wire]

/-- A peer that does not acknowledge ignores the command and stays as it is. -/
theorem obey_cases (p : Peer) (c : Command) :
    (p.obey c).1 = acknowledgment ∨ p.obey c = (ignored,p) := by
  fun_cases obey p c with
  | case1 | case2 => exact .inl rfl
  | case3 => exact .inr rfl

theorem ignored_ne : ignored ≠ acknowledgment := by decide
theorem response_acknowledgment : TcpLink.response (Utf8.ofString acknowledgment) = acknowledgment := by
  decide +kernel
theorem response_ignored : TcpLink.response (Utf8.ofString ignored) = ignored := by decide +kernel
theorem verdict_acknowledgment : verdict acknowledgment = .ok acknowledgment := by
  rw [verdict,if_pos (by decide +kernel)]
theorem verdict_ignored : verdict ignored = .error (.notAcknowledged ignored) := by
  rw [verdict,if_neg (by decide +kernel)]
theorem verdict_nothing : verdict "" = .error (.notAcknowledged "") := by
  rw [verdict,if_neg (by decide +kernel)]

/-- What the synchronizer sees of a command that is answered. -/
theorem deliver_answered (l : TcpLink) (p : Peer) (c : Command) :
    (l.deliver c (Fate.answered.contact (p.obey c).1)).result = verdict (p.obey c).1 := by
  simp only [Fate.contact,TcpLink.deliver_replied,TcpLink.settled]
  rcases obey_cases p c with said | said
  · rw [said,response_acknowledgment]
  · rw [said,response_ignored]

/-- A command whose answer does not come is not acknowledged. -/
theorem deliver_unanswered (l : TcpLink) (c : Command) (reply : String) {fate : Fate} (other : fate ≠ .answered) :
    ∃ error, (l.deliver c (fate.contact reply)).result = .error error := by
  cases fate with
  | answered => exact absurd rfl other
  | closed => exact ⟨_,verdict_nothing⟩
  | unroutable | refused | unanswered | silent | reset => exact ⟨_,rfl⟩

theorem contact_reads (fate : Fate) (reply : String) : (fate.contact reply).reads = fate.arrives := by
  cases fate <;> rfl

/-! ## One command -/

section
variable (l : TcpLink) (state : State) (c : Command) (r : Remote)

/-- The peer acts on a command that arrives. -/
theorem send_remote :
    (send (link l) state c r).link = ⟨if (r.fate 0).arrives then (r.peer.obey c).2 else r.peer,r.fates.tail⟩ := by
  rw [send_link]
  simp only [link,receive_wire,contact_reads]

theorem send_result :
    (send (link l) state c r).exchange.result = (l.deliver c ((r.fate 0).contact (r.peer.obey c).1)).result := by
  rw [send_exchange]
  simp only [link,receive_wire]

/-- A command is acknowledged exactly where it is answered by a peer that obeys
it. -/
theorem acknowledged_iff : (send (link l) state c r).exchange.isAcknowledged = true ↔
    r.fate 0 = .answered ∧ (r.peer.obey c).1 = acknowledgment := by
  rw [Exchange.isAcknowledged,send_result]
  by_cases answered : r.fate 0 = .answered
  · rw [answered,deliver_answered]
    rcases obey_cases r.peer c with said | said
    · simp [said,verdict_acknowledgment]
    · simp [said,verdict_ignored,ignored_ne]
  · obtain ⟨error,failed⟩ := deliver_unanswered l c (r.peer.obey c).1 answered
    simp [failed,answered]

end

variable {l : TcpLink} {state : State} {c : Command} {p : Peer} {r : Remote}

/-- A command that the peer obeys brings it where the synchronizer goes. -/
theorem obey_agrees (obeyed : (p.obey c).1 = acknowledgment) : Agree (.ofCommand c) (p.obey c).2 := by
  cases p with
  | stopped =>
    cases c with
    | start run => exact agree_active run
    | stop => exact absurd obeyed ignored_ne
  | running run =>
    cases c with
    | start other => exact absurd obeyed ignored_ne
    | stop => exact agree_idle

/-- A peer that agrees obeys what is legal. -/
theorem obey_legal (agree : Agree state p) (legal : Legal state c) : (p.obey c).1 = acknowledgment := by
  rcases agree.cases with ⟨rfl,rfl⟩ | ⟨run,rfl,rfl⟩
  · cases c with
    | start run => rfl
    | stop => exact legal.elim
  · cases c with
    | start run => exact legal.elim
    | stop => rfl

/-- A command keeps the two sides in agreement unless its reply is lost. -/
theorem send_agrees (agree : Agree state r.peer) (safe : (r.fate 0).losesReply = false) :
    Agree (send (link l) state c r).exchange.after (send (link l) state c r).link.peer := by
  rw [send_after,send_remote]
  by_cases heard : (send (link l) state c r).exchange.isAcknowledged = true
  · obtain ⟨answered,obeyed⟩ := (acknowledged_iff l state c r).mp heard
    rw [if_pos heard,answered]
    exact obey_agrees obeyed
  · rw [if_neg heard]
    cases fate : r.fate 0 with
    | unroutable | refused | unanswered => exact agree
    | closed | silent | reset => rw [fate] at safe; cases safe
    | answered =>
      have unheeded : (r.peer.obey c).1 ≠ acknowledgment := fun obeyed =>
        heard ((acknowledged_iff l state c r).mpr ⟨fate,obeyed⟩)
      rw [(obey_cases r.peer c).resolve_left unheeded]
      exact agree

/-! ## Fates -/

theorem Remote.fate_safe {others : Nat} (safe : ∀ fate ∈ r.fates, fate.losesReply = false) :
    (r.fate others).losesReply = false := by
  unfold Remote.fate
  cases found : r.fates[others]? with
  | none => rfl
  | some fate => exact safe fate (List.mem_of_getElem? found)

/-- Both sides agree and no reply is going to be lost. -/
structure Sound (state : State) (r : Remote) : Prop where
  agree : Agree state r.peer
  safe : ∀ fate ∈ r.fates, fate.losesReply = false

theorem Sound.after_send (sound : Sound state r) :
    Sound (send (link l) state c r).exchange.after (send (link l) state c r).link := by
  refine ⟨send_agrees sound.agree (Remote.fate_safe sound.safe),?_⟩
  rw [send_remote]
  intro fate member
  exact sound.safe fate (List.mem_of_mem_tail member)

theorem link_after_fates (l : TcpLink) (r : Remote) (cs : List Command) :
    ((link l).after r cs).fates = r.fates.drop cs.length := by
  induction cs generalizing r with
  | nil => rfl
  | cons c cs ih =>
    rw [Link.after,ih]
    show r.fates.tail.drop cs.length = _
    rw [List.drop_tail,List.length_cons]

/-- Every command meets the fate at its place. -/
theorem link_after_fate (l : TcpLink) (r : Remote) (cs : List Command) (others : Nat) :
    ((link l).after r cs).fate others = r.fate (cs.length + others) := by
  unfold Remote.fate
  rw [link_after_fates,List.getElem?_drop]

theorem send_fate (l : TcpLink) (state : State) (c : Command) (r : Remote) (others : Nat) :
    (send (link l) state c r).link.fate others = r.fate (others + 1) := by
  rw [send_remote]
  show (r.fates.tail[others]?).getD .answered = (r.fates[others + 1]?).getD .answered
  rw [List.getElem?_tail]

/-! ## Runs -/

variable {rule : State → Command → Prop} {final : State} {last : Remote} {xs : List Exchange}

/-- Where both sides agree, legal commands that are all answered are all
acknowledged, and both sides agree afterwards. -/
theorem answered_acknowledged (lawful : ∀ state c, rule state c → Legal state c)
    (talk : Conversation (link l) rule state r xs final last) (agree : Agree state r.peer)
    (answered : ∀ k < xs.length, r.fate k = .answered) :
    (∀ x ∈ xs, x.isAcknowledged = true) ∧ Agree final last.peer := by
  induction talk with
  | silence => exact ⟨nofun,agree⟩
  | @command state _ r _ c rest allowed onward ih =>
    have now : r.fate 0 = .answered := answered 0 (by simp)
    have heard : (send (link l) state c r).exchange.isAcknowledged = true :=
      (acknowledged_iff l state c r).mpr ⟨now,obey_legal agree (lawful state c allowed)⟩
    have later : ∀ k < rest.length, (send (link l) state c r).link.fate k = .answered := by
      intro k inside
      rw [send_fate]
      exact answered (k + 1) (by simpa using inside)
    obtain ⟨others,agreed⟩ := ih (send_agrees agree (by rw [now]; rfl)) later
    refine ⟨?_,agreed⟩
    intro x member
    rcases List.mem_cons.mp member with rfl | member
    · exact heard
    · exact others x member

/-- The peer does what a snapshot asks for. -/
structure Follows (conditions : Conditions) (snapshot : Snapshot) (p : Peer) : Prop where
  desired : conditions.wants snapshot = true → 0 < snapshot.run → p = .running snapshot.run
  undesired : conditions.wants snapshot = false → p = .stopped

/-- Where both sides agree, they agree after a cycle of the gated policy whose
commands are all answered, and the peer follows the snapshot of the cycle. -/
theorem step_follows {plan : Plan} (gated : plan.resend = .onTransition) (feed : Feed φ)
    {s : Session φ Remote} (agree : Agree s.state s.link.peer) {snapshot : Snapshot}
    (read : (feed.poll s.feed).1.result = .ok snapshot)
    (answered : ∀ k < (step plan feed (link l) s).exchanges.length, s.link.fate k = .answered) :
    Agree (step plan feed (link l) s).session.state (step plan feed (link l) s).session.link.peer ∧
    Follows plan.conditions snapshot (step plan feed (link l) s).session.link.peer := by
  obtain ⟨heard,agreed⟩ := answered_acknowledged (fun _ _ allowed => allowed.legal gated)
    (step_converses plan feed (link l) s) agree answered
  have reached {goal : State} (asked : asks? plan.conditions (feed.poll s.feed).1 = some goal) :
      Agree goal (step plan feed (link l) s).session.link.peer := by
    rw [← step_state feed (link l) s asked heard]
    exact agreed
  refine ⟨agreed,fun desired named => ?_,fun undesired => ?_⟩
  · have present : snapshot.run ≠ 0 := UInt64.pos_iff_ne_zero.mp named
    exact ((reached (by simp [asks?,read,target?,desired,present])).active snapshot.run).mp rfl
  · exact (reached (by simp [asks?,read,target?,undesired])).idle.mp rfl

/-- The synchronizer and the peer begin idle and stopped, and a command may fail to
arrive but no reply is lost. Then under either policy they agree after every
command and every cycle. Under the gated policy the peer acknowledges every
command that it reads, and a cycle that fetches a snapshot and whose commands are
all answered leaves the peer as the snapshot asks. -/
theorem runFor_agrees (plan : Plan) (feed : Feed φ) (l : TcpLink) (polls : φ) (fates : List Fate)
    (safe : ∀ fate ∈ fates, fate.losesReply = false) (n : Nat) :
    let start : Remote := ⟨.stopped,fates⟩
    let run := runFor plan feed (link l) n (.new polls start)
    (∀ before x rest, run.exchanges = before ++ x :: rest →
      Agree x.after ((link l).after start (commands (before ++ [x]))).peer) ∧
    Agree run.session.state run.session.link.peer ∧
    (plan.resend = .onTransition →
      (∀ before x rest, run.exchanges = before ++ x :: rest → start.fate before.length = .answered →
        (((link l).after start (commands before)).peer.receive x.command.wire).1 = acknowledgment ∧
          x.result = .ok acknowledgment) ∧
      ∀ snapshot, (feed.poll run.session.feed).1.result = .ok snapshot →
        let next := step plan feed (link l) run.session
        (∀ k < next.exchanges.length, start.fate (run.exchanges.length + k) = .answered) →
        Follows plan.conditions snapshot next.session.link.peer) := by
  intro start run
  have talk : Conversation (link l) plan.Permits .idle start run.exchanges run.session.state run.session.link :=
    runFor_converses plan feed (link l) n (.new polls start)
  have agreed {xs : List Exchange} {state : State} {last : Remote}
      (talk : Conversation (link l) plan.Permits .idle start xs state last) : Agree state last.peer := by
    have kept : Sound state last := talk.keeps (fun _ _ _ _ sound => sound.after_send) ⟨agree_idle,safe⟩
    exact kept.agree
  refine ⟨?_,agreed talk,fun gated => ⟨?_,?_⟩⟩
  · intro before x rest here
    rw [here] at talk
    exact agreed talk.around.through
  · intro before x rest here answered
    rw [here] at talk
    have there := talk.around
    have now : ((link l).after start (commands before)).fate 0 = .answered := by
      rw [link_after_fate,commands,List.length_map]
      exact answered
    have obeyed := obey_legal (agreed there.earlier) (there.allowed.legal gated)
    refine ⟨by rw [receive_wire]; exact obeyed,?_⟩
    rw [there.sent,send_result,now,deliver_answered,obeyed,verdict_acknowledgment]
  · intro snapshot read next answered
    have still : ∀ k < next.exchanges.length, run.session.link.fate k = .answered := by
      intro k inside
      rw [talk.memory_eq,link_after_fate,commands,List.length_map]
      exact answered k inside
    exact (step_follows gated feed (agreed talk) read still).2

/-- A feed that reads the same snapshot at every poll. -/
def unchanging (snapshot : Snapshot) : Feed Unit := ⟨fun _ => ({ result := .ok snapshot },())⟩

/-- A plan under which scouting is wanted with stable beams while data is taken. -/
def stableBeams (resend : ResendPolicy) : Plan :=
  ⟨⟨.ofList ["STABLE BEAMS"],.ofList ["RUNNING"]⟩,resend,.ofSeconds 1⟩

/-- A snapshot that asks for run 5. -/
def runFive : Snapshot := ⟨5,"STABLE BEAMS","RUNNING"⟩

/-- A link with the timeouts that are set where none are asked for. -/
def usualLink : TcpLink := ⟨"peer",.ofSeconds 5,.ofSeconds 5⟩

/-- The first start is refused; both sides are still idle and stopped, and the
next cycle brings the peer to the run. -/
theorem refused_start_agrees :
    let plan := stableBeams .onTransition
    let feed := unchanging runFive
    let fates : List Fate := [.refused]
    let run := runFor plan feed (link usualLink) 1 (.new () ⟨.stopped,fates⟩)
    (∀ fate ∈ fates, fate.losesReply = false) ∧ Agree run.session.state run.session.link.peer ∧
    (step plan feed (link usualLink) run.session).session.link.peer = .running 5 := by
  intro plan feed fates run
  have safe : ∀ fate ∈ fates, fate.losesReply = false := by decide
  have sent : run.exchanges.length = 1 := by decide +kernel
  obtain ⟨_,agree,gated⟩ := runFor_agrees plan feed usualLink () fates safe 1
  have follows := (gated rfl).2 runFive rfl
  refine ⟨safe,agree,(follows ?_).desired (by decide +kernel) (by decide)⟩
  intro k _
  rw [sent,Nat.add_comm]
  rfl

end Lockstep.Peer
