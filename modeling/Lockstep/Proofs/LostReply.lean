import Lockstep.Proofs.Agreement

/-!
# Lost replies

A peer that obeys and whose reply is lost leaves the synchronizer behind: it runs
while scouting is idle, or it is stopped while scouting is active. The gate then
lets through only what the peer ignores, so the two sides stay apart
(`Parted.stays`), and one lost reply is enough (`agree_or_parted`). Where none is
lost the peer follows the snapshot within a cycle (`runFor_follows`).
-/

namespace Lockstep.Peer

open Synchronizer

variable {φ : Type} {l : TcpLink} {state final : State} {p : Peer} {r last : Remote} {c : Command}
  {rule : State → Command → Prop} {xs : List Exchange}

/-! ## Sides that have parted -/

/-- The peer obeys a command and its reply is lost. -/
def Lost (r : Remote) (c : Command) : Prop :=
  (r.fate 0).losesReply = true ∧ (r.peer.receive c.wire).1 = acknowledgment

/-- Among some commands there is one that the peer obeys and whose reply is lost. -/
def LosesReply (l : TcpLink) (r : Remote) (xs : List Exchange) : Prop :=
  ∃ before x rest, xs = before ++ x :: rest ∧ Lost ((link l).after r (commands before)) x.command

/-- The synchronizer knows nothing of a start, or nothing of a stop. -/
inductive Parted : State → Peer → Prop
  | start (run : Lockstep.Run) : Parted .idle (.running run)
  | stop (run : Lockstep.Run) : Parted (.active run) .stopped

theorem Parted.not_agree (parted : Parted state p) : ¬ Agree state p := by
  intro agree
  cases parted with
  | start run => cases agree.idle.mp rfl
  | stop run => cases (agree.active run).mp rfl

/-- Everything that is legal for the synchronizer is ignored by a peer that it has
parted from. -/
theorem Parted.ignores (parted : Parted state p) (legal : Legal state c) : p.obey c = (ignored,p) := by
  cases parted with
  | start run =>
    cases c with
    | start other => rfl
    | stop => exact legal.elim
  | stop run =>
    cases c with
    | start other => exact legal.elim
    | stop => rfl

/-- A legal command changes neither of two sides that have parted. -/
theorem Parted.after_send (parted : Parted state r.peer) (legal : Legal state c) :
    (send (link l) state c r).exchange.after = state ∧ (send (link l) state c r).link.peer = r.peer := by
  have unheard : (send (link l) state c r).exchange.isAcknowledged ≠ true := by
    intro heard
    have obeyed := ((acknowledged_iff l state c r).mp heard).2
    rw [parted.ignores legal] at obeyed
    exact ignored_ne obeyed
  constructor
  · rw [send_after,if_neg unheard]
  · rw [send_remote,parted.ignores legal]
    exact ite_self _

/-- Two sides that have parted stay as they are. -/
theorem Parted.stays (lawful : ∀ state c, rule state c → Legal state c) (parted : Parted state r.peer)
    (talk : Conversation (link l) rule state r xs final last) : final = state ∧ last.peer = r.peer := by
  induction talk with
  | silence => exact ⟨rfl,rfl⟩
  | @command state _ r _ c rest allowed onward ih =>
    obtain ⟨kept,left⟩ : (send (link l) state c r).exchange.after = state ∧
        (send (link l) state c r).link.peer = r.peer := parted.after_send (lawful state c allowed)
    rw [kept] at ih
    obtain ⟨unchanged,unmoved⟩ := ih (by rw [left]; exact parted)
    exact ⟨unchanged,unmoved.trans left⟩

theorem Parted.remains (lawful : ∀ state c, rule state c → Legal state c) (parted : Parted state r.peer)
    (talk : Conversation (link l) rule state r xs final last) : Parted final last.peer := by
  obtain ⟨unchanged,unmoved⟩ := parted.stays lawful talk
  rw [unchanged,unmoved]
  exact parted

/-- A reply that is lost takes the peer where the command leads and leaves the
synchronizer where it was. -/
theorem Lost.after_send (lost : Lost r c) : (send (link l) state c r).exchange.after = state ∧
    Agree (.ofCommand c) (send (link l) state c r).link.peer := by
  obtain ⟨missed,obeyed⟩ := lost
  rw [receive_wire] at obeyed
  have unanswered : r.fate 0 ≠ .answered := by
    intro answered
    rw [answered] at missed
    cases missed
  constructor
  · rw [send_after,if_neg]
    intro heard
    exact unanswered ((acknowledged_iff l state c r).mp heard).1
  · rw [send_remote,if_pos]
    · exact obey_agrees obeyed
    · cases fate : r.fate 0 with
      | closed | silent | reset => rfl
      | answered | unroutable | refused | unanswered => rw [fate] at missed; cases missed

/-- A legal command leads away from the state in which it is sent. -/
theorem parted_of_legal (legal : Legal state c) (agree : Agree (.ofCommand c) p) : Parted state p := by
  cases state with
  | idle =>
    cases c with
    | start run => rw [(agree.active run).mp rfl]; exact .start run
    | stop => exact legal.elim
  | active run =>
    cases c with
    | start other => exact legal.elim
    | stop => rw [agree.idle.mp rfl]; exact .stop run

/-! ## Conversations -/

theorem losesReply_cons (x : Exchange) : LosesReply l r (x :: xs) ↔
    Lost r x.command ∨ LosesReply l ((link l).send x.command r).2 xs := by
  constructor
  · rintro ⟨before,y,rest,same,lost⟩
    cases before with
    | nil =>
      obtain ⟨rfl,rfl⟩ := List.cons.inj same
      exact .inl lost
    | cons z before =>
      obtain ⟨rfl,rfl⟩ := List.cons.inj same
      exact .inr ⟨before,y,rest,rfl,lost⟩
  · rintro (lost | ⟨before,y,rest,rfl,lost⟩)
    · exact ⟨[],x,xs,rfl,lost⟩
    · exact ⟨x :: before,y,rest,rfl,lost⟩

/-- Two sides that agree and speak legally still agree afterwards where no reply
was lost, and have parted where one was. -/
theorem agree_or_parted (lawful : ∀ state c, rule state c → Legal state c) (agree : Agree state r.peer)
    (talk : Conversation (link l) rule state r xs final last) :
    (Agree final last.peer ∧ ¬ LosesReply l r xs) ∨ (Parted final last.peer ∧ LosesReply l r xs) := by
  induction talk with
  | silence =>
    refine .inl ⟨agree,?_⟩
    rintro ⟨before,x,rest,same,_⟩
    exact List.append_ne_nil_of_right_ne_nil before (List.cons_ne_nil x rest) same.symm
  | @command state _ r _ c rest allowed onward ih =>
    have legal := lawful state c allowed
    rw [losesReply_cons,send_command,← send_link (link l) state c r]
    by_cases lost : Lost r c
    · obtain ⟨kept,led⟩ : (send (link l) state c r).exchange.after = state ∧
          Agree (.ofCommand c) (send (link l) state c r).link.peer := lost.after_send
      have parted : Parted (send (link l) state c r).exchange.after (send (link l) state c r).link.peer := by
        rw [kept]
        exact parted_of_legal legal led
      exact .inr ⟨parted.remains lawful onward,.inl lost⟩
    · -- The peer obeys what is legal here, so a reply that does not come back is lost.
      have safe : (r.fate 0).losesReply = false := by
        rw [← Bool.not_eq_true]
        intro missed
        refine lost ⟨missed,?_⟩
        rw [receive_wire]
        exact obey_legal agree legal
      rcases ih (send_agrees agree safe) with ⟨agreed,lossless⟩ | ⟨parted,lossy⟩
      · exact .inl ⟨agreed,fun loses => lossless (loses.resolve_left lost)⟩
      · exact .inr ⟨parted,.inr lossy⟩

/-- From a lost reply on the synchronizer is where it was and the peer is where the
command led. -/
theorem Lost.stays (lawful : ∀ state c, rule state c → Legal state c) {before rest : List Exchange} {x : Exchange}
    (lost : Lost ((link l).after r (commands before)) x.command)
    (talk : Conversation (link l) rule state r (before ++ x :: rest) final last) :
    final = x.before ∧ Agree (.ofCommand x.command) last.peer ∧ Parted final last.peer := by
  have here := talk.around
  have onward := here.onward
  obtain ⟨kept,led⟩ : (send (link l) x.before x.command ((link l).after r (commands before))).exchange.after =
      x.before ∧ Agree (.ofCommand x.command)
        (send (link l) x.before x.command ((link l).after r (commands before))).link.peer := lost.after_send
  have stayed : x.after = x.before := (congrArg Exchange.after here.sent).trans kept
  rw [← after_concat] at led
  rw [stayed] at onward
  have parted := parted_of_legal (lawful _ _ here.allowed) led
  obtain ⟨unchanged,unmoved⟩ := parted.stays lawful onward
  rw [unchanged,unmoved]
  exact ⟨rfl,led,parted⟩

/-! ## Recovery -/

variable {conditions : Conditions} {delay : Duration} {feed : Feed φ} {snapshot : Snapshot} {s : Session φ Remote}

/-- Two sides that agree follow a snapshot that does not change from the next cycle
on, where every command is answered. -/
theorem runFor_follows (agree : Agree s.state s.link.peer)
    (read : ∀ k, (feed.reading s.feed k).result = .ok snapshot) (answered : ∀ k, s.link.fate k = .answered) (n : Nat) :
    let later := runFor ⟨conditions,.onTransition,delay⟩ feed (link l) (n + 1) s
    Agree later.session.state later.session.link.peer ∧ Follows conditions snapshot later.session.link.peer := by
  intro later
  let plan : Plan := ⟨conditions,.onTransition,delay⟩
  have talk := runFor_converses plan feed (link l) n s
  have agreed := (answered_acknowledged (fun _ _ allowed => allowed.legal rfl) talk agree (fun k _ => answered k)).2
  have next : later.session = wait plan (step plan feed (link l) (runFor plan feed (link l) n s).session).session :=
    runFor_succ plan feed (link l) n s
  rw [next]
  refine step_follows rfl feed agreed ?_ ?_
  · rw [runFor_feed]
    exact read n
  · intro k _
    rw [talk.memory_eq,link_after_fate]
    exact answered _

/-- A peer from which the synchronizer has parted ignores every command that it
still answers. -/
theorem Parted.ignored_result (lawful : ∀ state c, rule state c → Legal state c) (parted : Parted state r.peer)
    (answered : ∀ k, r.fate k = .answered) (talk : Conversation (link l) rule state r xs final last) :
    ∀ x ∈ xs, x.result = .error (.notAcknowledged ignored) := by
  intro x member
  obtain ⟨before,rest,rfl⟩ := List.append_of_mem member
  have here := talk.around
  have still : Parted x.before ((link l).after r (commands before)).peer := parted.remains lawful here.earlier
  have now : ((link l).after r (commands before)).fate 0 = .answered := by
    rw [link_after_fate]
    exact answered _
  rw [here.sent,send_result,now,deliver_answered,still.ignores (lawful _ _ here.allowed),verdict_ignored]

/-- After any history under the gated policy, let every command be answered and the
snapshot stay the same. Both sides agree and follow the snapshot from the next
cycle on exactly where the history has lost no reply of a command that the peer
obeyed. Where it has lost one, the synchronizer stays for good where it was when it
sent that command, the peer where the command led, and every further command is
ignored. -/
theorem runFor_recovers_iff (conditions : Conditions) (delay : Duration) (feed : Feed φ) (l : TcpLink) (polls : φ)
    (fates : List Fate) (m : Nat) (snapshot : Snapshot) :
    let plan : Plan := ⟨conditions,.onTransition,delay⟩
    let start : Remote := ⟨.stopped,fates⟩
    let history := runFor plan feed (link l) m (.new polls start)
    (∀ k, (feed.reading history.session.feed k).result = .ok snapshot) →
    (∀ k, history.session.link.fate k = .answered) →
    (∀ n, let later := runFor plan feed (link l) (n + 1) history.session
      (Agree later.session.state later.session.link.peer ∧ Follows conditions snapshot later.session.link.peer) ↔
        ¬ LosesReply l start history.exchanges) ∧
    ∀ before x rest, history.exchanges = before ++ x :: rest →
      Lost ((link l).after start (commands before)) x.command →
      ∀ n, let later := runFor plan feed (link l) n history.session
        later.session.state = x.before ∧ Agree (.ofCommand x.command) later.session.link.peer ∧
        ¬ Agree later.session.state later.session.link.peer ∧
        ∀ y ∈ later.exchanges, y.result = .error (.notAcknowledged ignored) := by
  intro plan start history read answered
  have lawful : ∀ state c, plan.Permits state c → Legal state c := fun _ _ allowed => allowed.legal rfl
  have talk : Conversation (link l) plan.Permits .idle start history.exchanges history.session.state
      history.session.link := runFor_converses plan feed (link l) m (.new polls start)
  have meanwhile (n : Nat) := runFor_converses plan feed (link l) n history.session
  constructor
  · intro n later
    rcases agree_or_parted lawful agree_idle talk with ⟨agree,lossless⟩ | ⟨parted,lossy⟩
    · exact iff_of_true (runFor_follows agree read answered n) lossless
    · have apart : ¬ Agree later.session.state later.session.link.peer :=
        (parted.remains lawful (meanwhile (n + 1))).not_agree
      exact iff_of_false (fun settled => apart settled.1) (fun lossless => lossless lossy)
  · intro before x rest here lost n later
    rw [here] at talk
    obtain ⟨_,_,parted⟩ := lost.stays lawful talk
    -- The later cycles lengthen the conversation that the reply was lost in.
    have onward := talk.append (meanwhile n)
    rw [List.append_assoc,List.cons_append] at onward
    obtain ⟨unchanged,led,apart⟩ := lost.stays lawful onward
    exact ⟨unchanged,led,apart.not_agree,parted.ignored_result lawful answered (meanwhile n)⟩

/-! ## A start whose reply is lost -/

/-- A peer that the start of run 5 reaches and whose reply is lost. -/
def unheardPeer : Remote := ⟨.stopped,[.silent]⟩

/-- The cycle in which that happens. -/
def unheardStart : Synchronizer.Run Unit Remote :=
  runFor (stableBeams .onTransition) (unchanging runFive) (link usualLink) 1 (.new () unheardPeer)

theorem unheardStart_parted : Parted unheardStart.session.state unheardStart.session.link.peer := by
  have idle : unheardStart.session.state = .idle := by decide +kernel
  have running : unheardStart.session.link.peer = .running 5 := by decide +kernel
  rw [idle,running]
  exact .start 5

theorem unheardStart_lossy : LosesReply usualLink unheardPeer unheardStart.exchanges := by
  have talk := runFor_converses (stableBeams .onTransition) (unchanging runFive) (link usualLink) 1
    (.new () unheardPeer)
  rcases agree_or_parted (fun _ _ allowed => allowed.legal rfl) agree_idle talk with ⟨agree,_⟩ | ⟨_,lossy⟩
  · exact absurd agree unheardStart_parted.not_agree
  · exact lossy

theorem unheardStart_answered (k : Nat) : unheardStart.session.link.fate k = .answered := by
  have spent : unheardStart.session.link.fates = [] := by decide +kernel
  rw [Remote.fate,spent]
  rfl

/-- The start of run 5 is lost on its way back; from then on the peer runs, the
synchronizer is idle and every command is ignored. -/
theorem unheard_start_is_ignored :
    let feed := unchanging runFive
    (∀ k, (feed.reading unheardStart.session.feed k).result = .ok runFive) ∧
    (∀ k, unheardStart.session.link.fate k = .answered) ∧
    ∀ n, let later := runFor (stableBeams .onTransition) feed (link usualLink) n unheardStart.session
      ¬ Agree later.session.state later.session.link.peer ∧
      ∀ y ∈ later.exchanges, y.result = .error (.notAcknowledged ignored) := by
  intro feed
  have read : ∀ k, (feed.reading unheardStart.session.feed k).result = .ok runFive := fun _ => rfl
  refine ⟨read,unheardStart_answered,?_⟩
  intro n later
  obtain ⟨before,x,rest,here,lost⟩ := unheardStart_lossy
  have all := runFor_recovers_iff (stableBeams .onTransition).conditions (stableBeams .onTransition).delay feed
    usualLink () [.silent] 1 runFive read unheardStart_answered
  obtain ⟨_,_,apart,unheeded⟩ := all.2 before x rest here lost n
  exact ⟨apart,unheeded⟩

/-- It is not so that both sides agree again two cycles after a reply was lost. -/
theorem unheard_start_stays_apart :
    ¬ ∀ (conditions : Conditions) (delay : Duration) (feed : Feed Unit) (l : TcpLink) (fates : List Fate) (m : Nat)
        (snapshot : Snapshot),
      let plan : Plan := ⟨conditions,.onTransition,delay⟩
      let start : Remote := ⟨.stopped,fates⟩
      let history := runFor plan feed (link l) m (.new () start)
      LosesReply l start history.exchanges →
      (∀ k, (feed.reading history.session.feed k).result = .ok snapshot) →
      (∀ k, history.session.link.fate k = .answered) →
      ∃ n ≤ 2, let later := runFor plan feed (link l) n history.session
        Agree later.session.state later.session.link.peer ∧ Follows conditions snapshot later.session.link.peer := by
  intro recovers
  let plan := stableBeams .onTransition
  let feed := unchanging runFive
  obtain ⟨n,_,agree,_⟩ := recovers plan.conditions plan.delay feed usualLink [.silent] 1 runFive
    unheardStart_lossy (fun _ => rfl) unheardStart_answered
  have parted := unheardStart_parted.remains (fun _ _ allowed => allowed.legal rfl)
    (runFor_converses plan feed (link usualLink) n unheardStart.session)
  exact parted.not_agree agree

end Lockstep.Peer
