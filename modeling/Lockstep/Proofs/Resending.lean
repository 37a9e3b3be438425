import Lockstep.Proofs.Agreement
import Lockstep.Scripted

/-!
# A command in every cycle

The ungated policy asks the peer in every cycle for what the snapshot asks for,
whatever it believes of the peer. One cycle that is answered is then enough to have
the peer run or stop as wanted, from any two states of the two sides
(`step_stabilizes`). What the policy does not do is follow the number of the run: a
peer that runs ignores a start, so both sides keep the run that was asked for
first since scouting was last not wanted (`runFor_keeps_first`).
-/

namespace Lockstep.Peer

open Synchronizer

variable {φ : Type} {l : TcpLink} {state goal : State} {plan : Plan} {feed : Feed φ} {s : Session φ Remote}

/-! ## One cycle -/

/-- What a request that is answered does to the two sides. -/
structure Requested (goal : State) (s next : Session φ Remote) (xs : List Exchange) : Prop where
  sent : commands xs = [request goal]
  peer : next.link.peer = (s.link.peer.obey (request goal)).2
  state : next.state = if (s.link.peer.obey (request goal)).1 = acknowledgment then goal else s.state

theorem step_requests (ungated : plan.resend = .everyCycle)
    (asked : asks? plan.conditions (feed.poll s.feed).1 = some goal) (answered : s.link.fate 0 = .answered) :
    Requested goal s (step plan feed (link l) s).session (step plan feed (link l) s).exchanges := by
  obtain ⟨outcome,requests⟩ := (decides plan s.state (feed.poll s.feed).1).requests ungated asked
  refine ⟨step_requested (link l) ungated asked,?_,?_⟩
  · rw [step_eq,requests]
    show (send (link l) s.state (request goal) s.link).link.peer = _
    rw [send_remote,answered]
    rfl
  · rw [step_eq,requests]
    show (send (link l) s.state (request goal) s.link).exchange.after = _
    have heard := acknowledged_iff l s.state (request goal) s.link
    simp only [answered,true_and] at heard
    rw [send_after,ofCommand_request]
    simp only [heard]

/-- Under the ungated policy, from any states of the synchronizer and of the peer,
let a cycle fetch a snapshot and its command be answered. Then the peer runs where
the snapshot wants a run and is stopped where it wants none. A peer that was
stopped runs the run of the snapshot and the synchronizer is on that run too. -/
theorem step_stabilizes (conditions : Conditions) (delay : Duration) (feed : Feed φ) (l : TcpLink)
    (s : Session φ Remote) (snapshot : Snapshot) (read : (feed.poll s.feed).1.result = .ok snapshot)
    (answered : s.link.fate 0 = .answered) :
    let cycle := step ⟨conditions,.everyCycle,delay⟩ feed (link l) s
    (conditions.wants snapshot = true → 0 < snapshot.run →
      commands cycle.exchanges = [.start snapshot.run] ∧ (∃ run, cycle.session.link.peer = .running run) ∧
      (s.link.peer = .stopped →
        cycle.session.link.peer = .running snapshot.run ∧ cycle.session.state = .active snapshot.run)) ∧
    (conditions.wants snapshot = false →
      commands cycle.exchanges = [.stop] ∧ cycle.session.link.peer = .stopped) := by
  intro cycle
  constructor
  · intro desired named
    have present : snapshot.run ≠ 0 := UInt64.pos_iff_ne_zero.mp named
    have asked : asks? conditions (feed.poll s.feed).1 = some (.active snapshot.run) := by
      simp [asks?,read,target?,desired,present]
    obtain ⟨sent,peer,state⟩ : Requested _ s cycle.session cycle.exchanges := step_requests rfl asked answered
    refine ⟨sent,?_,?_⟩
    · rw [peer]
      cases s.link.peer with
      | stopped => exact ⟨snapshot.run,rfl⟩
      | running run => exact ⟨run,rfl⟩
    · intro restarted
      rw [peer,state,restarted]
      exact ⟨rfl,rfl⟩
  · intro undesired
    have asked : asks? conditions (feed.poll s.feed).1 = some .idle := by simp [asks?,read,target?,undesired]
    obtain ⟨sent,peer,_⟩ : Requested _ s cycle.session cycle.exchanges := step_requests rfl asked answered
    refine ⟨sent,?_⟩
    rw [peer]
    cases s.link.peer with
    | stopped | running run => rfl

/-- A peer that has restarted while the synchronizer takes it to be on run 5 is
brought back to that run. -/
theorem restarted_peer_stabilizes :
    let feed := unchanging runFive
    let s : Session Unit Remote := { Session.new () ⟨.stopped,[]⟩ with state := .active 5 }
    let cycle := step (stableBeams .everyCycle) feed (link usualLink) s
    (feed.poll s.feed).1.result = .ok runFive ∧ s.link.fate 0 = .answered ∧
    cycle.session.link.peer = .running 5 ∧ cycle.session.state = .active 5 := by
  intro feed s cycle
  have read : (feed.poll s.feed).1.result = .ok runFive := rfl
  have answered : s.link.fate 0 = .answered := rfl
  obtain ⟨desired,_⟩ := step_stabilizes (stableBeams .everyCycle).conditions (stableBeams .everyCycle).delay feed
    usualLink s runFive read answered
  obtain ⟨_,_,restarts⟩ := desired (by decide +kernel) (by decide)
  exact ⟨read,answered,restarts rfl⟩

/-! ## Which run is kept -/

section
variable {asks : Nat → Option State} {n : Nat} {run : Lockstep.Run}

/-- No run is asked for any more: scouting was not wanted after every cycle that
asked for one. -/
def Unasked (asks : Nat → Option State) (n : Nat) : Prop :=
  ∀ i < n, ∀ run, asks i = some (.active run) → ∃ j, i < j ∧ j < n ∧ asks j = some .idle

/-- The run that was asked for first since scouting was last not wanted. -/
def FirstAsked (asks : Nat → Option State) (n : Nat) (run : Lockstep.Run) : Prop :=
  ∃ i < n, asks i = some (.active run) ∧ Unasked asks i ∧ ∀ j, i < j → j < n → asks j ≠ some .idle

theorem Unasked.of_idle (now : asks n = some .idle) : Unasked asks (n + 1) := by
  intro i inside run asked
  have earlier : i ≠ n := by
    rintro rfl
    rw [now] at asked
    cases asked
  exact ⟨n,by omega,Nat.lt_succ_self n,now⟩

theorem Unasked.of_none (unasked : Unasked asks n) (now : asks n = none) : Unasked asks (n + 1) := by
  intro i inside run asked
  have earlier : i ≠ n := by
    rintro rfl
    rw [now] at asked
    cases asked
  obtain ⟨j,after,before,idle⟩ := unasked i (by omega) run asked
  exact ⟨j,after,by omega,idle⟩

theorem Unasked.first (unasked : Unasked asks n) (now : asks n = some (.active run)) : FirstAsked asks (n + 1) run :=
  ⟨n,Nat.lt_succ_self n,now,unasked,fun j after before => by omega⟩

theorem FirstAsked.keep (first : FirstAsked asks n run) (now : asks n ≠ some .idle) : FirstAsked asks (n + 1) run := by
  obtain ⟨i,inside,asked,unasked,since⟩ := first
  refine ⟨i,by omega,asked,unasked,fun j after before => ?_⟩
  by_cases last : j = n
  · rw [last]; exact now
  · exact since j after (by omega)

theorem FirstAsked.unique {other : Lockstep.Run} (first : FirstAsked asks n run) (second : FirstAsked asks n other) :
    run = other := by
  obtain ⟨i,inside,asked,unasked,since⟩ := first
  obtain ⟨k,inside',asked',unasked',since'⟩ := second
  rcases Nat.lt_trichotomy i k with before | rfl | before
  · obtain ⟨j,after,_,idle⟩ := unasked' i before run asked
    exact absurd idle (since j after (by omega))
  · rw [asked] at asked'
    exact State.active.inj (Option.some.inj asked')
  · obtain ⟨j,after,_,idle⟩ := unasked k before other asked'
    exact absurd idle (since' j after (by omega))

/-- Both sides are where the cycles so far leave them. -/
inductive Keeps (asks : Nat → Option State) (n : Nat) : State → Peer → Prop
  | off (unasked : Unasked asks n) : Keeps asks n .idle .stopped
  | on {run : Lockstep.Run} (first : FirstAsked asks n run) : Keeps asks n (.active run) (.running run)

/-- A request that is answered keeps both sides where they should be: a start counts
only where the peer is stopped. -/
theorem Keeps.request {p : Peer} (keeps : Keeps asks n state p) (now : asks n = some goal) :
    Keeps asks (n + 1) (if (p.obey (request goal)).1 = acknowledgment then goal else state)
      (p.obey (request goal)).2 := by
  cases keeps with
  | off unasked =>
    cases goal with
    | idle => exact .off (.of_idle now)
    | active run => exact .on (unasked.first now)
  | on first =>
    cases goal with
    | idle => exact .off (.of_idle now)
    | active other => exact .on (first.keep (by simp [now]))

theorem Keeps.wait {p : Peer} (keeps : Keeps asks n state p) (now : asks n = none) : Keeps asks (n + 1) state p := by
  cases keeps with
  | off unasked => exact .off (unasked.of_none now)
  | on first => exact .on (first.keep (by simp [now]))

end

theorem step_keeps {asks : Nat → Option State} {n : Nat} (ungated : plan.resend = .everyCycle)
    (now : asks? plan.conditions (feed.poll s.feed).1 = asks n) (answered : s.link.fate 0 = .answered)
    (keeps : Keeps asks n s.state s.link.peer) :
    Keeps asks (n + 1) (step plan feed (link l) s).session.state (step plan feed (link l) s).session.link.peer := by
  cases asked : asks n with
  | some goal =>
    have done := step_requests (l := l) ungated (now.trans asked) answered
    rw [done.peer,done.state]
    exact keeps.request asked
  | none =>
    obtain ⟨_,unchanged,untouched⟩ := step_silent (link l) (now.trans asked)
    rw [unchanged,untouched]
    exact keeps.wait asked

/-- After every number of cycles all of whose commands are answered, both sides are
where these leave them. -/
theorem runFor_keeps {plan : Plan} (ungated : plan.resend = .everyCycle) (feed : Feed φ) (l : TcpLink) (polls : φ)
    {start : Remote} (stopped : start.peer = .stopped) (answered : ∀ k, start.fate k = .answered) (n : Nat) :
    let session := (runFor plan feed (link l) n (.new polls start)).session
    Keeps (fun k => asks? plan.conditions (feed.reading polls k)) n session.state session.link.peer := by
  induction n with
  | zero =>
    show Keeps _ 0 .idle start.peer
    rw [stopped]
    exact .off fun i before => absurd before (Nat.not_lt_zero i)
  | succ n ih =>
    rw [runFor_succ]
    have talk := runFor_converses plan feed (link l) n (.new polls start)
    refine step_keeps ungated ?_ ?_ ih
    · rw [runFor_feed]
      rfl
    · rw [talk.memory_eq,link_after_fate]
      exact answered _

/-- Under the ungated policy, both sides being idle and stopped at first and every
command answered, let a cycle ask for a run. After it the peer runs and the
synchronizer is active, both on the run that was asked for first since scouting
was last not wanted. So they are on the run of the cycle exactly where that is the
run asked for first. -/
theorem runFor_keeps_first (conditions : Conditions) (delay : Duration) (feed : Feed φ) (l : TcpLink) (polls : φ)
    (fates : List Fate) (answered : ∀ k, (Remote.mk .stopped fates).fate k = .answered) (n : Nat)
    (run : Lockstep.Run) :
    let asks := fun k => asks? conditions (feed.reading polls k)
    asks n = some (.active run) →
    let after := (runFor ⟨conditions,.everyCycle,delay⟩ feed (link l) (n + 1) (.new polls ⟨.stopped,fates⟩)).session
    (∃ held, (∀ other, FirstAsked asks (n + 1) other ↔ other = held) ∧
      after.link.peer = .running held ∧ after.state = .active held) ∧
    (after.link.peer = .running run ∧ after.state = .active run ↔ FirstAsked asks (n + 1) run) := by
  intro asks asked after
  let plan : Plan := ⟨conditions,.everyCycle,delay⟩
  have ungated : plan.resend = .everyCycle := rfl
  have keeps : Keeps asks (n + 1) after.state after.link.peer :=
    runFor_keeps ungated feed l polls rfl answered (n + 1)
  generalize after.state = state,after.link.peer = peer at keeps
  cases keeps with
  | off unasked =>
    obtain ⟨j,later,before,_⟩ := unasked n (Nat.lt_succ_self n) run asked
    omega
  | @on held first =>
    refine ⟨⟨held,fun other => ⟨fun second => second.unique first,?_⟩,rfl,rfl⟩,?_⟩
    · rintro rfl
      exact first
    · constructor
      · rintro ⟨_,same⟩
        rw [← State.active.inj same]
        exact first
      · intro second
        rw [second.unique first]
        exact ⟨rfl,rfl⟩

/-! ## A run that changes -/

/-- Two snapshots that want scouting, of run 5 and then of run 6. -/
def changingRun : Scripted.Playlist := .ofEntries [some runFive,some { runFive with run := 6 }]

theorem changingRun_asks :
    asks? (stableBeams .everyCycle).conditions (Scripted.feed.reading changingRun 0) = some (.active 5) ∧
    asks? (stableBeams .everyCycle).conditions (Scripted.feed.reading changingRun 1) = some (.active 6) := by
  decide +kernel

/-- The start of run 6 finds the peer on run 5 and is ignored, so both sides stay on
run 5. -/
theorem changed_run_keeps_first :
    let plan := stableBeams .everyCycle
    let asks := fun k => asks? plan.conditions (Scripted.feed.reading changingRun k)
    let after := (runFor plan Scripted.feed (link usualLink) 2 (.new changingRun ⟨.stopped,[]⟩)).session
    (∀ k, (Remote.mk .stopped []).fate k = .answered) ∧ asks 1 = some (.active 6) ∧
    after.link.peer = .running 5 ∧ after.state = .active 5 := by
  intro plan asks after
  obtain ⟨begins,changes⟩ := changingRun_asks
  have answered : ∀ k, (Remote.mk .stopped []).fate k = .answered := fun _ => rfl
  have first : FirstAsked asks 2 5 := by
    refine ⟨0,by decide,begins,fun i before => absurd before (Nat.not_lt_zero i),?_⟩
    intro j later before idle
    obtain rfl : j = 1 := by omega
    rw [show asks 1 = some (.active 6) from changes] at idle
    cases idle
  obtain ⟨⟨held,only,peer,state⟩,_⟩ := runFor_keeps_first plan.conditions plan.delay Scripted.feed usualLink changingRun
    [] answered 1 6 changes
  obtain rfl : 5 = held := (only 5).mp first
  exact ⟨answered,changes,peer,state⟩

/-- It is not so that after every cycle that asks for a run both sides are on it,
even where every command is answered. -/
theorem changed_run_is_not_followed :
    ¬ ∀ (conditions : Conditions) (delay : Duration) (feed : Feed Scripted.Playlist) (l : TcpLink)
        (polls : Scripted.Playlist) (n : Nat) (run : Lockstep.Run),
      asks? conditions (feed.reading polls n) = some (.active run) →
      let after := (runFor ⟨conditions,.everyCycle,delay⟩ feed (link l) (n + 1) (.new polls ⟨.stopped,[]⟩)).session
      after.link.peer = .running run ∧ after.state = .active run := by
  intro follows
  let plan := stableBeams .everyCycle
  obtain ⟨peer,_⟩ := follows plan.conditions plan.delay Scripted.feed usualLink changingRun 1 6 changingRun_asks.2
  have stays : (runFor plan Scripted.feed (link usualLink) 2 (.new changingRun ⟨.stopped,[]⟩)).session.link.peer =
      .running 5 := by decide +kernel
  exact absurd (peer.symm.trans stays) (by decide)

end Lockstep.Peer
