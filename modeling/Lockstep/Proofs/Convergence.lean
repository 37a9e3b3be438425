import Lockstep.Proofs.Agreement
import Lockstep.Scripted

/-!
# Convergence

While the feed tells the same snapshot again and again, the gated policy goes to
the state that the snapshot asks for by the shortest way. Every acknowledged
command brings it one nearer (`Nears`), so commands, failures and distances are
in balance over any conversation (`Conversation.balance`); a cycle has at most
one failure, and one without failure arrives.
-/

namespace Lockstep.Synchronizer

variable {φ σ : Type} {link : Link σ} {state goal : State} {xs ys : List Exchange}

/-- How many commands it takes from a state to a goal. -/
def distance : State → State → Nat
  | .idle,.idle => 0
  | .idle,.active _ => 1
  | .active _,.idle => 1
  | .active run,.active current => if current = run then 0 else 2

/-- How many commands of some exchanges were not acknowledged. -/
def failures (xs : List Exchange) : Nat := xs.countP (!·.isAcknowledged)

theorem distance_eq_zero_iff : distance goal state = 0 ↔ state = goal := by
  fun_cases distance goal state with
  | case1 => simp
  | case2 | case3 => simp
  | case4 run => simp
  | case5 run current other => simp [other]

theorem failures_append (xs ys : List Exchange) : failures (xs ++ ys) = failures xs + failures ys :=
  List.countP_append

theorem failures_cons (x : Exchange) (xs : List Exchange) :
    failures (x :: xs) = failures xs + if x.isAcknowledged then 0 else 1 := by
  rw [failures,List.countP_cons,failures]
  cases x.isAcknowledged <;> rfl

theorem acknowledged_of_no_failures (none : failures xs = 0) : ∀ x ∈ xs, x.isAcknowledged = true := by
  intro x member
  have answer := List.countP_eq_zero.mp none x member
  simpa using answer

/-! ## Commands -/

/-- The command leads one nearer to the goal. -/
def Nears (goal : State) (state : State) (c : Command) : Prop :=
  distance goal (.ofCommand c) + 1 = distance goal state

/-- Where every command would lead nearer, those that were acknowledged have done so
and those that failed have not. -/
theorem Conversation.balance {final : State} {memory last : σ}
    (talk : Conversation link (Nears goal) state memory xs final last) :
    xs.length + distance goal final = failures xs + distance goal state := by
  induction talk with
  | silence => rfl
  | @command state _ memory _ c rest nears _ ih =>
    rw [send_after] at ih
    rw [List.length_cons,failures_cons]
    unfold Nears at nears
    by_cases heard : (send link state c memory).exchange.isAcknowledged = true
    · rw [if_pos heard] at ih ⊢
      omega
    · rw [if_neg heard] at ih ⊢
      omega

theorem Conversation.nearer {final : State} {memory last : σ}
    (talk : Conversation link (Nears goal) state memory xs final last) : distance goal final ≤ distance goal state := by
  have balance := talk.balance
  have bound : failures xs ≤ xs.length := List.countP_le_length
  omega

/-! ## Decisions -/

section
variable {plan : Plan} {reading : Reading} {decision : Decision}

/-- The gated policy only asks for commands that lead nearer to what the reading
asks for. -/
theorem Plan.Decides.nears (decides : plan.Decides state reading decision) (gated : plan.resend = .onTransition)
    (asked : asks? plan.conditions reading = some goal) : decision.Allowed (Nears goal) state := by
  have fits := decides.fits
  have aim := decides.aim_eq asked
  cases decision with
  | rest outcome event => trivial
  | command c outcome =>
    obtain rfl : State.ofCommand c = goal := aim
    have legal := fits.legal gated
    cases state with
    | idle =>
      cases c with
      | start run => simp [Decision.Allowed,Nears,State.ofCommand,distance]
      | stop => exact legal.elim
    | active current =>
      cases c with
      | start run => exact legal.elim
      | stop => rfl
  | rollOver old new =>
    obtain ⟨rfl,_,other,_⟩ := fits
    obtain rfl : State.active new = goal := aim
    refine ⟨rfl,?_,?_⟩
    · simp [Nears,State.ofCommand,distance,other]
    · simp [Nears,State.ofCommand,distance]

/-- A second command is only sent where the first was acknowledged. -/
theorem carryOut_failures (link : Link σ) (state : State) (memory : σ) (decision : Decision) :
    failures (decision.carryOut link state memory).exchanges ≤ 1 := by
  cases decision with
  | rest outcome event => exact Nat.zero_le 1
  | command c outcome => exact List.countP_le_length
  | rollOver old new =>
    unfold Decision.carryOut rollOver
    by_cases stopped : (send link (.active old) .stop memory).exchange.isAcknowledged = true
    · simp only [stopped,if_true,failures_cons]
      exact List.countP_le_length
    · simp only [stopped,Bool.false_eq_true,if_false]
      exact List.countP_le_length

theorem step_failures (plan : Plan) (feed : Feed φ) (link : Link σ) (s : Session φ σ) :
    failures (step plan feed link s).exchanges ≤ 1 := by
  rw [step_eq]
  exact carryOut_failures link s.state s.link (plan.decide s.state (feed.poll s.feed).1)

/-- A cycle that begins at the goal is steady. -/
theorem step_rests (gated : plan.resend = .onTransition) (feed : Feed φ) (link : Link σ) {s : Session φ σ}
    (asked : asks? plan.conditions (feed.poll s.feed).1 = some s.state) :
    (step plan feed link s).outcomes = [.steady] ∧ (step plan feed link s).exchanges = [] ∧
      (step plan feed link s).session.state = s.state := by
  obtain ⟨event,rests⟩ := (decides plan s.state (feed.poll s.feed).1).steady gated asked
  rw [step_eq,rests]
  exact ⟨rfl,rfl,rfl⟩

end

/-! ## Runs -/

section
variable {plan : Plan} {feed : Feed φ} {s : Session φ σ}

/-- At the goal every cycle to come is steady. -/
theorem runFor_rests (gated : plan.resend = .onTransition) (link : Link σ)
    (asked : ∀ k, asks? plan.conditions (feed.reading s.feed k) = some s.state) (n : Nat) :
    (runFor plan feed link n s).outcomes = List.replicate n .steady ∧ (runFor plan feed link n s).exchanges = [] ∧
      (runFor plan feed link n s).session.state = s.state := by
  induction n generalizing s with
  | zero => exact ⟨rfl,rfl,rfl⟩
  | succ n ih =>
    obtain ⟨outcome,silent,kept⟩ := step_rests gated feed link (asked 0)
    obtain ⟨outcomes,silence,still⟩ := ih (s := wait plan (step plan feed link s).session) fun k =>
      (asked (k + 1)).trans (congrArg some kept.symm)
    refine ⟨?_,?_,still.trans kept⟩
    · simp only [runFor,Run.append,outcome,outcomes,List.replicate_succ,List.singleton_append]
    · simp only [runFor,Run.append,silent,silence,List.append_nil]

/-- Fewer failures than cycles leave a cycle without one, which arrives. -/
theorem runFor_arrives (gated : plan.resend = .onTransition) (link : Link σ)
    (asked : ∀ k, asks? plan.conditions (feed.reading s.feed k) = some goal) (n : Nat)
    (few : failures (runFor plan feed link n s).exchanges < n) : (runFor plan feed link n s).session.state = goal := by
  induction n generalizing s with
  | zero => exact absurd few (Nat.not_lt_zero _)
  | succ n ih =>
    have later (k : Nat) : asks? plan.conditions (feed.reading (step plan feed link s).session.feed k) = some goal :=
      asked (k + 1)
    simp only [runFor,Run.append,failures_append] at few ⊢
    by_cases none : failures (step plan feed link s).exchanges = 0
    · have arrived := step_state feed link s (asked 0) (acknowledged_of_no_failures none)
      obtain ⟨_,_,still⟩ := runFor_rests (s := wait plan (step plan feed link s).session) gated link
        (fun k => (later k).trans (congrArg some arrived.symm)) n
      exact still.trans arrived
    · exact ih (s := wait plan (step plan feed link s).session) later (by omega)

/-- Under the gated policy, from any state and whatever the link answers, let the
feed tell the same snapshot again and again. The commands that were sent are those
that failed and as many as the state has come nearer to what the snapshot asks for.
No cycle has two failures and one without any arrives. A run that has arrived only
goes on with steady cycles, so it arrives within more cycles than failures. -/
theorem runFor_converges (conditions : Conditions) (delay : Duration) (feed : Feed φ) (link : Link σ)
    (s : Session φ σ) (snapshot : Snapshot) (goal : State) (asked : target? conditions snapshot = some goal)
    (read : ∀ k, (feed.reading s.feed k).result = .ok snapshot) (n : Nat) :
    let plan : Plan := ⟨conditions,.onTransition,delay⟩
    let run := runFor plan feed link n s
    run.exchanges.map (·.result) = link.answers s.link (commands run.exchanges) ∧
    (distance goal run.session.state ≤ distance goal s.state ∧
      run.exchanges.length = failures run.exchanges + (distance goal s.state - distance goal run.session.state)) ∧
    (∀ k < n,
      let cycle := step plan feed link (runFor plan feed link k s).session
      failures cycle.exchanges ≤ 1 ∧
        (failures cycle.exchanges = 0 → distance goal cycle.session.state = 0)) ∧
    (∀ k ≤ n,
      let earlier := runFor plan feed link k s
      distance goal earlier.session.state = 0 →
        run.outcomes = earlier.outcomes ++ List.replicate (n - k) .steady ∧ run.exchanges = earlier.exchanges ∧
          run.session.state = earlier.session.state) ∧
    (failures run.exchanges < n → distance goal run.session.state = 0) := by
  intro plan run
  have gated : plan.resend = .onTransition := rfl
  have asks (k : Nat) : asks? conditions (feed.reading s.feed k) = some goal := by
    rw [asks?,read k]
    exact asked
  have later (k j : Nat) : asks? conditions (feed.reading (runFor plan feed link k s).session.feed j) = some goal := by
    rw [runFor_feed,← Feed.reading_after]
    exact asks (k + j)
  have talk : Conversation link (Nears goal) s.state s.link run.exchanges run.session.state run.session.link :=
    runFor_allowed link n s fun k _ state => (decides plan state _).nears gated (asks k)
  refine ⟨talk.results_eq,⟨talk.nearer,?_⟩,?_,?_,?_⟩
  · have balance := talk.balance
    have nearer := talk.nearer
    omega
  · intro k _ cycle
    refine ⟨step_failures plan feed link _,fun none => ?_⟩
    rw [distance_eq_zero_iff]
    exact step_state feed link _ (later k 0) (acknowledged_of_no_failures none)
  · intro k inside earlier arrived
    rw [distance_eq_zero_iff] at arrived
    obtain ⟨outcomes,silence,still⟩ := runFor_rests gated link
      (fun j => (later k j).trans (congrArg some arrived.symm)) (n - k)
    have split : run = earlier.append (runFor plan feed link (n - k) earlier.session) := by
      rw [← runFor_add,Nat.add_sub_cancel' inside]
    rw [split]
    refine ⟨congrArg (earlier.outcomes ++ ·) outcomes,?_,still⟩
    rw [Run.append,silence,List.append_nil]
  · intro few
    rw [distance_eq_zero_iff]
    exact runFor_arrives gated link asks n few

end

/-- A run that makes way for another while nobody is there for the stop at first,
nor then for the start: three cycles with two failures, and they arrive. -/
theorem hampered_rollOver_converges :
    let plan := Peer.stableBeams .onTransition
    let feed := Peer.unchanging Peer.runFive
    let s : Session Unit Scripted.Script :=
      { Session.new () (.ofReplies [.unreachable,.ack,.unreachable]) with state := .active 4 }
    let run := runFor plan feed (Scripted.link .ack) 3 s
    target? plan.conditions Peer.runFive = some (.active 5) ∧
    (∀ k, (feed.reading s.feed k).result = .ok Peer.runFive) ∧
    commands run.exchanges = [.stop,.stop,.start 5,.start 5] ∧ failures run.exchanges = 2 ∧
    run.session.state = .active 5 := by
  intro plan feed s run
  have asked : target? plan.conditions Peer.runFive = some (.active 5) := by decide +kernel
  have read : ∀ k, (feed.reading s.feed k).result = .ok Peer.runFive := fun _ => rfl
  have failed : failures run.exchanges = 2 := by decide +kernel
  obtain ⟨_,_,_,_,arrives⟩ := runFor_converges plan.conditions plan.delay feed (Scripted.link .ack) s Peer.runFive
    (.active 5) asked read 3
  refine ⟨asked,read,by decide +kernel,failed,distance_eq_zero_iff.mp (arrives ?_)⟩
  change failures run.exchanges < 3
  omega

end Lockstep.Synchronizer
