import Lockstep.Proofs.Agreement
import Lockstep.Scripted

/-!
# The two policies

A peer that acknowledges everything makes the two policies differ only in what they
say. The ungated one asks in every cycle for what is wanted; the gated one sends
what is needed to get there from where it is. So its log is the other log condensed
(`condense`), and after every cycle both are in the same state
(`runFor_condenses`).
-/

namespace Lockstep.Synchronizer

variable {φ σ τ : Type}

/-- The commands that it takes, from a state, to get where a command leads. -/
def needed : State → Command → List Command
  | .idle,.stop => []
  | .idle,.start run => [.start run]
  | .active _,.stop => [.stop]
  | .active current,.start run => if current = run then [] else [.stop,.start run]

/-- Goes once over a log from a state on: what changes nothing is dropped, and a
start that finds another run on comes after a stop. -/
def condense : State → List Command → List Command
  | _,[] => []
  | state,c :: cs => needed state c ++ condense (.ofCommand c) cs

/-! ## One cycle -/

/-- The commands that a decision sends if all of them are acknowledged. -/
def Decision.commands : Decision → List Command
  | .rest _ _ => []
  | .command c _ => [c]
  | .rollOver _ new => [.stop,.start new]

theorem carryOut_commands (link : Link σ) (state : State) (memory : σ) (decision : Decision)
    (heard : ∀ x ∈ (decision.carryOut link state memory).exchanges, x.isAcknowledged = true) :
    commands (decision.carryOut link state memory).exchanges = decision.commands := by
  cases decision with
  | rest outcome event => rfl
  | command c outcome =>
    show [(send link state c memory).exchange.command] = [c]
    rw [send_command]
  | rollOver old new =>
    unfold Decision.carryOut rollOver at heard ⊢
    by_cases stopped : (send link (.active old) .stop memory).exchange.isAcknowledged = true
    · simp only [stopped,if_true,single,commands_cons,commands_nil,send_command,Decision.commands]
    · simp only [stopped,Bool.false_eq_true,if_false] at heard
      exact absurd (heard _ List.mem_cons_self) stopped

section
variable {plan : Plan} {state goal : State} {reading : Reading} {decision : Decision}

/-- The gated policy sends what is needed. -/
theorem Plan.Decides.commands_eq (decides : plan.Decides state reading decision) (gated : plan.resend = .onTransition)
    (asked : asks? plan.conditions reading = some goal) : decision.commands = needed state (request goal) := by
  have aim := decides.aim_eq asked
  cases decides with
  | unread read => simp [asks?,read] at asked
  | unnamed read desired absent => simp [asks?,read,target?,desired,absent] at asked
  | stays _ _ _ _ on =>
    obtain rfl : state = goal := aim
    rw [on]
    simp [Decision.commands,request,needed]
  | changes _ _ _ _ on other =>
    obtain rfl : State.active _ = goal := aim
    rw [on]
    simp [Decision.commands,request,needed,other]
  | starts _ _ _ gate =>
    obtain rfl : State.active _ = goal := aim
    rw [gate gated]
    rfl
  | rests _ _ _ off =>
    obtain rfl : state = goal := aim
    rw [off]
    rfl
  | stops _ _ gate =>
    obtain rfl : State.idle = goal := aim
    cases state with
    | idle => exact absurd rfl (gate gated)
    | active run => rfl

end

section
variable {plan : Plan} {feed : Feed φ} {link : Link σ} {s : Session φ σ} {goal : State}

theorem step_needed (gated : plan.resend = .onTransition)
    (asked : asks? plan.conditions (feed.poll s.feed).1 = some goal)
    (heard : ∀ x ∈ (step plan feed link s).exchanges, x.isAcknowledged = true) :
    commands (step plan feed link s).exchanges = needed s.state (request goal) := by
  rw [← (decides plan s.state (feed.poll s.feed).1).commands_eq gated asked]
  rw [step_eq] at heard ⊢
  exact carryOut_commands link s.state s.link _ heard

end

/-! ## Runs -/

section
variable {plan free : Plan} {feed : Feed φ} {first : Link σ} {second : Link τ}

theorem condenses {s : Session φ σ} {t : Session φ τ} (gated : plan.resend = .onTransition)
    (ungated : free.resend = .everyCycle) (same : free.conditions = plan.conditions) (n : Nat)
    (state : t.state = s.state) (polls : t.feed = s.feed)
    (heard : ∀ x ∈ (runFor plan feed first n s).exchanges, x.isAcknowledged = true)
    (heard' : ∀ x ∈ (runFor free feed second n t).exchanges, x.isAcknowledged = true) :
    (runFor plan feed first n s).session.state = (runFor free feed second n t).session.state ∧
    commands (runFor plan feed first n s).exchanges =
      condense s.state (commands (runFor free feed second n t).exchanges) := by
  induction n generalizing s t with
  | zero => exact ⟨state.symm,rfl⟩
  | succ n ih =>
    simp only [runFor,Run.append,List.forall_mem_append,commands_append] at heard heard' ⊢
    obtain ⟨now,later⟩ := heard
    obtain ⟨now',later'⟩ := heard'
    have feeds : (step free feed second t).session.feed = (step plan feed first s).session.feed :=
      congrArg (fun memory => (feed.poll memory).2) polls
    have further (states : (step free feed second t).session.state = (step plan feed first s).session.state) :=
      ih (s := wait plan (step plan feed first s).session) (t := wait free (step free feed second t).session)
        states feeds later later'
    have asks : asks? free.conditions (feed.poll t.feed).1 = asks? plan.conditions (feed.poll s.feed).1 := by
      rw [same,polls]
    cases asked : asks? plan.conditions (feed.poll s.feed).1 with
    | none =>
      obtain ⟨silent,kept,_⟩ := step_silent first asked
      obtain ⟨silent',kept',_⟩ := step_silent second (asks.trans asked)
      obtain ⟨states,logs⟩ := further (kept'.trans (state.trans kept.symm))
      refine ⟨states,?_⟩
      rw [silent,silent',logs]
      exact congrArg (condense · _) kept
    | some goal =>
      have reached := step_state feed first s asked now
      have reached' := step_state feed second t (asks.trans asked) now'
      obtain ⟨states,logs⟩ := further (reached'.trans reached.symm)
      refine ⟨states,?_⟩
      rw [step_needed gated asked now,step_requested second ungated (asks.trans asked),logs,List.singleton_append,condense,
        ofCommand_request]
      exact congrArg (fun after => needed s.state (request goal) ++ condense after _) reached

end

/-- Let a link acknowledge every command of the gated policy and another every
command of the ungated one, the feed being the same. After each cycle both are in
the same state, and the log of the gated policy is that of the ungated one
condensed, scouting being off at first. -/
theorem runFor_condenses (conditions : Conditions) (delay : Duration) (feed : Feed φ) (first : Link σ)
    (second : Link τ) (polls : φ) (memory : σ) (memory' : τ) (n : Nat) :
    let gated := fun k => runFor ⟨conditions,.onTransition,delay⟩ feed first k (.new polls memory)
    let ungated := fun k => runFor ⟨conditions,.everyCycle,delay⟩ feed second k (.new polls memory')
    (∀ x ∈ (gated n).exchanges, x.isAcknowledged = true) → (∀ x ∈ (ungated n).exchanges, x.isAcknowledged = true) →
    (∀ k ≤ n, (gated k).session.state = (ungated k).session.state) ∧
    commands (gated n).exchanges = condense .idle (commands (ungated n).exchanges) := by
  intro gated ungated heard heard'
  have so (k : Nat) (inside : k ≤ n) : (gated k).session.state = (ungated k).session.state ∧
      commands (gated k).exchanges = condense .idle (commands (ungated k).exchanges) := by
    refine condenses ?_ ?_ ?_ k ?_ ?_ ?_ ?_
    · rfl
    · rfl
    · rfl
    · rfl
    · rfl
    · exact fun x member => heard x ((prefix_runFor _ feed first inside _).subset member)
    · exact fun x member => heard' x ((prefix_runFor _ feed second inside _).subset member)
  exact ⟨fun k inside => (so k inside).1,(so n (Nat.le_refl n)).2⟩

/-- A failed poll, the same run twice, another run, no run number, and scouting
unwanted twice. -/
theorem acknowledged_runs_condense :
    let plan := Peer.stableBeams
    let unwanted : Snapshot := { Peer.runFive with beamMode := "RAMP" }
    let polls : Scripted.Playlist := .ofEntries [none,some unwanted,some Peer.runFive,some Peer.runFive,
      some { Peer.runFive with run := 6 },some { Peer.runFive with run := 0 },some unwanted,some unwanted]
    let run := fun resend => runFor (plan resend) Scripted.feed (Scripted.link .ack) 8 (.new polls (.ofReplies []))
    (∀ resend, ∀ x ∈ (run resend).exchanges, x.isAcknowledged = true) ∧
    commands (run .everyCycle).exchanges = [.stop,.start 5,.start 5,.start 6,.stop,.stop] ∧
    commands (run .onTransition).exchanges = [.start 5,.stop,.start 6,.stop] ∧
    (run .onTransition).session.state = (run .everyCycle).session.state := by
  intro plan unwanted polls run
  have heard : ∀ resend, ∀ x ∈ (run resend).exchanges, x.isAcknowledged = true := by
    intro resend
    rw [← List.all_eq_true]
    cases resend <;> decide +kernel
  have sent : commands (run .everyCycle).exchanges = [.stop,.start 5,.start 5,.start 6,.stop,.stop] := by decide +kernel
  obtain ⟨states,logs⟩ := runFor_condenses (plan .onTransition).conditions (plan .onTransition).delay Scripted.feed
    (Scripted.link .ack) (Scripted.link .ack) polls (.ofReplies []) (.ofReplies []) 8 (heard .onTransition)
    (heard .everyCycle)
  refine ⟨heard,sent,logs.trans ?_,states 8 (Nat.le_refl 8)⟩
  show condense .idle (commands (run .everyCycle).exchanges) = _
  rw [sent]
  decide

end Lockstep.Synchronizer
