import Lockstep.Proofs.Conversation

/-!
# What outcomes tell

The outcome of a cycle is all that a caller sees of it. It tells which commands
were sent and where they led, so a run can be replayed from its outcomes alone
(`replay`). `step_told` holds one cycle to its outcome, `runFor_told` a whole
run; in both the feed has been polled once a cycle, and the link has answered
the commands that the outcomes report and no others.
-/

namespace Lockstep

namespace Outcome

/-- The commands that an outcome reports, for a cycle that began in a state. Under
the gated policy a start that failed while a run was on came after the stop of
that run. -/
def sent (resend : ResendPolicy) (state : State) : Outcome → List Command
  | .pollFailed | .missingRun | .steady => []
  | .started run => [.start run]
  | .stopped _ => [.stop]
  | .rolled _ new => [.stop,.start new]
  | .commandFailed .stop => [.stop]
  | .commandFailed (.start run) =>
    match resend,state with
    | .onTransition,.active _ => [.stop,.start run]
    | _,_ => [.start run]

/-- The state that an outcome leads to from a state. A failure changes it only
where a stop was acknowledged before. -/
def after (resend : ResendPolicy) (state : State) : Outcome → State
  | .pollFailed | .missingRun | .steady => state
  | .started run => .active run
  | .stopped _ => .idle
  | .rolled _ new => .active new
  | .commandFailed .stop => state
  | .commandFailed (.start _) =>
    match resend,state with
    | .onTransition,.active _ => .idle
    | _,_ => state

/-- What an outcome says about the state in which its cycle began. -/
def Fits (resend : ResendPolicy) (state : State) : Outcome → Prop
  | .stopped run => run = state.run
  | .rolled old new => resend = .onTransition ∧ state = .active old ∧ old ≠ new
  | .commandFailed (.start run) => resend = .onTransition → state ≠ .active run
  | _ => True

/-- The outcomes of a cycle that sends nothing. -/
def Quiet (o : Outcome) : Prop := o = .pollFailed ∨ o = .missingRun ∨ o = .steady

theorem sent_eq_nil_iff {resend : ResendPolicy} {state : State} {o : Outcome} :
    o.sent resend state = [] ↔ o.Quiet := by
  fun_cases sent resend state o <;> simp_all [Quiet]

theorem Quiet.after_eq {resend : ResendPolicy} {state : State} {o : Outcome} (quiet : o.Quiet) :
    o.after resend state = state := by
  rcases quiet with rfl | rfl | rfl <;> rfl

end Outcome

namespace Synchronizer

variable {φ σ : Type}

/-- Replays outcomes from a state: the commands that they report and the state
after them. -/
def replay (resend : ResendPolicy) : State → List Outcome → List Command × State
  | state,[] => ([],state)
  | state,o :: os =>
    let (later,final) := replay resend (o.after resend state) os
    (o.sent resend state ++ later,final)

/-! ## One cycle -/

/-- What a decision comes to if its commands are acknowledged. -/
def Decision.Reports (state : State) : Decision → Prop
  | .rest outcome _ => outcome = .pollFailed ∨ outcome = .missingRun ∨ outcome = .steady
  | .command (.start run) outcome => outcome = .started run
  | .command .stop outcome => outcome = .stopped state.run
  | .rollOver _ _ => True

theorem Plan.Decides.reports {plan : Plan} {state : State} {reading : Reading} {decision : Decision}
    (decides : plan.Decides state reading decision) : decision.Reports state := by
  cases decides with
  | unread => exact .inl rfl
  | unnamed => exact .inr (.inl rfl)
  | stays | rests => exact .inr (.inr rfl)
  | changes => trivial
  | starts | stops => exact rfl

/-- An outcome is true of a cycle: it fits the state before, and it reports the
commands that were sent and the state after them. -/
structure Tells (resend : ResendPolicy) (before : State) (cs : List Command) (after : State) (o : Outcome) : Prop where
  fits : o.Fits resend before
  sent : cs = o.sent resend before
  after : after = o.after resend before

/-- Under the gated policy no run is on where a start is sent alone. -/
theorem Plan.Permits.idle {plan : Plan} {state : State} {run : Lockstep.Run}
    (allowed : plan.Permits state (.start run)) (gated : plan.resend = .onTransition) : state = .idle := by
  cases state with
  | idle => rfl
  | active current => exact (allowed.legal gated).elim

theorem single_tells {plan : Plan} {state : State} {c : Command} {outcome : Outcome} (link : Link σ) (memory : σ)
    (allowed : plan.Permits state c) (reports : (Decision.command c outcome).Reports state) :
    Tells plan.resend state (commands (single link state c outcome memory).exchanges)
      (single link state c outcome memory).state (single link state c outcome memory).outcome := by
  simp only [single,commands_cons,commands_nil,send_command,send_after]
  by_cases heard : (send link state c memory).exchange.isAcknowledged = true
  · simp only [heard,if_true]
    cases c with
    | start run =>
      obtain rfl : outcome = .started run := reports
      exact ⟨trivial,rfl,rfl⟩
    | stop =>
      obtain rfl : outcome = .stopped state.run := reports
      exact ⟨rfl,rfl,rfl⟩
  · simp only [heard,Bool.false_eq_true,if_false]
    cases c with
    | stop => exact ⟨trivial,rfl,rfl⟩
    | start run =>
      cases policy : plan.resend with
      | everyCycle => exact ⟨nofun,rfl,rfl⟩
      | onTransition =>
        obtain rfl := allowed.idle policy
        exact ⟨fun _ => nofun,rfl,rfl⟩

/-- A run that makes way for another is the one case in which a failure changes the
state: the stop may be acknowledged and the start not. -/
theorem rollOver_tells {old new : Lockstep.Run} (link : Link σ) (memory : σ) (other : old ≠ new) :
    Tells .onTransition (.active old) (commands (rollOver link old new memory).exchanges)
      (rollOver link old new memory).state (rollOver link old new memory).outcome := by
  unfold rollOver
  by_cases stopped : (send link (.active old) .stop memory).exchange.isAcknowledged = true
  · simp only [stopped,if_true,single,commands_cons,commands_nil,send_command,send_after]
    split
    · exact ⟨⟨rfl,rfl,other⟩,rfl,rfl⟩
    · exact ⟨fun _ same => other (State.active.inj same),rfl,rfl⟩
  · simp only [stopped,Bool.false_eq_true,if_false,commands_cons,commands_nil,send_command,send_after]
    exact ⟨trivial,rfl,rfl⟩

theorem carryOut_tells {plan : Plan} {state : State} (link : Link σ) (memory : σ) {decision : Decision}
    (fits : decision.Fits plan state) (reports : decision.Reports state) :
    Tells plan.resend state (commands (decision.carryOut link state memory).exchanges)
      (decision.carryOut link state memory).state (decision.carryOut link state memory).outcome := by
  cases decision with
  | rest outcome event =>
    rcases reports with rfl | rfl | rfl
    · exact ⟨trivial,rfl,rfl⟩
    · exact ⟨trivial,rfl,rfl⟩
    · exact ⟨trivial,rfl,rfl⟩
  | command c outcome => exact single_tells link memory fits reports
  | rollOver old new =>
    obtain ⟨rfl,gated,other,_⟩ := fits
    rw [gated]
    exact rollOver_tells link memory other

theorem cycle_tells (plan : Plan) (link : Link σ) (state : State) (reading : Reading) (memory : σ) :
    Tells plan.resend state (commands (cycle plan link state reading memory).exchanges)
      (cycle plan link state reading memory).state (cycle plan link state reading memory).outcome := by
  rw [cycle_eq]
  exact carryOut_tells link memory (decide_fits plan state reading) (decides plan state reading).reports

/-- A cycle as its caller can check it: it has one outcome, which tells the truth;
the feed was polled once, and the link answered the commands that the outcome
reports and nothing else. -/
structure Told (plan : Plan) (feed : Feed φ) (link : Link σ) (s : Session φ σ) (done : Run φ σ) (o : Outcome) :
    Prop where
  outcome : done.outcomes = [o]
  tells : Tells plan.resend s.state (commands done.exchanges) done.session.state o
  polled : done.session.feed = (feed.poll s.feed).2
  answered : done.exchanges.map (·.result) = link.answers s.link (o.sent plan.resend s.state)
  remembered : done.session.link = link.after s.link (o.sent plan.resend s.state)

/-- A cycle with a quiet outcome sent nothing and left the state and the link alone. -/
theorem Told.rests {plan : Plan} {feed : Feed φ} {link : Link σ} {s : Session φ σ} {done : Run φ σ} {o : Outcome}
    (told : Told plan feed link s done o) (quiet : o.Quiet) :
    done.exchanges = [] ∧ done.session.state = s.state ∧ done.session.link = s.link := by
  have silent : o.sent plan.resend s.state = [] := Outcome.sent_eq_nil_iff.mpr quiet
  refine ⟨?_,?_,?_⟩
  · exact List.map_eq_nil_iff.mp (told.tells.sent.trans silent)
  · rw [told.tells.after,quiet.after_eq]
  · rw [told.remembered,silent]
    rfl

theorem step_told (plan : Plan) (feed : Feed φ) (link : Link σ) (s : Session φ σ) :
    ∃ o, Told plan feed link s (step plan feed link s) o := by
  have talk := step_converses plan feed link s
  have tells : Tells plan.resend s.state (commands (step plan feed link s).exchanges)
      (step plan feed link s).session.state (cycle plan link s.state (feed.poll s.feed).1 s.link).outcome :=
    cycle_tells plan link s.state (feed.poll s.feed).1 s.link
  refine ⟨_,rfl,tells,rfl,?_,?_⟩
  · rw [← tells.sent]; exact talk.results_eq
  · rw [← tells.sent]; exact talk.memory_eq

/-! ## Runs -/

theorem length_outcomes (plan : Plan) (feed : Feed φ) (link : Link σ) (n : Nat) (s : Session φ σ) :
    (runFor plan feed link n s).outcomes.length = n := by
  induction n generalizing s with
  | zero => rfl
  | succ n ih =>
    show ((step plan feed link s).outcomes ++ (runFor plan feed link n _).outcomes).length = n + 1
    rw [List.length_append,ih]
    show 1 + n = n + 1
    omega

/-- The outcomes of a run replay its commands and its last state. -/
theorem replay_outcomes (plan : Plan) (feed : Feed φ) (link : Link σ) (n : Nat) (s : Session φ σ) :
    replay plan.resend s.state (runFor plan feed link n s).outcomes =
      (commands (runFor plan feed link n s).exchanges,(runFor plan feed link n s).session.state) := by
  induction n generalizing s with
  | zero => rfl
  | succ n ih =>
    obtain ⟨o,told⟩ := step_told plan feed link s
    have later := ih (wait plan (step plan feed link s).session)
    simp only [runFor,Run.append,told.outcome,List.singleton_append,replay,commands_append]
    rw [← told.tells.after,told.tells.sent]
    simp only [wait] at later ⊢
    rw [later]

theorem Told.outcomes_succ {plan : Plan} {feed : Feed φ} {link : Link σ} {s : Session φ σ} {o : Outcome}
    (told : Told plan feed link s (step plan feed link s) o) (n : Nat) :
    (runFor plan feed link (n + 1) s).outcomes =
      o :: (runFor plan feed link n (wait plan (step plan feed link s).session)).outcomes := by
  simp only [runFor,Run.append,told.outcome,List.singleton_append]

/-- Every outcome of a run is that of the cycle at its place. -/
theorem told_at (plan : Plan) (feed : Feed φ) (link : Link σ) {n k : Nat} (inside : k < n) (s : Session φ σ) :
    ∃ o, (runFor plan feed link n s).outcomes[k]? = some o ∧
      Told plan feed link (runFor plan feed link k s).session
        (step plan feed link (runFor plan feed link k s).session) o := by
  induction n generalizing k s with
  | zero => exact absurd inside (Nat.not_lt_zero k)
  | succ n ih =>
    obtain ⟨first,told⟩ := step_told plan feed link s
    have split := told.outcomes_succ n
    cases k with
    | zero => exact ⟨first,by rw [split]; rfl,told⟩
    | succ k =>
      obtain ⟨o,found,later⟩ := ih (Nat.lt_of_succ_lt_succ inside) (wait plan (step plan feed link s).session)
      exact ⟨o,by rw [split]; exact found,later⟩

/-- The first outcomes of a run are those of the shorter run. -/
theorem outcomes_take (plan : Plan) (feed : Feed φ) (link : Link σ) {n k : Nat} (inside : k ≤ n) (s : Session φ σ) :
    (runFor plan feed link n s).outcomes.take k = (runFor plan feed link k s).outcomes := by
  induction k generalizing n s with
  | zero => rfl
  | succ k ih =>
    obtain ⟨n,rfl⟩ : ∃ m, n = m + 1 := ⟨n - 1,by omega⟩
    obtain ⟨first,told⟩ := step_told plan feed link s
    simp only [runFor,Run.append,told.outcome,List.singleton_append,List.take_succ_cons]
    rw [ih (Nat.le_of_succ_le_succ inside)]

/-- Under either policy, whatever the feed reads and the link answers, the outcomes
of a new synchronizer are a faithful account of its run. Replayed from scouting
being off they give every command that was sent and the last state, and replayed
in part the state in which each cycle began. Each outcome tells the truth of its
cycle, which polled the feed once and took as many answers of the link as it sent
commands. -/
theorem runFor_told (plan : Plan) (feed : Feed φ) (link : Link σ) (polls : φ) (memory : σ) (n : Nat) :
    let start : Session φ σ := .new polls memory
    let run := runFor plan feed link n start
    run.outcomes.length = n ∧
    replay plan.resend .idle run.outcomes = (commands run.exchanges,run.session.state) ∧
    (run.session.feed = feed.after polls n ∧
      run.session.link = link.after memory (commands run.exchanges) ∧
      run.exchanges.map (·.result) = link.answers memory (commands run.exchanges)) ∧
    ∀ k < n,
      let s := (runFor plan feed link k start).session
      s.state = (replay plan.resend .idle (run.outcomes.take k)).2 ∧
      ∃ o, run.outcomes[k]? = some o ∧ Told plan feed link s (step plan feed link s) o := by
  intro start run
  have talk : Conversation link plan.Permits .idle memory run.exchanges run.session.state run.session.link :=
    runFor_converses plan feed link n start
  refine ⟨length_outcomes plan feed link n start,replay_outcomes plan feed link n start,
    ⟨runFor_feed plan feed link n start,talk.memory_eq,talk.results_eq⟩,?_⟩
  intro k inside s
  have replayed : replay plan.resend .idle (run.outcomes.take k) =
      (commands (runFor plan feed link k start).exchanges,s.state) := by
    rw [outcomes_take plan feed link (Nat.le_of_lt inside) start]
    exact replay_outcomes plan feed link k start
  exact ⟨by rw [replayed],told_at plan feed link inside start⟩

end Synchronizer

end Lockstep
