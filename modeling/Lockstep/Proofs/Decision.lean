import Lockstep.Synchronizer

/-!
# What a cycle decides

A cycle is a decision and its execution. The decision looks at the plan, the
state and the reading of the feed, never at the link; the execution speaks to
the link and never looks at the plan. `cycle_eq` takes every cycle apart in this
way, so a fact about all cycles is a fact about three kinds of decision. Which
of them is made, and on what grounds, is said once, by `Plan.Decides`.
-/

namespace Lockstep.Synchronizer

/-- What a cycle sets out to do: nothing, one command, or a stop and then a
start. -/
inductive Decision where
  | rest (outcome : Outcome) (event : Event)
  | command (command : Command) (outcome : Outcome)
  | rollOver (old new : Lockstep.Run)

/-- What a plan decides in a state, on a reading of the feed. -/
def Plan.decide (plan : Plan) (state : State) (reading : Reading) : Decision :=
  match reading.result with
  | .error error => .rest .pollFailed (.pollFailed error state.run)
  | .ok snapshot =>
    if plan.conditions.wants snapshot then
      if snapshot.run = 0 then .rest .missingRun .missingRun
      else match plan.resend,state with
        | .onTransition,.active current =>
          if current = snapshot.run then .rest .steady (.alreadyRunning current)
          else .rollOver current snapshot.run
        | _,_ => .command (.start snapshot.run) (.started snapshot.run)
    else if plan.resend = .onTransition ∧ state = .idle then .rest .steady .alreadyStopped
    else .command .stop (.stopped state.run)

/-- Of a reading only its result counts. -/
theorem decide_congr (plan : Plan) (state : State) {reading other : Reading} (same : reading.result = other.result) :
    plan.decide state reading = plan.decide state other := by
  unfold Plan.decide
  rw [same]

/-- The cycle of a decision. -/
def Decision.carryOut {σ : Type} (link : Link σ) (state : State) (memory : σ) : Decision → Cycle σ
  | .rest outcome event => quiet outcome state memory [event]
  | .command c outcome => single link state c outcome memory
  | .rollOver old new => Synchronizer.rollOver link old new memory

/-- What the log is told of a reading before anything is decided. -/
def preface (reading : Reading) : List Event :=
  reading.notes.map .noted ++
    match reading.result with
    | .error _ => []
    | .ok snapshot => [.facility snapshot]

/-- Every cycle carries out a decision that was made without the link. -/
theorem cycle_eq {σ : Type} (plan : Plan) (link : Link σ) (state : State) (reading : Reading) (memory : σ) :
    cycle plan link state reading memory =
      let done := (plan.decide state reading).carryOut link state memory
      { done with events := preface reading ++ done.events } := by
  unfold cycle Plan.decide preface
  cases reading.result with
  | error error => simp [Decision.carryOut,quiet]
  | ok snapshot =>
    by_cases desired : plan.conditions.wants snapshot = true
    · by_cases absent : snapshot.run = 0
      · simp [desired,absent,wanted,Decision.carryOut,quiet]
      · simp only [desired,absent,wanted,if_true,if_false]
        cases policy : plan.resend with
        | everyCycle => simp [Decision.carryOut]
        | onTransition =>
          cases state with
          | idle => simp [Decision.carryOut]
          | active current =>
            by_cases same : current = snapshot.run
            · simp [same,Decision.carryOut,quiet]
            · simp [same,Decision.carryOut]
    · simp only [desired,unwanted,Bool.false_eq_true,if_false]
      by_cases gate : plan.resend = .onTransition ∧ state = .idle
      · simp [gate,Decision.carryOut,quiet]
      · simp [gate,Decision.carryOut]

/-- A step polls, decides and carries out. -/
theorem step_eq {φ σ : Type} (plan : Plan) (feed : Feed φ) (link : Link σ) (s : Session φ σ) :
    step plan feed link s =
      let done := (plan.decide s.state (feed.poll s.feed).1).carryOut link s.state s.link
      ⟨[done.outcome],done.exchanges,preface (feed.poll s.feed).1 ++ done.events,
        ⟨done.state,(feed.poll s.feed).2,done.link,s.elapsed,
          s.busy + effort (feed.poll s.feed).1 done.exchanges⟩⟩ := by
  show (let done := cycle plan link s.state (feed.poll s.feed).1 s.link
    (⟨[done.outcome],done.exchanges,done.events,⟨done.state,(feed.poll s.feed).2,done.link,s.elapsed,
      s.busy + effort (feed.poll s.feed).1 done.exchanges⟩⟩ : Run φ σ)) = _
  rw [cycle_eq]

/-! ## How a plan decides -/

/-- All that a plan may decide, with the reason for it. Only the gated policy looks
at the state. -/
inductive Plan.Decides (plan : Plan) (state : State) (reading : Reading) : Decision → Prop
  | unread {error : FeedError} (read : reading.result = .error error) :
      plan.Decides state reading (.rest .pollFailed (.pollFailed error state.run))
  | unnamed {snapshot : Snapshot} (read : reading.result = .ok snapshot)
      (desired : plan.conditions.wants snapshot = true) (absent : snapshot.run = 0) :
      plan.Decides state reading (.rest .missingRun .missingRun)
  | stays {snapshot : Snapshot} (read : reading.result = .ok snapshot)
      (desired : plan.conditions.wants snapshot = true) (named : snapshot.run ≠ 0) (gated : plan.resend = .onTransition)
      (on : state = .active snapshot.run) : plan.Decides state reading (.rest .steady (.alreadyRunning snapshot.run))
  | changes {snapshot : Snapshot} {old : Lockstep.Run} (read : reading.result = .ok snapshot)
      (desired : plan.conditions.wants snapshot = true) (named : snapshot.run ≠ 0) (gated : plan.resend = .onTransition)
      (on : state = .active old) (other : old ≠ snapshot.run) :
      plan.Decides state reading (.rollOver old snapshot.run)
  | starts {snapshot : Snapshot} (read : reading.result = .ok snapshot)
      (desired : plan.conditions.wants snapshot = true) (named : snapshot.run ≠ 0)
      (gate : plan.resend = .onTransition → state = .idle) :
      plan.Decides state reading (.command (.start snapshot.run) (.started snapshot.run))
  | rests {snapshot : Snapshot} (read : reading.result = .ok snapshot)
      (undesired : plan.conditions.wants snapshot = false) (gated : plan.resend = .onTransition)
      (off : state = .idle) : plan.Decides state reading (.rest .steady .alreadyStopped)
  | stops {snapshot : Snapshot} (read : reading.result = .ok snapshot)
      (undesired : plan.conditions.wants snapshot = false) (gate : plan.resend = .onTransition → state ≠ .idle) :
      plan.Decides state reading (.command .stop (.stopped state.run))

theorem decides (plan : Plan) (state : State) (reading : Reading) :
    plan.Decides state reading (plan.decide state reading) := by
  unfold Plan.decide
  cases read : reading.result with
  | error error => exact .unread read
  | ok snapshot =>
    by_cases desired : plan.conditions.wants snapshot = true
    · simp only [desired,if_true]
      by_cases absent : snapshot.run = 0
      · rw [if_pos absent]
        exact .unnamed read desired absent
      · rw [if_neg absent]
        cases policy : plan.resend with
        | everyCycle => exact .starts read desired absent (by simp [policy])
        | onTransition =>
          cases state with
          | idle => exact .starts read desired absent fun _ => rfl
          | active current =>
            by_cases same : current = snapshot.run
            · subst same
              simp only [if_true]
              exact .stays read desired absent policy rfl
            · simp only [if_neg same]
              exact .changes read desired absent policy rfl same
    · have undesired : plan.conditions.wants snapshot = false := Bool.not_eq_true _ ▸ desired
      simp only [undesired,Bool.false_eq_true,if_false]
      by_cases gate : plan.resend = .onTransition ∧ state = .idle
      · rw [if_pos gate]
        exact .rests read undesired gate.1 gate.2
      · rw [if_neg gate]
        exact .stops read undesired fun gated off => gate ⟨gated,off⟩

/-! ## Which commands a plan sends -/

/-- The commands that change a state: a start where scouting is off, a stop where
it is on. -/
def Legal : State → Command → Prop
  | .idle,.start _ => True
  | .active _,.stop => True
  | _,_ => False

/-- The commands that a plan may send in a state. -/
structure Plan.Permits (plan : Plan) (state : State) (c : Command) : Prop where
  named : c ≠ .start 0
  legal : plan.resend = .onTransition → Legal state c

/-- A decision asks for nothing that its plan does not permit. One run makes way
for another only under the gated policy, and only for a run with a number of its
own. -/
def Decision.Fits (plan : Plan) (state : State) : Decision → Prop
  | .rest _ _ => True
  | .command c _ => plan.Permits state c
  | .rollOver old new => state = .active old ∧ plan.resend = .onTransition ∧ old ≠ new ∧ new ≠ 0

theorem Plan.Decides.fits {plan : Plan} {state : State} {reading : Reading} {decision : Decision}
    (decides : plan.Decides state reading decision) : decision.Fits plan state := by
  cases decides with
  | unread | unnamed | stays | rests => trivial
  | changes _ _ named gated on other => exact ⟨on,gated,other,named⟩
  | starts _ _ named gate =>
    refine ⟨fun zero => named (Command.start.inj zero),fun gated => ?_⟩
    rw [gate gated]
    trivial
  | stops _ _ gate =>
    refine ⟨nofun,fun gated => ?_⟩
    cases state with
    | idle => exact absurd rfl (gate gated)
    | active current => trivial

theorem decide_fits (plan : Plan) (state : State) (reading : Reading) : (plan.decide state reading).Fits plan state :=
  (decides plan state reading).fits

/-! ## Where a decision leads -/

/-- The state that a snapshot asks for; none is asked for where scouting is wanted
and there is no run. -/
def target? (conditions : Conditions) (snapshot : Snapshot) : Option State :=
  if conditions.wants snapshot then
    if snapshot.run = 0 then none else some (.active snapshot.run)
  else some .idle

/-- What a reading asks for; a poll that fails asks for nothing. -/
def asks? (conditions : Conditions) (reading : Reading) : Option State :=
  match reading.result with
  | .error _ => none
  | .ok snapshot => target? conditions snapshot

/-- The state after a decision all of whose commands are acknowledged. -/
def Decision.aim (state : State) : Decision → State
  | .rest _ _ => state
  | .command c _ => .ofCommand c
  | .rollOver _ new => .active new

/-- The command that asks for a state. -/
def request : State → Command
  | .idle => .stop
  | .active run => .start run

theorem ofCommand_request (goal : State) : .ofCommand (request goal) = goal := by
  cases goal with
  | idle | active run => rfl

section
variable {plan : Plan} {state goal : State} {reading : Reading} {decision : Decision}

/-- Every decision aims at what the reading asks for. -/
theorem Plan.Decides.aim_eq (decides : plan.Decides state reading decision)
    (asked : asks? plan.conditions reading = some goal) : decision.aim state = goal := by
  cases decides with
  | unread read => simp [asks?,read] at asked
  | unnamed read desired absent => simp [asks?,read,target?,desired,absent] at asked
  | stays read desired named _ on =>
    rw [Decision.aim,on]
    simpa [asks?,read,target?,desired,named] using asked
  | changes read desired named | starts read desired named =>
    obtain rfl : State.active _ = goal := by simpa [asks?,read,target?,desired,named] using asked
    rfl
  | rests read undesired _ off =>
    rw [Decision.aim,off]
    simpa [asks?,read,target?,undesired] using asked
  | stops read undesired =>
    obtain rfl : State.idle = goal := by simpa [asks?,read,target?,undesired] using asked
    rfl

/-- Under the gated policy a state that is asked for is kept. -/
theorem Plan.Decides.steady (decides : plan.Decides state reading decision) (gated : plan.resend = .onTransition)
    (asked : asks? plan.conditions reading = some state) : ∃ event, decision = .rest .steady event := by
  have aim := decides.aim_eq asked
  cases decides with
  | unread read => simp [asks?,read] at asked
  | unnamed read desired absent => simp [asks?,read,target?,desired,absent] at asked
  | stays | rests => exact ⟨_,rfl⟩
  | changes _ _ _ _ on other => exact absurd (State.active.inj (aim.trans on)).symm other
  | starts _ _ _ gate => cases aim.trans (gate gated)
  | stops _ _ gate => exact absurd aim.symm (gate gated)

/-- The ungated policy requests what the reading asks for, whatever its state. -/
theorem Plan.Decides.requests (decides : plan.Decides state reading decision) (ungated : plan.resend = .everyCycle)
    (asked : asks? plan.conditions reading = some goal) : ∃ outcome, decision = .command (request goal) outcome := by
  cases decides with
  | unread read => simp [asks?,read] at asked
  | unnamed read desired absent => simp [asks?,read,target?,desired,absent] at asked
  | stays _ _ _ gated | changes _ _ _ gated | rests _ _ gated => simp [ungated] at gated
  | starts read desired named =>
    obtain rfl : State.active _ = goal := by simpa [asks?,read,target?,desired,named] using asked
    exact ⟨_,rfl⟩
  | stops read undesired =>
    obtain rfl : State.idle = goal := by simpa [asks?,read,target?,undesired] using asked
    exact ⟨_,rfl⟩

/-- Where nothing is asked for nothing is sent, under either policy. -/
theorem Plan.Decides.silent (decides : plan.Decides state reading decision)
    (asked : asks? plan.conditions reading = none) : ∃ outcome event, decision = .rest outcome event := by
  cases decides with
  | unread | unnamed | stays | rests => exact ⟨_,_,rfl⟩
  | changes read desired named | starts read desired named => simp [asks?,read,target?,desired,named] at asked
  | stops read undesired => simp [asks?,read,target?,undesired] at asked

end

end Lockstep.Synchronizer
