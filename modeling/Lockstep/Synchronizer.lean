import Lockstep.Feed
import Lockstep.Link
import Lockstep.Settings
import Lockstep.Text.Blank

/-!
# The synchronizer

Once a cycle the synchronizer looks at a snapshot of the facility and, where
scouting should run and does not or runs and should not, sends the peer a
command. Its state is what the peer has last acknowledged; a poll that fails or
a command that is not acknowledged leaves it alone, and the next cycle tries
again.

`cycle` is one such cycle. It tells all it did: the outcome, every command with
its result, and the events for the log.
-/

namespace Lockstep

/-- Scouting as the peer has last confirmed it. -/
inductive State where
  | idle
  | active (run : Run)
deriving DecidableEq

namespace State

/-- The run that scouting is on; zero is none. -/
def run : State → Run
  | .idle => 0
  | .active run => run

/-- Whether scouting is on. -/
def isActive : State → Bool
  | .idle => false
  | .active _ => true

/-- The state that an acknowledged command leads to. -/
def ofCommand : Command → State
  | .start run => .active run
  | .stop => .idle

end State

/-- What a cycle came to. -/
inductive Outcome where
  | pollFailed
  | missingRun
  | steady
  | started (run : Run)
  | stopped (run : Run)
  | rolled (old new : Run)
  | commandFailed (command : Command)
deriving DecidableEq

namespace Synchronizer

/-- How the control loop runs. -/
structure Plan where
  conditions : Conditions
  resend : ResendPolicy
  delay : Duration

/-- The plan that settings ask for. -/
def Plan.ofSettings (s : Settings.Sync) : Plan := ⟨s.conditions,s.resend,s.delay⟩

/-! ## Events -/

/-- What the synchronizer tells the log. -/
inductive Event where
  | launched (delay : Duration) (resend : ResendPolicy)
  | pollFailed (error : FeedError) (run : Run)
  | facility (snapshot : Snapshot)
  | missingRun
  | alreadyRunning (run : Run)
  | runChanged (old new : Run)
  | alreadyStopped
  | starting (run : Run)
  | stopping (run : Run)
  | acknowledged (command : Command) (run : Run) (response : String)
  | notAcknowledged (command : Command) (run : Run) (error : LinkError)
  | noted (record : Log.Record)

/-- The part of the program that speaks. -/
def target : String := "scout_sync::synchronizer"

/-- The name of a policy in the log. -/
def policyName : ResendPolicy → String
  | .onTransition => "OnTransition"
  | .everyCycle => "EveryCycle"

/-- A run number as a value in the log. -/
def runField (run : Run) : Log.Field := .number run.toNat

/-- The record of an event. -/
def Event.record : Event → Log.Record
  | .launched delay resend =>
    ⟨.info,target,"Run-state synchronizer started",
      [("delay",.text delay.plainText),("policy",.text (policyName resend))]⟩
  | .pollFailed error run =>
    ⟨.warn,target,"Status poll failed, skipping cycle",
      [("error",.text error.message),("current_run",runField run)]⟩
  | .facility s =>
    ⟨.info,target,"Facility state",
      [("run",runField s.run),("beam_mode",.text s.beamMode),
        ("daq_state",.text s.daqState)]⟩
  | .missingRun =>
    ⟨.warn,target,"Conditions allow scouting but the snapshot has no run number",[]⟩
  | .alreadyRunning run =>
    ⟨.info,target,"Scouting already running for this run, not resending",
      [("run",runField run)]⟩
  | .runChanged old new =>
    ⟨.info,target,"Run number changed, restarting scouting",
      [("from",runField old),("to",runField new)]⟩
  | .alreadyStopped => ⟨.info,target,"Scouting already stopped, not resending",[]⟩
  | .starting run => ⟨.info,target,"Starting scouting",[("run",runField run)]⟩
  | .stopping run => ⟨.info,target,"Stopping scouting",[("run",runField run)]⟩
  | .acknowledged command run response =>
    ⟨.info,target,"Command acknowledged",
      [("command",.text command.wire),("run",runField run),
        ("response",.text (Text.trimmed response))]⟩
  | .notAcknowledged command run error =>
    ⟨.warn,target,"Command not acknowledged, will retry next cycle",
      [("command",.text command.wire),("run",runField run),
        ("error",.text error.message)]⟩
  | .noted record => record

/-! ## Commands -/

/-- A command that was sent, its result, the state before and after, and how long
the link took, in nanoseconds. -/
structure Exchange where
  command : Command
  result : Except LinkError String
  before : State
  after : State
  took : Nat

/-- Whether a command was acknowledged. -/
def Exchange.isAcknowledged (x : Exchange) : Bool :=
  match x.result with
  | .ok _ => true
  | .error _ => false

/-- What came of sending a command. -/
structure Sent (σ : Type) where
  exchange : Exchange
  link : σ
  events : List Event

/-- Sends a command; only an acknowledgment changes the state. A stop carries no
run and is logged with the run that it ends. -/
def send {σ : Type} (link : Link σ) (state : State) (command : Command) (memory : σ) : Sent σ :=
  let run := command.run?.getD state.run
  let (delivery,memory) := link.send command memory
  let notes := delivery.notes.map .noted
  match delivery.result with
  | .ok response =>
    ⟨⟨command,.ok response,state,.ofCommand command,delivery.took⟩,memory,
      notes ++ [.acknowledged command run response]⟩
  | .error error =>
    ⟨⟨command,.error error,state,state,delivery.took⟩,memory,
      notes ++ [.notAcknowledged command run error]⟩

/-! ## Cycles -/

/-- What a cycle did. -/
structure Cycle (σ : Type) where
  outcome : Outcome
  state : State
  link : σ
  exchanges : List Exchange
  events : List Event

/-- A cycle that sends nothing. -/
def quiet {σ : Type} (outcome : Outcome) (state : State) (memory : σ) (events : List Event) :
    Cycle σ :=
  ⟨outcome,state,memory,[],events⟩

/-- The event that announces a command. -/
def announce (state : State) : Command → Event
  | .start run => .starting run
  | .stop => .stopping state.run

/-- A cycle that sends one command; `outcome` is what it comes to if the command
is acknowledged. -/
def single {σ : Type} (link : Link σ) (state : State) (command : Command) (outcome : Outcome)
    (memory : σ) : Cycle σ :=
  let sent := send link state command memory
  ⟨if sent.exchange.isAcknowledged then outcome else .commandFailed command,
    sent.exchange.after,sent.link,[sent.exchange],announce state command :: sent.events⟩

/-- A cycle that stops one run and, if that is acknowledged, starts another. -/
def rollOver {σ : Type} (link : Link σ) (old new : Run) (memory : σ) : Cycle σ :=
  let state := State.active old
  let stop := send link state .stop memory
  let events := .runChanged old new :: announce state .stop :: stop.events
  if stop.exchange.isAcknowledged then
    let start := single link stop.exchange.after (.start new) (.rolled old new) stop.link
    { start with exchanges := stop.exchange :: start.exchanges, events := events ++ start.events }
  else ⟨.commandFailed .stop,stop.exchange.after,stop.link,[stop.exchange],events⟩

/-- The cycle of a snapshot in which scouting is wanted. -/
def wanted {σ : Type} (plan : Plan) (link : Link σ) (state : State) (run : Run) (memory : σ) :
    Cycle σ :=
  if run = 0 then quiet .missingRun state memory [.missingRun]
  else match plan.resend,state with
    | .onTransition,.active current =>
      if current = run then quiet .steady state memory [.alreadyRunning run]
      else rollOver link current run memory
    | _,_ => single link state (.start run) (.started run) memory

/-- The cycle of a snapshot in which scouting is not wanted. -/
def unwanted {σ : Type} (plan : Plan) (link : Link σ) (state : State) (memory : σ) : Cycle σ :=
  if plan.resend = .onTransition ∧ state = .idle then
    quiet .steady state memory [.alreadyStopped]
  else single link state .stop (.stopped state.run) memory

/-- The cycle after a poll. -/
def cycle {σ : Type} (plan : Plan) (link : Link σ) (state : State) (reading : Reading)
    (memory : σ) : Cycle σ :=
  let notes := reading.notes.map Event.noted
  match reading.result with
  | .error error =>
    quiet .pollFailed state memory (notes ++ [.pollFailed error state.run])
  | .ok snapshot =>
    let next :=
      if plan.conditions.wants snapshot then wanted plan link state snapshot.run memory
      else unwanted plan link state memory
    { next with events := notes ++ .facility snapshot :: next.events }

/-! ## Runs -/

/-- A synchronizer between two cycles: its state, the memories of its feed and its
link, and its time in milliseconds since it was made. `elapsed` is the time of a clock
that only moves while the synchronizer waits, `busy` what its cycles have taken
besides; together they are all the time. -/
structure Session (φ σ : Type) where
  state : State
  feed : φ
  link : σ
  elapsed : Nat
  busy : Nat

/-- All the time since a synchronizer was made. -/
def Session.time {φ σ : Type} (s : Session φ σ) : Nat := s.elapsed + s.busy

/-- A synchronizer that has not run yet. -/
def Session.new {φ σ : Type} (feed : φ) (link : σ) : Session φ σ := ⟨.idle,feed,link,0,0⟩

/-- What some cycles did, and the session after them. -/
structure Run (φ σ : Type) where
  outcomes : List Outcome
  exchanges : List Exchange
  events : List Event
  session : Session φ σ

/-- The run of no cycle. -/
def Run.nothing {φ σ : Type} (session : Session φ σ) : Run φ σ := ⟨[],[],[],session⟩

/-- One run and then another. -/
def Run.append {φ σ : Type} (first second : Run φ σ) : Run φ σ :=
  ⟨first.outcomes ++ second.outcomes,first.exchanges ++ second.exchanges,
    first.events ++ second.events,second.session⟩

/-- How long a cycle takes, in milliseconds: a poll and the commands, up to the
millisecond at which the wait after it begins. -/
def effort (reading : Reading) (exchanges : List Exchange) : Nat :=
  Duration.millisOf (exchanges.foldl (fun time x => time + x.took) reading.took)

/-- Polls and runs one cycle. -/
def step {φ σ : Type} (plan : Plan) (feed : Feed φ) (link : Link σ) (s : Session φ σ) :
    Run φ σ :=
  let (reading,memory) := feed.poll s.feed
  let done := cycle plan link s.state reading s.link
  ⟨[done.outcome],done.exchanges,done.events,
    ⟨done.state,memory,done.link,s.elapsed,s.busy + effort reading done.exchanges⟩⟩

/-- Waits for the delay. -/
def wait {φ σ : Type} (plan : Plan) (s : Session φ σ) : Session φ σ :=
  { s with elapsed := s.elapsed + plan.delay.waitMillis }

/-- Runs a number of cycles, each with the wait after it. -/
def runFor {φ σ : Type} (plan : Plan) (feed : Feed φ) (link : Link σ) :
    Nat → Session φ σ → Run φ σ
  | 0,s => .nothing s
  | n + 1,s =>
    let first := step plan feed link s
    first.append (runFor plan feed link n (wait plan first.session))

/-- Runs on and on, cut off once a time, in milliseconds, has been waited: the wait in
which it runs out is the last. Where the delay is no time at all, that is the
first. -/
def runOn {φ σ : Type} (plan : Plan) (feed : Feed φ) (link : Link σ) (time : Nat)
    (s : Session φ σ) : Run φ σ :=
  let first := step plan feed link s
  if _h : 0 < plan.delay.waitMillis ∧ plan.delay.waitMillis ≤ time then
    first.append
      (runOn plan feed link (time - plan.delay.waitMillis) (wait plan first.session))
  else first.append (.nothing { first.session with elapsed := first.session.elapsed + time })
termination_by time

/-- Runs without end, cut off after some milliseconds of waiting that are no multiple
of the delay. -/
def runUntil {φ σ : Type} (plan : Plan) (feed : Feed φ) (link : Link σ) (time : Nat)
    (s : Session φ σ) : Run φ σ :=
  let done := runOn plan feed link time s
  { done with events := .launched plan.delay plan.resend :: done.events }

end Synchronizer

end Lockstep
