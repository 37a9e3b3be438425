import Lockstep.Proofs.Account
import Lockstep.Proofs.Agreement
import Lockstep.Proofs.CommandLog
import Lockstep.Scripted

/-!
# The log as an audit trail

What the synchronizer tells the log is enough to check it. Every command that was
sent has its one record, which says what became of it (`Exchange.record`), and a
cycle warns once where it failed. So the acknowledged commands can be read back
from the text of the log, and with them the state (`retrace`). `Audited` says this of
what happens between two states; it holds of one command (`send_audited`), of a
cycle (`step_audited`) and of both kinds of run. `runFor_logs` puts all together.
-/

namespace Lockstep

/-- The outcomes of a cycle that failed. -/
def Outcome.isFailure : Outcome → Bool
  | .pollFailed | .missingRun | .commandFailed _ => true
  | .steady | .started _ | .stopped _ | .rolled _ _ => false

namespace Synchronizer

variable {φ σ : Type}

/-! ## Records -/

/-- The record of an event, unless the event passes on what the feed or the link has
noted. -/
def Event.own? : Event → Option Log.Record
  | .noted _ => none
  | event => some event.record

/-- The events that are about no command that has been sent. -/
def Event.IsAside : Event → Prop
  | .acknowledged _ _ _ | .notAcknowledged _ _ _ | .noted _ => False
  | _ => True

/-- What the synchronizer itself tells the log. -/
def spoken (events : List Event) : List Log.Record := events.filterMap Event.own?

/-- How often it warns. -/
def warnings (events : List Event) : Nat := (spoken events).countP (·.level = .warn)

/-- Whether a record says what became of a command. -/
def isVerdict (r : Log.Record) : Bool :=
  r.message = "Command acknowledged" || r.message = "Command not acknowledged, will retry next cycle"

/-- The run that a command is about: the one it starts, or the one that it would end,
which is zero where none is on. -/
def Exchange.run (x : Exchange) : Lockstep.Run :=
  match x.command with
  | .start run => run
  | .stop => x.before.run

/-- The record of what became of a command. -/
def Exchange.record (x : Exchange) : Log.Record :=
  match x.result with
  | .ok response =>
    ⟨.info,target,"Command acknowledged",
      [("command",.text x.command.wire),("run",.number x.run.toNat),("response",.text (Text.trimmed response))]⟩
  | .error error =>
    ⟨.warn,target,"Command not acknowledged, will retry next cycle",
      [("command",.text x.command.wire),("run",.number x.run.toNat),("error",.text error.message)]⟩

/-- The state after a record. One that says a command was acknowledged leads where
the command does, which is read from its text; any other leaves the state alone. -/
def follow (state : State) (r : Log.Record) : State :=
  if r.message = "Command acknowledged" then
    match r.fields.lookup "command" with
    | some (.text wire) => ((Command.ofText? wire).map State.ofCommand).getD state
    | _ => state
  else state

/-- The state after some records. -/
def retrace (state : State) (log : List Log.Record) : State := log.foldl follow state

@[simp] theorem spoken_nil : spoken [] = [] := rfl

@[simp] theorem spoken_append (first second : List Event) : spoken (first ++ second) = spoken first ++ spoken second :=
  List.filterMap_append

/-- What others have noted is not the synchronizer's own. -/
@[simp] theorem spoken_noted (notes : List Log.Record) : spoken (notes.map .noted) = [] := by
  rw [spoken,List.filterMap_map]
  exact List.filterMap_eq_nil_iff.mpr fun _ _ => rfl

theorem Event.IsAside.own {event : Event} (aside : event.IsAside) :
    event.own? = some event.record ∧ isVerdict event.record = false := by
  cases event with
  | acknowledged | notAcknowledged | noted => exact aside.elim
  | _ => exact ⟨rfl,by simp [isVerdict,record]⟩

theorem isVerdict_record (x : Exchange) : isVerdict x.record = true := by
  unfold Exchange.record
  cases x.result with
  | ok | error => simp [isVerdict]

/-- A command that is not acknowledged is warned of. -/
theorem level_record (x : Exchange) : x.record.level = .warn ↔ x.isAcknowledged = false := by
  unfold Exchange.record Exchange.isAcknowledged
  cases x.result with
  | ok | error => simp

/-- The record of a command leads where the command has led. -/
theorem follow_record (state : State) (x : Exchange) :
    follow state x.record = if x.isAcknowledged then .ofCommand x.command else state := by
  unfold Exchange.record Exchange.isAcknowledged follow
  cases x.result with
  | ok => simp [List.lookup_cons_self,Command.ofText?_wire]
  | error => simp

/-- Any other record leaves the state alone. -/
theorem follow_of_not_isVerdict {r : Log.Record} (aside : isVerdict r = false) (state : State) :
    follow state r = state := by
  have other : r.message ≠ "Command acknowledged" := fun same => by simp [isVerdict,same] at aside
  rw [follow,if_neg other]

/-! ## What is audited -/

/-- The log tells what happened between two states: each command has its record, there
is a warning for each of the failures, and the records lead from the one state to
the other. -/
structure Audited (before : State) (events : List Event) (xs : List Exchange) (failures : Nat) (after : State) :
    Prop where
  verdicts : (spoken events).filter isVerdict = xs.map Exchange.record
  warned : warnings events = failures
  retraced : retrace before (spoken events) = after

namespace Audited

variable {before middle after : State} {events later : List Event} {xs ys : List Exchange} {m n : Nat}

theorem nothing (state : State) : Audited state [] [] 0 state := ⟨rfl,rfl,rfl⟩

theorem append (first : Audited before events xs m middle) (second : Audited middle later ys n after) :
    Audited before (events ++ later) (xs ++ ys) (m + n) after := by
  refine ⟨?_,?_,?_⟩
  · rw [spoken_append,List.filter_append,first.verdicts,second.verdicts,List.map_append]
  · rw [warnings,spoken_append,List.countP_append,← first.warned,← second.warned]
    rfl
  · rw [retrace,spoken_append,List.foldl_append,← second.retraced,← first.retraced]
    rfl

/-- What others have noted changes nothing. -/
theorem noted (state : State) (notes : List Log.Record) : Audited state (notes.map .noted) [] 0 state := by
  refine ⟨?_,?_,?_⟩
  · rw [spoken_noted]
    rfl
  · rw [warnings,spoken_noted]
    rfl
  · rw [spoken_noted]
    rfl

/-- Nor does an event that is about no command, but it may be a warning. -/
theorem remark (state : State) (event : Event) (aside : event.IsAside) :
    Audited state [event] [] (if event.record.level = .warn then 1 else 0) state := by
  obtain ⟨own,other⟩ := aside.own
  have one : spoken [event] = [event.record] := List.filterMap_cons_some own
  refine ⟨?_,?_,?_⟩
  · rw [one,List.filter_cons_of_neg (by simp [other])]
    rfl
  · rw [warnings,one,List.countP_singleton]
    simp
  · rw [one]
    exact follow_of_not_isVerdict other state

end Audited

/-! ## One command -/

section
variable (link : Link σ) (state : State) (c : Command) (memory : σ)

/-- All that is told of a command once it has been sent is its record. -/
theorem spoken_send : spoken (send link state c memory).events = [(send link state c memory).exchange.record] := by
  have run : c.run?.getD state.run = (⟨c,(link.send c memory).1.result,state,state,0⟩ : Exchange).run := by
    cases c with
    | start | stop => rfl
  unfold send
  cases answer : (link.send c memory).1.result with
  | ok response =>
    simp only [answer,spoken_append,spoken_noted,List.nil_append,run]
    rfl
  | error error =>
    simp only [answer,spoken_append,spoken_noted,List.nil_append,run]
    rfl

theorem send_audited :
    Audited state (send link state c memory).events [(send link state c memory).exchange]
      (if (send link state c memory).exchange.isAcknowledged then 0 else 1)
      (send link state c memory).exchange.after := by
  refine ⟨?_,?_,?_⟩
  · rw [spoken_send,List.filter_cons_of_pos (isVerdict_record _)]
    rfl
  · rw [warnings,spoken_send,List.countP_singleton]
    simp only [level_record,decide_eq_true_eq]
    by_cases heard : (send link state c memory).exchange.isAcknowledged = true
    · simp [heard]
    · simp [heard]
  · rw [spoken_send,send_after]
    show follow state (send link state c memory).exchange.record = _
    rw [follow_record,send_command]

theorem announce_audited : Audited state [announce state c] [] 0 state := by
  cases c with
  | start run => exact .remark state (.starting run) trivial
  | stop => exact .remark state (.stopping state.run) trivial

end

/-! ## One cycle -/

/-- What a decision is said to be: a cycle that sends nothing has one event, a warning
where its outcome is a failure, and a command that is acknowledged makes none. -/
def Decision.Speaks : Decision → Prop
  | .rest outcome event => event.IsAside ∧ (event.record.level = .warn ↔ outcome.isFailure = true)
  | .command _ outcome => outcome.isFailure = false
  | .rollOver _ _ => True

theorem Plan.Decides.speaks {plan : Plan} {state : State} {reading : Reading} {decision : Decision}
    (decides : plan.Decides state reading decision) : decision.Speaks := by
  cases decides with
  | unread | unnamed => exact ⟨trivial,by simp [Event.record,Outcome.isFailure]⟩
  | stays | rests => exact ⟨trivial,by simp [Event.record,Outcome.isFailure]⟩
  | changes => trivial
  | starts | stops => exact rfl

/-- The log of a cycle has one warning if the cycle failed and none otherwise. -/
def Cycle.IsAudited (before : State) (done : Cycle σ) : Prop :=
  Audited before done.events done.exchanges (if done.outcome.isFailure then 1 else 0) done.state

theorem single_audited (link : Link σ) (state : State) (c : Command) (outcome : Outcome) (memory : σ)
    (success : outcome.isFailure = false) : (single link state c outcome memory).IsAudited state := by
  have whole := (announce_audited state c).append (send_audited link state c memory)
  rw [Nat.zero_add] at whole
  unfold Cycle.IsAudited single
  by_cases heard : (send link state c memory).exchange.isAcknowledged = true
  · simp only [heard,if_true,success,Bool.false_eq_true,if_false] at whole ⊢
    exact whole
  · simp only [heard,Bool.false_eq_true,if_false] at whole ⊢
    exact whole

/-- Only the last command of the two can fail. -/
theorem rollOver_audited (link : Link σ) (old new : Lockstep.Run) (memory : σ) :
    (rollOver link old new memory).IsAudited (.active old) := by
  have changed : Audited (.active old) [.runChanged old new] [] 0 (.active old) := .remark _ _ trivial
  have stop := (changed.append (announce_audited (.active old) .stop)).append
    (send_audited link (.active old) .stop memory)
  unfold Cycle.IsAudited rollOver
  by_cases stopped : (send link (.active old) .stop memory).exchange.isAcknowledged = true
  · simp only [stopped,if_true] at stop ⊢
    have start := stop.append (single_audited link (send link (.active old) .stop memory).exchange.after
      (.start new) (.rolled old new) (send link (.active old) .stop memory).link rfl)
    rw [Nat.zero_add] at start
    exact start
  · simp only [stopped,Bool.false_eq_true,if_false] at stop ⊢
    exact stop

theorem carryOut_audited {plan : Plan} {state : State} (link : Link σ) (memory : σ) {decision : Decision}
    (fits : decision.Fits plan state) (speaks : decision.Speaks) :
    (decision.carryOut link state memory).IsAudited state := by
  cases decision with
  | rest outcome event =>
    obtain ⟨aside,warns⟩ := speaks
    have one := Audited.remark state event aside
    simp only [warns] at one
    exact one
  | command c outcome => exact single_audited link state c outcome memory speaks
  | rollOver old new =>
    obtain ⟨rfl,_⟩ := fits
    exact rollOver_audited link old new memory

theorem preface_audited (state : State) (reading : Reading) : Audited state (preface reading) [] 0 state := by
  have notes := Audited.noted state reading.notes
  unfold preface
  cases reading.result with
  | error error =>
    rw [List.append_nil]
    exact notes
  | ok snapshot => exact notes.append (.remark state (.facility snapshot) trivial)

/-! ## Runs -/

/-- A run is a conversation with the link, and its log has one warning for each cycle that
failed. -/
structure Run.IsAudited (plan : Plan) (link : Link σ) (state : State) (memory : σ) (run : Run φ σ) : Prop where
  talk : Conversation link plan.Permits state memory run.exchanges run.session.state run.session.link
  log : Audited state run.events run.exchanges (run.outcomes.countP Outcome.isFailure) run.session.state

section
variable {plan : Plan} {link : Link σ}

theorem Run.IsAudited.append {state : State} {memory : σ} {first second : Run φ σ}
    (here : first.IsAudited plan link state memory)
    (later : second.IsAudited plan link first.session.state first.session.link) :
    (first.append second).IsAudited plan link state memory := by
  refine ⟨here.talk.append later.talk,?_⟩
  have whole := here.log.append later.log
  rw [← List.countP_append] at whole
  exact whole

theorem nothing_audited (s : Session φ σ) : (Run.nothing s).IsAudited plan link s.state s.link :=
  ⟨.silence _ _,.nothing s.state⟩

end

section
variable (plan : Plan) (feed : Feed φ) (link : Link σ)

theorem step_audited (s : Session φ σ) : (step plan feed link s).IsAudited plan link s.state s.link := by
  refine ⟨step_converses plan feed link s,?_⟩
  have reading := preface_audited s.state (feed.poll s.feed).1
  have done := carryOut_audited link s.link (decide_fits plan s.state (feed.poll s.feed).1)
    (decides plan s.state (feed.poll s.feed).1).speaks
  have whole := reading.append done
  rw [Nat.zero_add] at whole
  rw [step_eq,List.countP_singleton]
  exact whole

theorem runFor_audited (n : Nat) (s : Session φ σ) :
    (runFor plan feed link n s).IsAudited plan link s.state s.link := by
  induction n generalizing s with
  | zero => exact nothing_audited s
  | succ n ih => exact (step_audited plan feed link s).append (ih (wait plan (step plan feed link s).session))

/-- The induction is on the time that is left, as the run goes. -/
theorem runOn_audited (time : Nat) (s : Session φ σ) :
    (runOn plan feed link time s).IsAudited plan link s.state s.link := by
  fun_induction runOn plan feed link time s with
  | case1 time s first further ih => exact (step_audited plan feed link s).append ih
  | case2 time s first last =>
    exact (step_audited plan feed link s).append
      (nothing_audited { first.session with elapsed := first.session.elapsed + time })

theorem runUntil_audited (time : Nat) (s : Session φ σ) :
    (runUntil plan feed link time s).IsAudited plan link s.state s.link := by
  have run := runOn_audited plan feed link time s
  have launched : Audited s.state [.launched plan.delay plan.resend] [] 0 s.state := .remark s.state _ trivial
  have whole := launched.append run.log
  rw [Nat.zero_add] at whole
  exact ⟨run.talk,whole⟩

/-- The log of a run is that of its cycles, one after another. -/
theorem runFor_events (n : Nat) (s : Session φ σ) : (runFor plan feed link n s).events =
    (List.range n).flatMap fun k => (step plan feed link (runFor plan feed link k s).session).events := by
  induction n with
  | zero => rfl
  | succ n ih =>
    have last : (runFor plan feed link 1 (runFor plan feed link n s).session).events =
        (step plan feed link (runFor plan feed link n s).session).events := List.append_nil _
    rw [runFor_add plan feed link n 1,List.range_succ,List.flatMap_append,List.flatMap_singleton,← ih,← last]
    rfl

end

/-- The log of a run that began with scouting off and a link that remembered `memory` is
a complete audit trail. The link was sent the commands of the run, each in the state
that the acknowledged ones before it confirm. The records on commands are theirs, one
for each and in their order. There are as many warnings as cycles that failed, and
the records lead to the state. -/
structure Trail (link : Link σ) (memory : σ) (run : Run φ σ) : Prop where
  sent : run.session.link = link.after memory (commands run.exchanges)
  answered : run.exchanges.map (·.result) = link.answers memory (commands run.exchanges)
  before : ∀ before x rest, run.exchanges = before ++ x :: rest → x.before = confirmed before
  verdicts : (spoken run.events).filter isVerdict = run.exchanges.map Exchange.record
  warned : warnings run.events = run.outcomes.countP Outcome.isFailure
  retraced : retrace .idle (spoken run.events) = run.session.state

theorem Run.IsAudited.trail {plan : Plan} {link : Link σ} {memory : σ} {run : Run φ σ}
    (audited : run.IsAudited plan link .idle memory) : Trail link memory run := by
  obtain ⟨talk,log⟩ := audited
  refine ⟨talk.memory_eq,talk.results_eq,?_,log.verdicts,log.warned,log.retraced⟩
  intro before x rest here
  rw [here] at talk
  exact talk.around_command.1

/-- Under either policy, whatever the feed reads and the link answers, the log of a new
synchronizer is a complete audit trail: every command has its record with its text
and its run, as information where it was acknowledged and as a warning where not, and
replaying the records gives the state. The log of a run is that of its cycles, and a
cycle warns once where its outcome is a failure and not at all otherwise. The run
without end leaves such a trail as well, whenever it is cut off. -/
theorem runFor_logs (plan : Plan) (feed : Feed φ) (link : Link σ) (polls : φ) (memory : σ) (n : Nat) :
    let start : Session φ σ := .new polls memory
    let run := runFor plan feed link n start
    let cycle := fun k => step plan feed link (runFor plan feed link k start).session
    Trail link memory run ∧
    run.events = (List.range n).flatMap (fun k => (cycle k).events) ∧
    (∀ k < n, ∃ o, run.outcomes[k]? = some o ∧ (cycle k).outcomes = [o] ∧
      warnings (cycle k).events = if o.isFailure then 1 else 0) ∧
    ∀ time, Trail link memory (runUntil plan feed link time start) := by
  intro start run cycle
  refine ⟨?_,runFor_events plan feed link n start,?_,?_⟩
  · exact (runFor_audited plan feed link n start).trail
  · intro k inside
    obtain ⟨o,found,told⟩ := told_at plan feed link inside start
    have once := (step_audited plan feed link (runFor plan feed link k start).session).log.warned
    rw [told.outcome,List.countP_singleton] at once
    exact ⟨o,found,told.outcome,once⟩
  · intro time
    exact (runUntil_audited plan feed link time start).trail

/-- A run makes way for another, but nobody is there for the start: the log tells which
run was stopped and which was not started, and that nothing is on. -/
theorem hampered_rollOver_logged :
    let plan := Peer.stableBeams .onTransition
    let start : Session _ _ := .new (.ofEntries [some Peer.runFive,some { Peer.runFive with run := 6 }])
      (.ofReplies [.ack,.ack,.unreachable])
    let run := runFor plan Scripted.feed (Scripted.link .ack) 2 start
    let last := step plan Scripted.feed (Scripted.link .ack)
      (runFor plan Scripted.feed (Scripted.link .ack) 1 start).session
    (spoken run.events).filter isVerdict =
      [⟨.info,target,"Command acknowledged",
          [("command",.text "start 5"),("run",.number 5),("response",.text "ok")]⟩,
        ⟨.info,target,"Command acknowledged",
          [("command",.text "stop"),("run",.number 5),("response",.text "ok")]⟩,
        ⟨.warn,target,"Command not acknowledged, will retry next cycle",
          [("command",.text "start 6"),("run",.number 6),
            ("error",.text "scouting peer mock unreachable: connection refused")]⟩] ∧
    last.outcomes = [.commandFailed (.start 6)] ∧ warnings last.events = 1 ∧
    retrace .idle (spoken run.events) = .idle := by
  intro plan start run last
  obtain ⟨trail,_,once,_⟩ := runFor_logs plan Scripted.feed (Scripted.link .ack)
    (.ofEntries [some Peer.runFive,some { Peer.runFive with run := 6 }])
    (Scripted.Script.ofReplies [.ack,.ack,.unreachable]) 2
  obtain ⟨o,_,outcome,warned⟩ := once 1 (by decide)
  have failed : last.outcomes = [.commandFailed (.start 6)] := by decide +kernel
  obtain rfl : o = .commandFailed (.start 6) := List.singleton_inj.mp (outcome.symm.trans failed)
  exact ⟨trail.verdicts.trans (by decide +kernel),failed,warned,trail.retraced.trans (by decide +kernel)⟩

end Synchronizer

end Lockstep
