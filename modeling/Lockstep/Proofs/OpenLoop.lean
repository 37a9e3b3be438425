import Lockstep.Proofs.Conversation

/-!
# A loop without feedback

The ungated policy does not listen: what it sends is told by what the feed reads,
cycle by cycle, whatever the link answers and whatever state the answers have left
the synchronizer in (`runFor_commands`). So two runs on the same readings have the
same log of commands (`runFor_unswayed`).
-/

namespace Lockstep.Synchronizer

variable {φ σ τ : Type}

/-- The commands that a reading calls for: a start where scouting is wanted on a run
with a number, a stop where it is not wanted, and none otherwise. -/
def calls (conditions : Conditions) (reading : Reading) : List Command :=
  match reading.result with
  | .error _ => []
  | .ok snapshot =>
    if conditions.wants snapshot then
      if snapshot.run = 0 then [] else [.start snapshot.run]
    else [.stop]

/-- A reading calls for the one request for what it asks for, if it asks for anything. -/
theorem calls_eq (conditions : Conditions) (reading : Reading) :
    calls conditions reading = ((asks? conditions reading).map request).toList := by
  unfold calls asks? target?
  cases reading.result with
  | error error => rfl
  | ok snapshot =>
    by_cases desired : conditions.wants snapshot = true
    · by_cases absent : snapshot.run = 0
      · simp [desired,absent]
      · simp [desired,absent,request]
    · simp [desired,request]

section
variable {plan : Plan} (feed : Feed φ) (link : Link σ)

/-- In one cycle the ungated policy sends what the reading calls for. -/
theorem step_calls (ungated : plan.resend = .everyCycle) (s : Session φ σ) :
    commands (step plan feed link s).exchanges = calls plan.conditions (feed.poll s.feed).1 := by
  rw [calls_eq]
  cases asked : asks? plan.conditions (feed.poll s.feed).1 with
  | none =>
    obtain ⟨silent,_⟩ := step_silent link asked
    rw [silent]
    rfl
  | some goal =>
    rw [step_requested link ungated asked]
    rfl

/-- The readings alone tell the log of the ungated policy. -/
theorem runFor_commands (ungated : plan.resend = .everyCycle) (n : Nat) (s : Session φ σ) :
    commands (runFor plan feed link n s).exchanges =
      (List.range n).flatMap fun k => calls plan.conditions (feed.reading s.feed k) := by
  obtain ⟨_,exchanges⟩ := runFor_cycles plan feed link n s
  rw [exchanges,commands,List.map_flatMap]
  congr 1
  funext k
  have cycle := step_calls feed link ungated (runFor plan feed link k s).session
  rw [runFor_feed] at cycle
  exact cycle

end

/-- Under the ungated policy let two runs of any length have the same feed, while
their links, what these answer and the states they start in may be any. Both hand
their links the same commands: for each cycle in turn those that its reading calls
for. -/
theorem runFor_unswayed (conditions : Conditions) (delay : Duration) (feed : Feed φ) (polls : φ) (first : Link σ)
    (second : Link τ) (state state' : State) (memory : σ) (memory' : τ) (elapsed elapsed' busy busy' n : Nat) :
    let plan : Plan := ⟨conditions,.everyCycle,delay⟩
    let run := runFor plan feed first n ⟨state,polls,memory,elapsed,busy⟩
    let run' := runFor plan feed second n ⟨state',polls,memory',elapsed',busy'⟩
    let log := commands run.exchanges
    let log' := commands run'.exchanges
    (run.session.link = first.after memory log ∧ run'.session.link = second.after memory' log') ∧
    log = log' ∧ log = (List.range n).flatMap fun k => calls conditions (feed.reading polls k) := by
  intro plan run run' log log'
  have sent : log = (List.range n).flatMap fun k => calls conditions (feed.reading polls k) :=
    runFor_commands feed first rfl n _
  have sent' : log' = (List.range n).flatMap fun k => calls conditions (feed.reading polls k) :=
    runFor_commands feed second rfl n _
  refine ⟨⟨?_,?_⟩,sent.trans sent'.symm,sent⟩
  · exact (runFor_converses plan feed first n _).memory_eq
  · exact (runFor_converses plan feed second n _).memory_eq

end Lockstep.Synchronizer
