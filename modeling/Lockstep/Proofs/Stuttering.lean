import Lockstep.Proofs.Account
import Lockstep.Proofs.Agreement
import Lockstep.Scripted

/-!
# Cycles that do nothing

A cycle with a quiet outcome leaves the state and the link as they were, so it could
as well not have been. Taking such entries out of what a feed reads, or putting
failed polls and snapshots without a run in, changes nothing that the other cycles
do (`runFor_thins`).
-/

namespace Lockstep

/-- The results of the first polls of a feed. -/
def Feed.results {φ : Type} (feed : Feed φ) (memory : φ) : Nat → List (Except FeedError Snapshot)
  | 0 => []
  | n + 1 => (feed.poll memory).1.result :: feed.results (feed.poll memory).2 n

/-- The entries of a list that are marked to stay. -/
def retained {α : Type} (keep : List Bool) (xs : List α) : List α := ((keep.zip xs).filter (·.1)).map (·.2)

theorem retained_true {α : Type} (keep : List Bool) (x : α) (xs : List α) :
    retained (true :: keep) (x :: xs) = x :: retained keep xs := rfl

theorem retained_false {α : Type} (keep : List Bool) (x : α) (xs : List α) :
    retained (false :: keep) (x :: xs) = retained keep xs := rfl

/-- A poll brings nothing to act on: it fails, or scouting is wanted and no run is
named. Either has its outcome. -/
inductive Conditions.Void (conditions : Conditions) : Except FeedError Snapshot → Outcome → Prop
  | failed (error : FeedError) : conditions.Void (.error error) .pollFailed
  | unnamed {s : Snapshot} (desired : conditions.wants s = true) (absent : s.run = 0) :
      conditions.Void (.ok s) .missingRun

theorem Conditions.Void.quiet {conditions : Conditions} {result : Except FeedError Snapshot} {o : Outcome}
    (void : conditions.Void result o) : o.Quiet := by
  cases void with
  | failed => exact .inl rfl
  | unnamed => exact .inr (.inl rfl)

namespace Synchronizer

variable {φ ψ σ : Type}

/-- One run does what another does in the cycles that are marked to stay, and
nothing else. -/
structure Run.Thinned (keep : List Bool) (whole : Run φ σ) (thin : Run ψ σ) : Prop where
  outcomes : thin.outcomes = retained keep whole.outcomes
  exchanges : thin.exchanges = whole.exchanges
  state : thin.session.state = whole.session.state
  link : thin.session.link = whole.session.link

section
variable {plan : Plan} {feed : Feed φ} {other : Feed ψ} {link : Link σ} {s : Session φ σ} {t : Session ψ σ}

/-- Of the feed a cycle sees nothing but the result of its poll. -/
theorem step_congr (plan : Plan) (link : Link σ)
    (read : (other.poll t.feed).1.result = (feed.poll s.feed).1.result) (state : t.state = s.state)
    (memory : t.link = s.link) : (step plan feed link s).Thinned [true] (step plan other link t) := by
  rw [step_eq,step_eq,state,memory,decide_congr plan s.state read]
  exact ⟨rfl,rfl,rfl,rfl⟩

/-- A poll that brings nothing to act on has its outcome. -/
theorem step_void {o : Outcome} (void : plan.conditions.Void (feed.poll s.feed).1.result o) :
    (step plan feed link s).outcomes = [o] := by
  rw [step_eq]
  generalize read : (feed.poll s.feed).1.result = result at void
  cases void with
  | failed error =>
    rw [Plan.decide,read]
    rfl
  | unnamed desired absent =>
    rw [Plan.decide,read]
    simp only [desired,absent,if_true]
    rfl

/-- Induction on the marks: where the cycles that are not marked to stay have quiet
outcomes, the run without their readings is thinned out. -/
theorem thinned (keep : List Bool) (m : Nat)
    (fewer : other.results t.feed m = retained keep (feed.results s.feed keep.length)) (state : t.state = s.state)
    (memory : t.link = s.link)
    (quiet : ∀ k : Nat, keep[k]? = some false →
      ∃ o : Outcome, (runFor plan feed link keep.length s).outcomes[k]? = some o ∧ o.Quiet) :
    (runFor plan feed link keep.length s).Thinned keep (runFor plan other link m t) := by
  induction keep generalizing s t m with
  | nil =>
    cases m with
    | zero => exact ⟨rfl,rfl,state,memory⟩
    | succ m => cases fewer
  | cons kept keep ih =>
    obtain ⟨o,told⟩ := step_told plan feed link s
    have split := told.outcomes_succ keep.length
    have later : ∀ k : Nat, keep[k]? = some false →
        ∃ o : Outcome, (runFor plan feed link keep.length (wait plan (step plan feed link s).session)).outcomes[k]? =
          some o ∧ o.Quiet := by
      intro k dropped
      have found := quiet (k + 1) dropped
      rw [List.length_cons,split] at found
      exact found
    cases kept with
    | true =>
      cases m with
      | zero => cases fewer
      | succ m =>
        obtain ⟨read,others⟩ := List.cons.inj fewer
        have now := step_congr plan link read state memory
        have rest := ih (s := wait plan (step plan feed link s).session)
          (t := wait plan (step plan other link t).session) m others now.state now.link later
        refine ⟨?_,?_,rest.state,rest.link⟩
        · rw [List.length_cons,split,retained_true,← rest.outcomes]
          simp only [runFor,Run.append,now.outcomes,told.outcome]
          rfl
        · simp only [List.length_cons,runFor,Run.append,now.exchanges,rest.exchanges]
    | false =>
      obtain ⟨o',here,still⟩ := quiet 0 rfl
      rw [List.length_cons,split] at here
      obtain rfl : o = o' := Option.some.inj here
      obtain ⟨silent,unchanged,untouched⟩ := told.rests still
      have rest := ih (s := wait plan (step plan feed link s).session) m fewer (state.trans unchanged.symm)
        (memory.trans untouched.symm) later
      refine ⟨?_,?_,rest.state,rest.link⟩
      · rw [List.length_cons,split,retained_false]
        exact rest.outcomes
      · rw [rest.exchanges]
        simp only [List.length_cons,runFor,Run.append,silent,List.nil_append]

end

/-- Two runs that differ in their feeds only: of the readings of one, the other gets
those that are marked to stay. Whatever the link answers, if every reading that was
taken out belonged to a cycle with a quiet outcome, the shorter run sends the same
commands and gets the same answers, and has the outcomes that stay, the same last
state and the same link. So it is whenever only failed polls and snapshots without
a run were put in, and these have their own outcomes there. -/
theorem runFor_thins (plan : Plan) (feed : Feed φ) (other : Feed ψ) (link : Link σ) (polls : φ) (fewer : ψ)
    (memory : σ) (keep : List Bool) (m : Nat)
    (readings : other.results fewer m = retained keep (feed.results polls keep.length)) :
    let whole := runFor plan feed link keep.length (.new polls memory)
    let thin := runFor plan other link m (.new fewer memory)
    ((∀ k : Nat, keep[k]? = some false → ∃ o : Outcome, whole.outcomes[k]? = some o ∧ o.Quiet) → whole.Thinned keep thin) ∧
    ((∀ k : Nat, keep[k]? = some false → ∃ o, plan.conditions.Void (feed.reading polls k).result o) →
      whole.Thinned keep thin ∧
      ∀ (k : Nat) (o : Outcome), keep[k]? = some false → plan.conditions.Void (feed.reading polls k).result o →
        whole.outcomes[k]? = some o) := by
  intro whole thin
  have deleted : (∀ k : Nat, keep[k]? = some false → ∃ o : Outcome, whole.outcomes[k]? = some o ∧ o.Quiet) →
      whole.Thinned keep thin := thinned keep m readings rfl rfl
  refine ⟨deleted,fun void => ?_⟩
  have told : ∀ (k : Nat) (o : Outcome), keep[k]? = some false → plan.conditions.Void (feed.reading polls k).result o →
      whole.outcomes[k]? = some o := by
    intro k o dropped brings
    obtain ⟨inside,_⟩ := List.getElem?_eq_some_iff.mp dropped
    obtain ⟨o',found,told⟩ := told_at plan feed link inside (.new polls memory)
    have brought : (step plan feed link (runFor plan feed link k (.new polls memory)).session).outcomes = [o] := by
      apply step_void
      rw [runFor_feed]
      exact brings
    obtain rfl : o' = o := List.singleton_inj.mp (told.outcome.symm.trans brought)
    exact found
  refine ⟨deleted ?_,told⟩
  intro k dropped
  obtain ⟨o,brings⟩ := void k dropped
  exact ⟨o,told k o dropped brings,brings.quiet⟩

/-- Nobody is there for the first start, and a start after a stop is refused. Without
its quiet cycles the run is four cycles long, and each answer of the script still
meets the same command. -/
theorem hampered_run_thins :
    let plan := Peer.stableBeams .onTransition
    let five := some Peer.runFive
    let six := some { Peer.runFive with run := 6 }
    let unnamed := some { Peer.runFive with run := 0 }
    let replies : Scripted.Script := .ofReplies [.unreachable,.ack,.ack,.text "ignored"]
    let whole := runFor plan Scripted.feed (Scripted.link .ack) 7
      (.new (.ofEntries [none,five,unnamed,five,five,six,six]) replies)
    let thin := runFor plan Scripted.feed (Scripted.link .ack) 4 (.new (.ofEntries [five,five,six,six]) replies)
    whole.outcomes = [.pollFailed,.commandFailed (.start 5),.missingRun,.started 5,.steady,.commandFailed (.start 6),
      .started 6] ∧
    thin.outcomes = [.commandFailed (.start 5),.started 5,.commandFailed (.start 6),.started 6] ∧
    commands thin.exchanges = [.start 5,.start 5,.stop,.start 6,.start 6] ∧
    thin.session.state = .active 6 ∧ thin.session.link = whole.session.link := by
  intro plan five six unnamed replies whole thin
  have outcomes : whole.outcomes = [.pollFailed,.commandFailed (.start 5),.missingRun,.started 5,.steady,
      .commandFailed (.start 6),.started 6] := by decide +kernel
  have quiet : ∀ k : Nat, [false,true,false,true,false,true,true][k]? = some false →
      ∃ o : Outcome, whole.outcomes[k]? = some o ∧ o.Quiet := by
    intro k dropped
    rw [outcomes]
    match k,dropped with
    | 0,_ => exact ⟨_,rfl,.inl rfl⟩
    | 2,_ => exact ⟨_,rfl,.inr (.inl rfl)⟩
    | 4,_ => exact ⟨_,rfl,.inr (.inr rfl)⟩
    | k + 7,beyond => cases beyond
  obtain ⟨left,sent,state,link⟩ := (runFor_thins plan Scripted.feed Scripted.feed (Scripted.link .ack)
    (.ofEntries [none,five,unnamed,five,five,six,six]) (.ofEntries [five,five,six,six]) replies
    [false,true,false,true,false,true,true] 4 rfl).1 quiet
  change thin.outcomes = retained _ whole.outcomes at left
  change thin.exchanges = whole.exchanges at sent
  refine ⟨outcomes,?_,?_,state.trans (by decide +kernel),link⟩
  · rw [left,outcomes]
    rfl
  · rw [sent]
    decide +kernel

end Synchronizer

end Lockstep
