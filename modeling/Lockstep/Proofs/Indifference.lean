import Lockstep.Proofs.Conversation
import Lockstep.Scripted
import Lockstep.Settings

/-!
# What a run does not depend on

Beam modes and DAQ states are compared as words: the blanks around them and the
case of their ASCII letters count for nothing, neither in a snapshot nor in an
allow-list, and of an allow-list only the words count. Of a snapshot in which
scouting is not wanted the run does not count, and of a poll that failed nothing
does. `runFor_indifferent` says so for two runs of any length, under either policy
and over any link.
-/

namespace Lockstep

/-! ## Words -/

/-- Two words that differ at most in the blanks around them and in the case of
ASCII letters. -/
def SameWord (word other : String) : Prop :=
  (Text.trim word.toList).map Char.toLower = (Text.trim other.toList).map Char.toLower

instance (word other : String) : Decidable (SameWord word other) := inferInstanceAs (Decidable (_ = _))

/-- A letter and its lower case have the same upper case, if the letter is of ASCII;
no other character has a lower case here. -/
theorem upper_toLower (c : Char) : Text.upper c.toLower = Text.upper c := by
  by_cases ascii : c.toNat < 128
  · have folds : ∀ n < 128, Text.upper (Char.ofNat n).toLower = Text.upper (Char.ofNat n) := by decide +kernel
    rw [← Char.ofNat_toNat c]
    exact folds c.toNat ascii
  · have small : ¬ (c.val ≥ 'A'.val ∧ c.val ≤ 'Z'.val) := by
      rintro ⟨_,last⟩
      exact ascii (Nat.lt_of_le_of_lt (UInt32.le_iff_toNat_le.mp last) (by decide))
    have same : c.toLower = c := dif_neg small
    rw [same]

theorem uppercase_toLower (cs : List Char) : Text.uppercase (cs.map Char.toLower) = Text.uppercase cs := by
  simp only [Text.uppercase,List.flatMap_map,upper_toLower]

theorem SameWord.normalForm_eq {word other : String} (same : SameWord word other) :
    normalForm word = normalForm other := by
  unfold normalForm
  rw [← uppercase_toLower (Text.trim word.toList),same,uppercase_toLower]

/-- Two lists with the same words, in any order, spelled in any way and as often as
one likes. -/
structure SameWords (entries others : List String) : Prop where
  kept : ∀ entry ∈ entries, ∃ other ∈ others, SameWord entry other
  added : ∀ other ∈ others, ∃ entry ∈ entries, SameWord entry other

/-- Lists with the same words allow the same words, however these are spelled. -/
theorem contains_congr {entries others : List String} {word other : String} (words : SameWords entries others)
    (same : SameWord word other) : (AllowList.ofList entries).contains word = (AllowList.ofList others).contains other := by
  rw [Bool.eq_iff_iff,AllowList.contains_ofList,AllowList.contains_ofList,← same.normalForm_eq]
  constructor
  · rintro ⟨entry,among,alike⟩
    obtain ⟨o,found,said⟩ := words.kept entry among
    exact ⟨o,found,said.normalForm_eq.symm.trans alike⟩
  · rintro ⟨o,among,alike⟩
    obtain ⟨entry,found,said⟩ := words.added o among
    exact ⟨entry,found,said.normalForm_eq.trans alike⟩

/-! ## Snapshots and polls -/

/-- Two snapshots that differ in nothing that counts: in how their words are spelled,
and in the run where scouting is not wanted. -/
structure Conditions.Confuses (c : Conditions) (snapshot other : Snapshot) : Prop where
  beamMode : SameWord snapshot.beamMode other.beamMode
  daqState : SameWord snapshot.daqState other.daqState
  run : c.wants snapshot = true → snapshot.run = other.run

/-- Two polls that failed, for whatever reasons, or that found such snapshots. -/
inductive Conditions.Alike (c : Conditions) : Except FeedError Snapshot → Except FeedError Snapshot → Prop
  | failed (error other : FeedError) : c.Alike (.error error) (.error other)
  | read {snapshot other : Snapshot} (same : c.Confuses snapshot other) : c.Alike (.ok snapshot) (.ok other)

namespace Synchronizer

variable {φ ψ σ : Type}

/-- Two settings with the same words in their allow-lists. -/
structure Rewords (s t : Settings.Sync) : Prop where
  resend : s.resend = t.resend
  beamModes : SameWords s.beamModes t.beamModes
  daqStates : SameWords s.daqStates t.daqStates

theorem Rewords.wants_eq {s t : Settings.Sync} (rewords : Rewords s t) {c : Conditions} {snapshot other : Snapshot}
    (same : c.Confuses snapshot other) : s.conditions.wants snapshot = t.conditions.wants other := by
  have beamMode := contains_congr rewords.beamModes same.beamMode
  have daqState := contains_congr rewords.daqStates same.daqState
  simp only [Conditions.wants,Settings.Sync.conditions,beamMode,daqState]

/-! ## Decisions -/

/-- Two decisions that differ at most in what the log is told. -/
inductive Decision.Alike : Decision → Decision → Prop
  | rest (outcome : Outcome) (event other : Event) : Decision.Alike (.rest outcome event) (.rest outcome other)
  | same (decision : Decision) : decision.Alike decision

theorem decide_alike {s t : Settings.Sync} (rewords : Rewords s t) (state : State) {reading other : Reading}
    (alike : s.conditions.Alike reading.result other.result) :
    ((Plan.ofSettings s).decide state reading).Alike ((Plan.ofSettings t).decide state other) := by
  unfold Plan.decide
  generalize reading.result = result,other.result = answer at alike
  cases alike with
  | failed error error' => exact .rest _ _ _
  | @read snapshot snapshot' same =>
    show Decision.Alike (if s.conditions.wants snapshot then _ else _) (if t.conditions.wants snapshot' then _ else _)
    rw [← rewords.wants_eq same]
    have policy : (Plan.ofSettings t).resend = (Plan.ofSettings s).resend := rewords.resend.symm
    by_cases wanted : s.conditions.wants snapshot = true
    · rw [if_pos wanted,if_pos wanted,policy,← same.run wanted]
      exact .same _
    · rw [if_neg wanted,if_neg wanted,policy]
      exact .same _

theorem Decision.Alike.carryOut {decision other : Decision} (alike : decision.Alike other) (link : Link σ)
    (state : State) (memory : σ) :
    ∃ events, other.carryOut link state memory = { decision.carryOut link state memory with events := events } := by
  cases alike with
  | rest outcome event told => exact ⟨[told],rfl⟩
  | same => exact ⟨_,rfl⟩

/-! ## Runs -/

/-- Two runs with the same outcomes, commands and answers, that leave the same state
and the same link. -/
structure Run.Same (r : Run φ σ) (t : Run ψ σ) : Prop where
  outcomes : r.outcomes = t.outcomes
  exchanges : r.exchanges = t.exchanges
  state : r.session.state = t.session.state
  link : r.session.link = t.session.link

theorem step_same {s t : Settings.Sync} (rewords : Rewords s t) {feed : Feed φ} {other : Feed ψ} (link : Link σ)
    {one : Session φ σ} {two : Session ψ σ} (state : one.state = two.state) (memory : one.link = two.link)
    (alike : s.conditions.Alike (feed.poll one.feed).1.result (other.poll two.feed).1.result) :
    (step (.ofSettings s) feed link one).Same (step (.ofSettings t) other link two) := by
  obtain ⟨events,done⟩ := (decide_alike rewords one.state alike).carryOut link one.state one.link
  rw [step_eq,step_eq,← state,← memory,done]
  exact ⟨rfl,rfl,rfl,rfl⟩

theorem runFor_same {s t : Settings.Sync} (rewords : Rewords s t) {feed : Feed φ} {other : Feed ψ} (link : Link σ)
    (n : Nat) {one : Session φ σ} {two : Session ψ σ} (state : one.state = two.state) (memory : one.link = two.link)
    (alike : ∀ k < n, s.conditions.Alike (feed.reading one.feed k).result (other.reading two.feed k).result) :
    (runFor (.ofSettings s) feed link n one).Same (runFor (.ofSettings t) other link n two) := by
  induction n generalizing one two with
  | zero => exact ⟨rfl,rfl,state,memory⟩
  | succ n ih =>
    have first := step_same rewords link state memory (alike 0 (Nat.zero_lt_succ n))
    have later := @ih (wait (.ofSettings s) (step (.ofSettings s) feed link one).session)
      (wait (.ofSettings t) (step (.ofSettings t) other link two).session) first.state first.link
      fun k inside => alike (k + 1) (Nat.succ_lt_succ inside)
    refine ⟨?_,?_,later.state,later.link⟩
    · simp only [runFor,Run.append,first.outcomes,later.outcomes]
    · simp only [runFor,Run.append,first.exchanges,later.exchanges]

/-- Two runs over the same link, under the same policy, whose allow-lists have the
same words and whose polls are alike one by one: as many cycles of one as of the
other have the same outcomes, send the same commands, get the same answers and end
in the same state. -/
theorem runFor_indifferent (s t : Settings.Sync) (feed : Feed φ) (other : Feed ψ) (link : Link σ) (polls : φ)
    (others : ψ) (memory : σ) (n : Nat) (rewords : Rewords s t)
    (alike : ∀ k < n, s.conditions.Alike (feed.reading polls k).result (other.reading others k).result) :
    ∀ k ≤ n, (runFor (.ofSettings s) feed link k (.new polls memory)).Same
      (runFor (.ofSettings t) other link k (.new others memory)) := by
  intro k within
  exact runFor_same rewords link k rfl rfl fun j inside => alike j (Nat.lt_of_lt_of_le inside within)

/-- The runs of two facilities that agree in nothing but what counts: the beam mode is
padded and the DAQ state lower-case in one, the undesired snapshot has another run, and
the allow-lists are spelled and ordered in different ways. -/
theorem respelled_run_is_same :
    let s : Settings.Sync := { beamModes := ["STABLE BEAMS","adjust"], daqStates := ["RUNNING"] }
    let t : Settings.Sync := { beamModes := ["Adjust"," stable beams\t","ADJUST"], daqStates := ["running"] }
    let entries := [none,some ⟨5,"STABLE BEAMS","RUNNING"⟩,some ⟨5,"RAMP","RUNNING"⟩,some ⟨6,"adjust","Running"⟩]
    let others := [none,some ⟨5,"\u00a0Stable Beams ","running"⟩,some ⟨9,"ramp ","RUNNING"⟩,some ⟨6,"ADJUST","running"⟩]
    let replies : Scripted.Script := .ofReplies [.unreachable,.ack]
    let one := runFor (.ofSettings s) Scripted.feed (Scripted.link .ack) 4 (.new (.ofEntries entries) replies)
    let two := runFor (.ofSettings t) Scripted.feed (Scripted.link .ack) 4 (.new (.ofEntries others) replies)
    one.outcomes = [.pollFailed,.commandFailed (.start 5),.steady,.started 6] ∧ one.Same two := by
  intro s t entries others replies one two
  refine ⟨by decide +kernel,?_⟩
  have rewords : Rewords s t := ⟨rfl,⟨by decide +kernel,by decide +kernel⟩,⟨by decide +kernel,by decide +kernel⟩⟩
  refine runFor_indifferent s t Scripted.feed Scripted.feed (Scripted.link .ack) (.ofEntries entries)
    (.ofEntries others) replies 4 rewords (fun k inside => ?_) 4 (Nat.le_refl 4)
  match k,inside with
  | 0,_ => exact .failed _ _
  | 1,_ => exact .read ⟨by decide +kernel,by decide +kernel,fun _ => rfl⟩
  | 2,_ => exact .read ⟨by decide +kernel,by decide +kernel,fun desired => absurd desired (by decide +kernel)⟩
  | 3,_ => exact .read ⟨by decide +kernel,by decide +kernel,fun _ => rfl⟩

end Synchronizer

end Lockstep
