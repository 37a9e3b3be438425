import Lockstep.Proofs.Conversation

/-!
# The command log

The state of a synchronizer is what its log says: the effect of the last
acknowledged command (`Conversation.final_eq`). Under the gated policy every
command is legal where it is sent, so the acknowledged ones alternate.
-/

namespace Lockstep.Synchronizer

variable {φ σ : Type} {link : Link σ} {rule : State → Command → Prop}

/-- The commands of a log that were acknowledged. -/
def acknowledged (xs : List Exchange) : List Command := commands (xs.filter (·.isAcknowledged))

/-- The state that a log confirms: the effect of the last acknowledged command,
scouting being off where nothing was acknowledged. -/
def confirmed (xs : List Exchange) : State :=
  match (acknowledged xs).getLast? with
  | some (.start run) => .active run
  | some .stop => .idle
  | none => .idle

/-- The commands alternate, the first one being a start. -/
def Alternating (cs : List Command) : Prop := ∀ i c, cs[i]? = some c → (c = .stop ↔ i % 2 = 1)

theorem acknowledged_cons (x : Exchange) (xs : List Exchange) :
    acknowledged (x :: xs) = if x.isAcknowledged then x.command :: acknowledged xs else acknowledged xs := by
  by_cases answer : x.isAcknowledged = true
  · simp [acknowledged,answer]
  · simp [acknowledged,answer]

/-! ## The state -/

/-- The effect of the last acknowledged command on a state. -/
private def effect (state : State) (xs : List Exchange) : State :=
  ((acknowledged xs).getLast?.map State.ofCommand).getD state

private theorem effect_idle (xs : List Exchange) : effect .idle xs = confirmed xs := by
  unfold effect confirmed
  cases (acknowledged xs).getLast? with
  | none => rfl
  | some c => cases c <;> rfl

private theorem Conversation.state_eq {state final : State} {memory last : σ} {xs : List Exchange}
    (talk : Conversation link rule state memory xs final last) : final = effect state xs := by
  induction talk with
  | silence => rfl
  | @command state _ memory _ c rest allowed onward ih =>
    rw [ih,send_after]
    unfold effect
    rw [acknowledged_cons,send_command]
    by_cases answer : (send link state c memory).exchange.isAcknowledged = true
    · rw [if_pos answer,if_pos answer,List.getLast?_cons]
      cases (acknowledged rest).getLast? <;> rfl
    · rw [if_neg answer,if_neg answer]

/-- A conversation that begins with scouting off ends in the state that its log
confirms. -/
theorem Conversation.final_eq {final : State} {memory last : σ} {xs : List Exchange}
    (talk : Conversation link rule .idle memory xs final last) : final = confirmed xs := by
  rw [talk.state_eq,effect_idle]

/-- Around every command the state is what the log up to there confirms. -/
theorem Conversation.around_command {final : State} {memory last : σ} {before rest : List Exchange} {x : Exchange}
    (talk : Conversation link rule .idle memory (before ++ x :: rest) final last) :
    x.before = confirmed before ∧ x.after = confirmed (before ++ [x]) := by
  have here := talk.around
  exact ⟨here.earlier.final_eq,here.through.final_eq⟩

/-- Every run that a state is on has a number. -/
private def Numbered : State → Prop
  | .idle => True
  | .active run => run ≠ 0

private theorem active_iff {state : State} (numbered : Numbered state) : state.isActive = true ↔ 0 < state.run := by
  cases state with
  | idle => simp [State.isActive,State.run]
  | active run => simpa [State.isActive,State.run,UInt64.pos_iff_ne_zero,Numbered] using numbered

private theorem send_numbered {plan : Plan} (state : State) (memory : σ) (c : Command)
    (allowed : plan.Permits state c) (numbered : Numbered state) :
    Numbered (send link state c memory).exchange.after := by
  rw [send_after]
  split
  · cases c with
    | start run => exact fun zero => allowed.named (congrArg Command.start zero)
    | stop => trivial
  · exact numbered

/-- Whatever the feed reads and the link answers, after every command and every
cycle of a new synchronizer the state is the effect of the last command that the
link acknowledged. No start is sent without a run, so scouting is on exactly
where its run has a number. -/
theorem runFor_state (plan : Plan) (feed : Feed φ) (link : Link σ) (polls : φ) (memory : σ) (n : Nat) :
    let run := runFor plan feed link n (.new polls memory)
    (run.exchanges.map (·.result) = link.answers memory (commands run.exchanges) ∧
      run.session.link = link.after memory (commands run.exchanges)) ∧
    run.session.state = confirmed run.exchanges ∧
    (∀ before x rest, run.exchanges = before ++ x :: rest →
      x.before = confirmed before ∧ x.after = confirmed (before ++ [x])) ∧
    (∀ x ∈ run.exchanges, x.command ≠ .start 0) ∧
    (run.session.state.isActive = true ↔ 0 < run.session.state.run) ∧
    ∀ x ∈ run.exchanges, x.after.isActive = true ↔ 0 < x.after.run := by
  intro run
  have talk : Conversation link plan.Permits .idle memory run.exchanges run.session.state run.session.link :=
    runFor_converses plan feed link n (.new polls memory)
  have numbered {xs : List Exchange} {state : State} {last : σ}
      (talk : Conversation link plan.Permits .idle memory xs state last) : Numbered state :=
    talk.keeps (fun state memory c allowed => send_numbered state memory c allowed) trivial
  refine ⟨⟨talk.results_eq,talk.memory_eq⟩,talk.final_eq,?_,?_,active_iff (numbered talk),?_⟩
  · intro before x rest here
    rw [here] at talk
    exact talk.around_command
  · intro x sent
    obtain ⟨before,rest,here⟩ := List.append_of_mem sent
    rw [here] at talk
    exact talk.around.allowed.named
  · intro x sent
    obtain ⟨before,rest,here⟩ := List.append_of_mem sent
    rw [here] at talk
    exact active_iff (numbered talk.around.through)

/-! ## Alternation -/

/-- How many commands of an alternating list a state is past. -/
private def phase : State → Nat
  | .idle => 0
  | .active _ => 1

private theorem legal_iff {state : State} {c : Command} (legal : Legal state c) : c = .stop ↔ phase state = 1 := by
  cases state with
  | idle =>
    cases c with
    | start run => simp [phase]
    | stop => exact legal.elim
  | active current =>
    cases c with
    | start run => exact legal.elim
    | stop => simp [phase]

private theorem phase_ofCommand {state : State} {c : Command} (legal : Legal state c) :
    phase (.ofCommand c) + phase state = 1 := by
  cases state with
  | idle =>
    cases c with
    | start run => rfl
    | stop => exact legal.elim
  | active current =>
    cases c with
    | start run => exact legal.elim
    | stop => rfl

/-- Acknowledged commands that are legal where they are sent alternate, from the
state on in which the first of them is sent. -/
private theorem Conversation.alternates {state final : State} {memory last : σ} {xs : List Exchange}
    (lawful : ∀ state c, rule state c → Legal state c)
    (talk : Conversation link rule state memory xs final last) :
    ∀ i c, (acknowledged xs)[i]? = some c → (c = .stop ↔ (i + phase state) % 2 = 1) := by
  induction talk with
  | silence => intro i c found; simp [acknowledged] at found
  | @command state _ memory _ c rest allowed onward ih =>
    have legal := lawful state c allowed
    rw [send_after] at ih
    rw [acknowledged_cons,send_command]
    by_cases answer : (send link state c memory).exchange.isAcknowledged = true
    · rw [if_pos answer] at ih ⊢
      intro i d found
      have flipped := phase_ofCommand legal
      cases i with
      | zero =>
        obtain rfl : c = d := by simpa using found
        rw [legal_iff legal]
        omega
      | succ i =>
        rw [ih i d (by simpa using found)]
        omega
    · rw [if_neg answer] at ih ⊢
      exact ih

/-- Scouting ends only by an acknowledged stop. -/
private theorem Conversation.exists_stop {run : Lockstep.Run} {memory last : σ} {xs : List Exchange}
    (talk : Conversation link rule (.active run) memory xs .idle last) :
    ∃ z ∈ xs, z.isAcknowledged = true ∧ z.command = .stop := by
  have ended := talk.state_eq
  unfold effect at ended
  cases found : (acknowledged xs).getLast? with
  | none => simp [found] at ended
  | some c =>
    cases c with
    | start run => simp [found,State.ofCommand] at ended
    | stop =>
      have member : Command.stop ∈ acknowledged xs := List.mem_of_getLast? found
      obtain ⟨z,kept,stops⟩ := List.mem_map.mp member
      exact ⟨z,(List.mem_filter.mp kept).1,(List.mem_filter.mp kept).2,stops⟩

/-- Under the gated policy, whatever the feed reads and the link answers, every
command is legal in the state in which it is sent. The acknowledged commands
alternate, a start coming first, and after a start that was acknowledged no other
is even sent before a stop is acknowledged. -/
theorem runFor_alternates (conditions : Conditions) (delay : Duration) (feed : Feed φ) (link : Link σ) (polls : φ)
    (memory : σ) (n : Nat) :
    let run := runFor ⟨conditions,.onTransition,delay⟩ feed link n (.new polls memory)
    run.session.link = link.after memory (commands run.exchanges) ∧
    (∀ before x rest, run.exchanges = before ++ x :: rest →
      x.before = confirmed before ∧ Legal x.before x.command) ∧
    Alternating (acknowledged run.exchanges) ∧
    ∀ before x between y rest, run.exchanges = before ++ x :: between ++ y :: rest →
      x.isAcknowledged = true → (∃ r, x.command = .start r) → (∃ r, y.command = .start r) →
      ∃ z ∈ between, z.isAcknowledged = true ∧ z.command = .stop := by
  intro run
  have talk := runFor_converses ⟨conditions,.onTransition,delay⟩ feed link n (.new polls memory)
  have lawful : ∀ state c, Plan.Permits ⟨conditions,.onTransition,delay⟩ state c → Legal state c :=
    fun _ _ allowed => allowed.legal rfl
  refine ⟨talk.memory_eq,?_,talk.alternates lawful,?_⟩
  · intro before x rest here
    change run.exchanges = _ at here
    rw [here] at talk
    exact ⟨talk.around_command.1,lawful _ _ talk.around.allowed⟩
  · rintro before x between y rest here started ⟨first,isFirst⟩ ⟨second,isSecond⟩
    rw [here] at talk
    have atSecond := talk.around
    have idle : y.before = .idle := by
      have legal := lawful _ _ atSecond.allowed
      rw [isSecond] at legal
      cases y with
      | mk c result state after =>
        cases state with
        | idle => rfl
        | active current => exact legal.elim
    have atFirst := atSecond.earlier.around
    have active : x.after = .active first := by
      rw [atFirst.after_eq,if_pos started,isFirst]; rfl
    have meanwhile := atFirst.onward
    rw [active,idle] at meanwhile
    exact meanwhile.exists_stop

end Lockstep.Synchronizer
