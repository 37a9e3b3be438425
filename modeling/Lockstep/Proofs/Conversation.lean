import Lockstep.Proofs.Decision

/-!
# Conversations with the link

Whatever a synchronizer does to its link it does by sending one command after
another, each in the state that the answer before it left. `Conversation` is
that sequence, and `runFor_converses` finds one behind every run. What a single
command preserves holds after every command of a run (`Conversation.keeps`,
`Conversation.around`).
-/

namespace Lockstep

/-- What a link remembers after some commands. -/
def Link.after {σ : Type} (link : Link σ) (memory : σ) : List Command → σ
  | [] => memory
  | c :: cs => link.after (link.send c memory).2 cs

/-- What a link answers to some commands. -/
def Link.answers {σ : Type} (link : Link σ) (memory : σ) : List Command → List (Except LinkError String)
  | [] => []
  | c :: cs => (link.send c memory).1.result :: link.answers (link.send c memory).2 cs

/-- What a feed remembers after some polls. -/
def Feed.after {φ : Type} (feed : Feed φ) (memory : φ) : Nat → φ
  | 0 => memory
  | n + 1 => feed.after (feed.poll memory).2 n

/-- The reading of the poll that comes after some others. -/
def Feed.reading {φ : Type} (feed : Feed φ) (memory : φ) (others : Nat) : Reading :=
  (feed.poll (feed.after memory others)).1

/-- The polls that come after some others are those of the feed as these leave it. -/
theorem Feed.reading_after {φ : Type} (feed : Feed φ) (memory : φ) (m n : Nat) :
    feed.reading memory (m + n) = feed.reading (feed.after memory m) n := by
  induction m generalizing memory with
  | zero => rw [Nat.zero_add]; rfl
  | succ m ih =>
    rw [Nat.add_right_comm]
    exact ih _

theorem Link.after_append {σ : Type} (link : Link σ) (memory : σ) (first second : List Command) :
    link.after memory (first ++ second) = link.after (link.after memory first) second := by
  induction first generalizing memory with
  | nil => rfl
  | cons c cs ih => exact ih _

namespace Synchronizer

variable {φ σ : Type} {link : Link σ} {rule : State → Command → Prop}

/-- The commands of some exchanges. -/
def commands (xs : List Exchange) : List Command := xs.map (·.command)

@[simp] theorem commands_nil : commands [] = [] := rfl
@[simp] theorem commands_cons (x : Exchange) (xs : List Exchange) :
    commands (x :: xs) = x.command :: commands xs := rfl
@[simp] theorem commands_append (xs ys : List Exchange) : commands (xs ++ ys) = commands xs ++ commands ys :=
  List.map_append

/-! ## One command -/

/-- The state after a command with a result. -/
def settle (state : State) (c : Command) : Except LinkError String → State
  | .ok _ => .ofCommand c
  | .error _ => state

theorem send_exchange (link : Link σ) (state : State) (c : Command) (memory : σ) :
    (send link state c memory).exchange =
      ⟨c,(link.send c memory).1.result,state,settle state c (link.send c memory).1.result,
        (link.send c memory).1.took⟩ := by
  unfold send
  cases answer : (link.send c memory).1.result <;> simp [answer,settle]

theorem send_link (link : Link σ) (state : State) (c : Command) (memory : σ) :
    (send link state c memory).link = (link.send c memory).2 := by
  unfold send
  cases answer : (link.send c memory).1.result <;> simp [answer]

@[simp] theorem send_command (link : Link σ) (state : State) (c : Command) (memory : σ) :
    (send link state c memory).exchange.command = c := by
  rw [send_exchange]
@[simp] theorem send_before (link : Link σ) (state : State) (c : Command) (memory : σ) :
    (send link state c memory).exchange.before = state := by
  rw [send_exchange]

/-- Only an acknowledgment changes the state. -/
theorem send_after (link : Link σ) (state : State) (c : Command) (memory : σ) :
    (send link state c memory).exchange.after =
      if (send link state c memory).exchange.isAcknowledged then .ofCommand c else state := by
  rw [send_exchange]
  cases answer : (link.send c memory).1.result <;> simp [Exchange.isAcknowledged,settle]

theorem after_concat (link : Link σ) (memory : σ) (before : List Exchange) (x : Exchange) :
    link.after memory (commands (before ++ [x])) =
      (send link x.before x.command (link.after memory (commands before))).link := by
  rw [commands_append,Link.after_append,send_link]
  rfl

/-! ## Sequences of commands -/

/-- Commands that a rule allows, sent one after another; each finds the state and
the link as the one before it left them. -/
inductive Conversation (link : Link σ) (rule : State → Command → Prop) :
    State → σ → List Exchange → State → σ → Prop
  | silence (state : State) (memory : σ) : Conversation link rule state memory [] state memory
  | command {state final : State} {memory last : σ} {c : Command} {rest : List Exchange}
      (allowed : rule state c)
      (onward : Conversation link rule (send link state c memory).exchange.after
        (send link state c memory).link rest final last) :
      Conversation link rule state memory ((send link state c memory).exchange :: rest) final last

namespace Conversation

variable {state middle final : State} {memory between last : σ} {xs ys : List Exchange}

/-- One command is a conversation. -/
theorem single (link : Link σ) (memory : σ) {c : Command} (allowed : rule state c) :
    Conversation link rule state memory [(send link state c memory).exchange]
      (send link state c memory).exchange.after (send link state c memory).link :=
  .command allowed (.silence _ _)

theorem append (first : Conversation link rule state memory xs middle between)
    (second : Conversation link rule middle between ys final last) :
    Conversation link rule state memory (xs ++ ys) final last := by
  induction first with
  | silence => exact second
  | command allowed _ ih => exact .command allowed (ih second)

theorem split {ys : List Exchange} (talk : Conversation link rule state memory (xs ++ ys) final last) :
    ∃ middle between, Conversation link rule state memory xs middle between ∧
      Conversation link rule middle between ys final last := by
  induction xs generalizing state memory with
  | nil => exact ⟨state,memory,.silence _ _,talk⟩
  | cons x xs ih =>
    cases talk with
    | command allowed onward =>
      obtain ⟨middle,between,first,second⟩ := ih onward
      exact ⟨middle,between,.command allowed first,second⟩

/-- The link ends up with what it remembers after the commands. -/
theorem memory_eq (talk : Conversation link rule state memory xs final last) :
    last = link.after memory (commands xs) := by
  induction talk with
  | silence => rfl
  | command allowed onward ih => rw [ih,commands_cons,send_command,Link.after,send_link]

/-- The results are what the link answers to the commands. -/
theorem results_eq (talk : Conversation link rule state memory xs final last) :
    xs.map (·.result) = link.answers memory (commands xs) := by
  induction talk with
  | silence => rfl
  | @command state _ memory _ c _ allowed onward ih =>
    rw [List.map_cons,ih,commands_cons,send_command,Link.answers,send_link,send_exchange]

/-- A command somewhere in a conversation: the conversation before it, that it was
allowed and how it was sent, and the conversations up to it and after it. -/
structure Around (link : Link σ) (rule : State → Command → Prop) (state : State) (memory : σ)
    (before : List Exchange) (x : Exchange) (rest : List Exchange) (final : State) (last : σ) : Prop where
  earlier : Conversation link rule state memory before x.before (link.after memory (commands before))
  allowed : rule x.before x.command
  sent : x = (send link x.before x.command (link.after memory (commands before))).exchange
  through : Conversation link rule state memory (before ++ [x]) x.after
    (link.after memory (commands (before ++ [x])))
  onward : Conversation link rule x.after (link.after memory (commands (before ++ [x]))) rest final last

theorem around {before rest : List Exchange} {x : Exchange}
    (talk : Conversation link rule state memory (before ++ x :: rest) final last) :
    Around link rule state memory before x rest final last := by
  obtain ⟨middle,between,earlier,later⟩ := talk.split
  have reached := earlier.memory_eq
  cases later with
  | command allowed onward =>
    have one := Conversation.single link between allowed
    have through := earlier.append one
    have passed := through.memory_eq
    rw [passed] at through onward
    refine ⟨?_,?_,?_,through,onward⟩
    · rw [send_before,← reached]; exact earlier
    · rw [send_before,send_command]; exact allowed
    · rw [send_before,send_command,← reached]

/-- An acknowledged command takes effect, any other leaves the state alone. -/
theorem Around.after_eq {before rest : List Exchange} {x : Exchange}
    (here : Around link rule state memory before x rest final last) :
    x.after = if x.isAcknowledged then .ofCommand x.command else x.before := by
  have effect := send_after link x.before x.command (link.after memory (commands before))
  rw [← here.sent] at effect
  exact effect

/-- What every allowed command preserves, a conversation preserves. -/
theorem keeps {kept : State → σ → Prop}
    (step : ∀ state memory c, rule state c → kept state memory →
      kept (send link state c memory).exchange.after (send link state c memory).link)
    (talk : Conversation link rule state memory xs final last) (start : kept state memory) : kept final last := by
  induction talk with
  | silence => exact start
  | command allowed _ ih => exact ih (step _ _ _ allowed start)

end Conversation

/-! ## Cycles and runs -/

/-- A rule allows what a decision may ask for. Where one run makes way for another,
that is the stop and then, with scouting off, the start. -/
def Decision.Allowed (rule : State → Command → Prop) (state : State) : Decision → Prop
  | .rest _ _ => True
  | .command c _ => rule state c
  | .rollOver old new => state = .active old ∧ rule state .stop ∧ rule .idle (.start new)

theorem Decision.Fits.allowed {plan : Plan} {state : State} {decision : Decision} (fits : decision.Fits plan state) :
    decision.Allowed plan.Permits state := by
  cases decision with
  | rest outcome event => trivial
  | command c outcome => exact fits
  | rollOver old new =>
    obtain ⟨rfl,_,_,named⟩ := fits
    exact ⟨rfl,⟨nofun,fun _ => trivial⟩,⟨fun zero => named (Command.start.inj zero),fun _ => trivial⟩⟩

theorem carryOut_converses {state : State} (link : Link σ) (memory : σ) {decision : Decision}
    (allowed : decision.Allowed rule state) :
    Conversation link rule state memory (decision.carryOut link state memory).exchanges
      (decision.carryOut link state memory).state (decision.carryOut link state memory).link := by
  cases decision with
  | rest outcome event => exact .silence state memory
  | command c outcome => exact .single link memory allowed
  | rollOver old new =>
    obtain ⟨rfl,stops,starts⟩ := allowed
    have stopped : Conversation link rule (.active old) memory _ _ _ := .single link memory stops
    unfold Decision.carryOut rollOver
    by_cases acknowledged : (send link (.active old) .stop memory).exchange.isAcknowledged = true
    · simp only [acknowledged,if_true]
      -- The start is sent only once the stop was acknowledged.
      have idle : (send link (.active old) .stop memory).exchange.after = .idle := by
        rw [send_after,if_pos acknowledged]; rfl
      rw [← idle] at starts
      exact stopped.append (.single link _ starts)
    · simp only [acknowledged,Bool.false_eq_true,if_false]
      exact stopped

/-- A step is a conversation under any rule that allows its decision. -/
theorem step_allowed {plan : Plan} (feed : Feed φ) (link : Link σ) (s : Session φ σ)
    (allowed : (plan.decide s.state (feed.poll s.feed).1).Allowed rule s.state) :
    Conversation link rule s.state s.link (step plan feed link s).exchanges
      (step plan feed link s).session.state (step plan feed link s).session.link := by
  rw [step_eq]
  exact carryOut_converses link s.link allowed

theorem step_converses (plan : Plan) (feed : Feed φ) (link : Link σ) (s : Session φ σ) :
    Conversation link plan.Permits s.state s.link (step plan feed link s).exchanges
      (step plan feed link s).session.state (step plan feed link s).session.link :=
  step_allowed feed link s (decide_fits plan s.state (feed.poll s.feed).1).allowed

/-- A run is a conversation under any rule that allows its decisions, whatever state
they are made in. -/
theorem runFor_allowed {plan : Plan} {feed : Feed φ} (link : Link σ) (n : Nat) (s : Session φ σ)
    (allowed : ∀ k < n, ∀ state, (plan.decide state (feed.reading s.feed k)).Allowed rule state) :
    Conversation link rule s.state s.link (runFor plan feed link n s).exchanges
      (runFor plan feed link n s).session.state (runFor plan feed link n s).session.link := by
  induction n generalizing s with
  | zero => exact .silence _ _
  | succ n ih =>
    have first := step_allowed feed link s (allowed 0 (Nat.zero_lt_succ n) s.state)
    exact first.append (ih (wait plan (step plan feed link s).session)
      fun k inside => allowed (k + 1) (Nat.succ_lt_succ inside))

/-- Every run is a conversation in which the plan permits every command. -/
theorem runFor_converses (plan : Plan) (feed : Feed φ) (link : Link σ) (n : Nat) (s : Session φ σ) :
    Conversation link plan.Permits s.state s.link (runFor plan feed link n s).exchanges
      (runFor plan feed link n s).session.state (runFor plan feed link n s).session.link :=
  runFor_allowed link n s fun k _ state => (decide_fits plan state (feed.reading s.feed k)).allowed

/-- A decision all of whose commands are acknowledged leads where it aims. -/
theorem carryOut_state {plan : Plan} {state : State} (link : Link σ) (memory : σ) {decision : Decision}
    (fits : decision.Fits plan state)
    (heard : ∀ x ∈ (decision.carryOut link state memory).exchanges, x.isAcknowledged = true) :
    (decision.carryOut link state memory).state = decision.aim state := by
  cases decision with
  | rest outcome event => rfl
  | command c outcome =>
    have answer := heard (send link state c memory).exchange List.mem_cons_self
    show (send link state c memory).exchange.after = .ofCommand c
    rw [send_after,if_pos answer]
  | rollOver old new =>
    obtain ⟨rfl,_,_,_⟩ := fits
    unfold Decision.carryOut rollOver at heard ⊢
    by_cases acknowledged : (send link (.active old) .stop memory).exchange.isAcknowledged = true
    · simp only [acknowledged,if_true] at heard ⊢
      have answer := heard _ (List.mem_cons_of_mem _ List.mem_cons_self)
      show (send link _ (.start new) _).exchange.after = .active new
      rw [send_after,if_pos answer]; rfl
    · simp only [acknowledged,Bool.false_eq_true,if_false] at heard
      exact absurd (heard _ List.mem_cons_self) acknowledged

/-- A cycle all of whose commands are acknowledged ends in the state that its
reading asks for. -/
theorem step_state {plan : Plan} (feed : Feed φ) (link : Link σ) (s : Session φ σ) {goal : State}
    (asked : asks? plan.conditions (feed.poll s.feed).1 = some goal)
    (heard : ∀ x ∈ (step plan feed link s).exchanges, x.isAcknowledged = true) :
    (step plan feed link s).session.state = goal := by
  rw [step_eq] at heard ⊢
  rw [← (decides plan s.state (feed.poll s.feed).1).aim_eq asked]
  exact carryOut_state link s.link (decide_fits plan s.state _) heard

/-- Under either policy a cycle that reads nothing to act on changes nothing. -/
theorem step_silent {plan : Plan} {feed : Feed φ} {s : Session φ σ} (link : Link σ)
    (asked : asks? plan.conditions (feed.poll s.feed).1 = none) :
    (step plan feed link s).exchanges = [] ∧ (step plan feed link s).session.state = s.state ∧
      (step plan feed link s).session.link = s.link := by
  obtain ⟨outcome,event,rests⟩ := (decides plan s.state (feed.poll s.feed).1).silent asked
  rw [step_eq,rests]
  exact ⟨rfl,rfl,rfl⟩

/-- The ungated policy sends the command that its reading asks for, and no other. -/
theorem step_requested {plan : Plan} {feed : Feed φ} {s : Session φ σ} {goal : State} (link : Link σ)
    (ungated : plan.resend = .everyCycle) (asked : asks? plan.conditions (feed.poll s.feed).1 = some goal) :
    commands (step plan feed link s).exchanges = [request goal] := by
  obtain ⟨outcome,requests⟩ := (decides plan s.state (feed.poll s.feed).1).requests ungated asked
  rw [step_eq,requests]
  show [(send link s.state (request goal) s.link).exchange.command] = [request goal]
  rw [send_command]

theorem Run.append_assoc (a b c : Run φ σ) : (a.append b).append c = a.append (b.append c) := by
  simp only [Run.append,List.append_assoc]

/-- A run goes on where a shorter one ended. -/
theorem runFor_add (plan : Plan) (feed : Feed φ) (link : Link σ) (m n : Nat) (s : Session φ σ) :
    runFor plan feed link (m + n) s =
      (runFor plan feed link m s).append (runFor plan feed link n (runFor plan feed link m s).session) := by
  induction m generalizing s with
  | zero => rw [Nat.zero_add]; rfl
  | succ m ih =>
    rw [Nat.add_right_comm,runFor,ih,← Run.append_assoc]
    rfl

/-- The commands of a run begin with those of a shorter one. -/
theorem prefix_runFor (plan : Plan) (feed : Feed φ) (link : Link σ) {k n : Nat} (inside : k ≤ n) (s : Session φ σ) :
    (runFor plan feed link k s).exchanges <+: (runFor plan feed link n s).exchanges := by
  rw [← Nat.add_sub_cancel' inside,runFor_add]
  exact List.prefix_append _ _

/-- The last cycle of a run comes after all the others. -/
theorem runFor_succ (plan : Plan) (feed : Feed φ) (link : Link σ) (n : Nat) (s : Session φ σ) :
    (runFor plan feed link (n + 1) s).session =
      wait plan (step plan feed link (runFor plan feed link n s).session).session := by
  induction n generalizing s with
  | zero => rfl
  | succ n ih => exact ih _

/-- A run is its cycles, one after another. -/
theorem runFor_cycles (plan : Plan) (feed : Feed φ) (link : Link σ) (n : Nat) (s : Session φ σ) :
    let cycle := fun k => step plan feed link (runFor plan feed link k s).session
    (runFor plan feed link n s).outcomes = (List.range n).flatMap (fun k => (cycle k).outcomes) ∧
      (runFor plan feed link n s).exchanges = (List.range n).flatMap (fun k => (cycle k).exchanges) := by
  intro cycle
  induction n with
  | zero => exact ⟨rfl,rfl⟩
  | succ n ih =>
    obtain ⟨outcomes,exchanges⟩ := ih
    have last : runFor plan feed link 1 (runFor plan feed link n s).session =
        (cycle n).append (.nothing (wait plan (cycle n).session)) := rfl
    simp only [runFor_add plan feed link n 1,last,Run.append,Run.nothing,List.append_nil,List.range_succ,
      List.flatMap_append,List.flatMap_singleton,outcomes,exchanges,and_self]

/-- A run polls the feed once a cycle. -/
theorem runFor_feed (plan : Plan) (feed : Feed φ) (link : Link σ) (n : Nat) (s : Session φ σ) :
    (runFor plan feed link n s).session.feed = feed.after s.feed n := by
  induction n generalizing s with
  | zero => rfl
  | succ n ih => exact ih _

end Synchronizer

end Lockstep
