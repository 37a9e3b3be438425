import Lockstep.HttpFeed
import Lockstep.Proofs.Account
import Lockstep.Scripted

/-!
# Where commands come from

A command reaches the link only in a cycle whose poll ended in a response that is
a success, came in full and reads as a snapshot, and only if that snapshot asks
for it (`Warrants`). The feed's part is to bring no snapshot otherwise
(`poll_brings`), the plan's to decide on nothing that the snapshot does not warrant
(`Plan.Decides.warranted`); `runFor_warranted` puts the two together, over all
cycles of all runs. A cycle that sends nothing leaves the link and the state alone.
-/

namespace Lockstep

/-! ## Final responses -/

namespace HttpFeed

/-- The transfer of the request that comes after some others. -/
def Line.transfer (line : Line) (others : Nat) : Transfer :=
  line.transfers[others]?.getD (line.transfers.getLast?.getD .unread)

/-- Some responses send the request on, each to the target that is asked for next, and
the one after them does not. -/
structure Line.Reaches (resolve : Resolution) (line : Line) (asked : Nat → String) (redirects : Nat)
    (response : Response) : Prop where
  onward : ∀ j < redirects, ∃ r, line.transfer j = .answered r ∧ r.onward? resolve (asked j) = some (asked (j + 1))
  answered : line.transfer redirects = .answered response
  final : response.onward? resolve (asked redirects) = none

/-- A poll ends in a success whose body comes in full and reads as a snapshot. -/
structure Line.Brings (f : HttpFeed) (resolve : Resolution) (line : Line) (response : Response) (s : Snapshot) : Prop where
  reached : ∃ asked, asked 0 = requestTarget f.url ∧ ∃ redirects ≤ redirectLimit,
    line.Reaches resolve asked redirects response
  success : 200 ≤ response.status ∧ response.status < 300
  complete : response.complete = true
  read : Snapshot.ofPayload response.payload = .ok s

theorem Line.next_transfer (line : Line) : line.next.1 = line.transfer 0 := by
  obtain ⟨transfers,asked⟩ := line
  match transfers with
  | [] | [_] | _ :: _ :: _ => rfl

theorem Line.transfer_next (line : Line) (asked : List String) (others : Nat) :
    Line.transfer ⟨line.next.2,asked⟩ others = line.transfer (others + 1) := by
  obtain ⟨transfers,_⟩ := line
  match transfers with
  | [] | _ :: _ :: _ => rfl
  | [transfer] => cases others <;> rfl

/-- A response that is asked for is that of the next transfer. -/
theorem ask_eq_some {asked : String} {line later : Line} {r : Response} (got : ask asked line = (some r,later)) :
    line.transfer 0 = .answered r ∧ ∀ others, later.transfer others = line.transfer (others + 1) := by
  have first := line.next_transfer
  have onward := line.transfer_next
  unfold ask at got
  cases shape : line.next with
  | mk transfer rest =>
    simp only [shape] at got first onward
    rw [← first]
    cases transfer with
    | unread | unanswered => simp at got
    | answered response =>
      obtain ⟨same,rfl⟩ := Prod.mk.inj got
      exact ⟨congrArg Transfer.answered (Option.some.inj same),onward _⟩

/-- Targets that are asked for after another. -/
def onwardFrom (first : String) (asked : Nat → String) : Nat → String
  | 0 => first
  | j + 1 => asked j

/-- One more response that sends the request on. -/
theorem Line.Reaches.redirected {resolve : Resolution} {line later : Line} {target : String} {asked : Nat → String}
    {redirects : Nat} {response r : Response} (reaches : later.Reaches resolve asked redirects response)
    (shifted : ∀ j, later.transfer j = line.transfer (j + 1)) (first : line.transfer 0 = .answered r)
    (sent : r.onward? resolve target = some (asked 0)) :
    line.Reaches resolve (onwardFrom target asked) (redirects + 1) response := by
  refine ⟨?_,?_,reaches.final⟩
  · intro j inside
    cases j with
    | zero => exact ⟨r,first,sent⟩
    | succ j =>
      rw [← shifted]
      exact reaches.onward j (Nat.lt_of_succ_lt_succ inside)
  · rw [← shifted]
    exact reaches.answered

theorem fetch_reaches {resolve : Resolution} {url : String} {hops : Nat} {target : String} {line : Line}
    {response : Response} (got : (fetch resolve url hops target line).1 = .ok response) :
    ∃ asked, asked 0 = target ∧ ∃ redirects ≤ hops, line.Reaches resolve asked redirects response := by
  fun_induction fetch resolve url hops target line with
  | case1 | case3 => cases got
  | case2 hops target line r later answer final =>
    obtain rfl : r = response := Except.ok.inj got
    exact ⟨fun _ => target,rfl,0,Nat.zero_le hops,nofun,(ask_eq_some answer).1,final⟩
  | case4 target line r later answer next hops sent ih =>
    obtain ⟨first,shifted⟩ := ask_eq_some answer
    obtain ⟨asked,start,redirects,few,reaches⟩ := ih got
    exact ⟨onwardFrom target asked,rfl,redirects + 1,Nat.succ_le_succ few,
      reaches.redirected shifted first (start ▸ sent)⟩

theorem read_eq_ok {url : String} {r : Response} {s : Snapshot} (got : read url r = .ok s) :
    (200 ≤ r.status ∧ r.status < 300) ∧ r.complete = true ∧ Snapshot.ofPayload r.payload = .ok s := by
  unfold read at got
  by_cases success : r.isSuccess = true
  · by_cases complete : r.complete = true
    · simp only [success,complete,Bool.not_true,Bool.false_eq_true,if_false] at got
      refine ⟨by simpa [Response.isSuccess] using success,complete,?_⟩
      cases body : Snapshot.ofPayload r.payload with
      | error fault => simp [body] at got
      | ok found =>
        rw [body] at got
        exact congrArg Except.ok (Except.ok.inj got)
    · simp [success,complete] at got
  · simp [success] at got

/-- A poll brings a snapshot only in that way. -/
theorem poll_brings {f : HttpFeed} {resolve : Resolution} {line : Line} {s : Snapshot}
    (got : ((f.feed resolve).poll line).1.result = .ok s) : ∃ response, line.Brings f resolve response s := by
  have result : ((f.feed resolve).poll line).1 =
      reading f.url (fetch resolve f.url redirectLimit (requestTarget f.url) line).1 := rfl
  rw [result] at got
  cases fetched : (fetch resolve f.url redirectLimit (requestTarget f.url) line).1 with
  | error e => simp [fetched,reading] at got
  | ok response =>
    cases found : read f.url response with
    | error e => simp [fetched,reading,found] at got
    | ok snapshot =>
      obtain rfl : snapshot = s := by simpa [fetched,reading,found] using got
      obtain ⟨success,complete,body⟩ := read_eq_ok found
      exact ⟨response,fetch_reaches fetched,success,complete,body⟩

end HttpFeed

/-! ## Warranted commands -/

namespace Synchronizer

variable {φ σ : Type} {sync : Settings.Sync}

/-- A snapshot warrants a command, in the state in which its cycle began: a start
of its own run, where both its words are allowed; a stop where scouting is not
wanted, or where another run has to make way for its own. -/
def Warrants (sync : Settings.Sync) (state : State) (s : Snapshot) : Command → Prop
  | .start run => s.run = run ∧ 0 < run ∧ (∃ entry ∈ sync.beamModes, normalForm entry = normalForm s.beamMode) ∧
      ∃ entry ∈ sync.daqStates, normalForm entry = normalForm s.daqState
  | .stop => sync.conditions.wants s = false ∨
      sync.resend = .onTransition ∧ sync.conditions.wants s = true ∧ 0 < s.run ∧
        ∃ old, state = .active old ∧ old ≠ s.run

theorem wants_iff {s : Snapshot} : sync.conditions.wants s = true ↔
    (∃ entry ∈ sync.beamModes, normalForm entry = normalForm s.beamMode) ∧
      ∃ entry ∈ sync.daqStates, normalForm entry = normalForm s.daqState := by
  rw [Conditions.wants,Bool.and_eq_true,Settings.Sync.conditions,AllowList.contains_ofList,AllowList.contains_ofList]

theorem warrants_start {state : State} {s : Snapshot} (desired : sync.conditions.wants s = true) (named : s.run ≠ 0) :
    Warrants sync state s (.start s.run) :=
  ⟨rfl,UInt64.pos_iff_ne_zero.mpr named,wants_iff.mp desired⟩

/-- A plan decides on nothing but what the snapshot that was read warrants. -/
theorem Plan.Decides.warranted {state : State} {reading : Reading} {decision : Decision}
    (decides : (Plan.ofSettings sync).Decides state reading decision) :
    decision.Allowed (fun _ c => ∃ s, reading.result = .ok s ∧ Warrants sync state s c) state := by
  cases decides with
  | unread | unnamed | stays | rests => trivial
  | @changes s old read desired named gated on other =>
    refine ⟨on,⟨s,read,.inr ⟨gated,desired,UInt64.pos_iff_ne_zero.mpr named,old,on,other⟩⟩,?_⟩
    exact ⟨s,read,warrants_start desired named⟩
  | @starts s read desired named => exact ⟨s,read,warrants_start desired named⟩
  | @stops s read undesired => exact ⟨s,read,.inl undesired⟩

theorem step_warranted (feed : Feed φ) (link : Link σ) (s : Session φ σ) {x : Exchange}
    (sent : x ∈ (step (Plan.ofSettings sync) feed link s).exchanges) :
    ∃ snapshot, (feed.poll s.feed).1.result = .ok snapshot ∧ Warrants sync s.state snapshot x.command := by
  have talk := step_allowed feed link s (decides (Plan.ofSettings sync) s.state (feed.poll s.feed).1).warranted
  obtain ⟨before,rest,here⟩ := List.append_of_mem sent
  rw [here] at talk
  exact talk.around.allowed

/-- Over HTTP, under either policy, however the client resolves locations, whatever
becomes of the requests and whatever the link answers: a run is its cycles, and the
link is given the commands of a cycle and nothing else. Every command rests on the
response in which the poll of its cycle ended, a success that came in full and reads as
a snapshot that warrants the command. A cycle without a command is a failed poll, a
missing run number or steady; it does not touch the link, and the state stays. -/
theorem runFor_warranted (sync : Settings.Sync) (f : HttpFeed) (resolve : Resolution) (link : Link σ)
    (line : HttpFeed.Line) (memory : σ) (n : Nat) :
    let plan := Plan.ofSettings sync
    let feed := f.feed resolve
    let run := fun k => runFor plan feed link k (.new line memory)
    let cycle := fun k => step plan feed link (run k).session
    ((run n).outcomes = (List.range n).flatMap (fun k => (cycle k).outcomes) ∧
      (run n).exchanges = (List.range n).flatMap (fun k => (cycle k).exchanges)) ∧
    ∀ k,
      (cycle k).session.link = link.after (run k).session.link (commands (cycle k).exchanges) ∧
      (∀ x ∈ (cycle k).exchanges, ∃ response s,
        (run k).session.feed.Brings f resolve response s ∧ Warrants sync (run k).session.state s x.command) ∧
      ((cycle k).exchanges = [] →
        (∃ o, (cycle k).outcomes = [o] ∧ (o = .pollFailed ∨ o = .missingRun ∨ o = .steady)) ∧
        (cycle k).session.link = (run k).session.link ∧ (cycle k).session.state = (run k).session.state) := by
  intro plan feed run cycle
  refine ⟨runFor_cycles plan feed link n _,fun k => ⟨?_,?_,?_⟩⟩
  · exact (step_converses plan feed link (run k).session).memory_eq
  · intro x sent
    obtain ⟨s,got,warranted⟩ := step_warranted feed link (run k).session sent
    obtain ⟨response,brings⟩ := HttpFeed.poll_brings got
    exact ⟨response,s,brings,warranted⟩
  · intro silent
    obtain ⟨o,told⟩ := step_told plan feed link (run k).session
    have quiet : o.Quiet := by
      rw [← Outcome.sent_eq_nil_iff,← told.tells.sent]
      exact congrArg commands silent
    obtain ⟨_,state,untouched⟩ := told.rests quiet
    exact ⟨⟨o,told.outcome,quiet⟩,untouched,state⟩

/-- The first poll is sent on to a snapshot of run 5, which warrants a start; the
second brings the same response cut short, and nothing is sent. -/
theorem redirected_snapshot_warrants :
    let plan := Plan.ofSettings {}
    let f : HttpFeed := ⟨"http://daq/"⟩
    let body := Utf8.ofString (Snapshot.toJson ⟨5,"STABLE BEAMS","RUNNING"⟩)
    let line : HttpFeed.Line := .ofTransfers
      [.answered ⟨302,some "/now",[],true⟩,.answered ⟨200,none,body,true⟩,.answered ⟨200,none,body,false⟩]
    let cycle := fun k => step plan f.feed (Scripted.link .ack)
      (runFor plan f.feed (Scripted.link .ack) k (.new line (.ofReplies []))).session
    (commands (cycle 0).exchanges = [.start 5] ∧
      ∃ response s, line.Brings f HttpFeed.plain response s ∧ Warrants {} .idle s (.start 5)) ∧
    (cycle 1).exchanges.length = 0 ∧ (cycle 1).outcomes = [.pollFailed] ∧ (cycle 1).session.state = .active 5 := by
  intro plan f body line cycle
  have sent : commands (cycle 0).exchanges = [.start 5] := by decide +kernel
  have silent : (cycle 1).exchanges.length = 0 := by decide +kernel
  obtain ⟨_,cycles⟩ := runFor_warranted {} f HttpFeed.plain (Scripted.link .ack) line (.ofReplies []) 2
  obtain ⟨x,member,starts⟩ : ∃ x ∈ (cycle 0).exchanges, x.command = .start 5 := by
    rw [← List.mem_map,← commands,sent]
    exact List.mem_cons_self
  obtain ⟨_,grounds,_⟩ := cycles 0
  obtain ⟨response,s,brings,warranted⟩ := grounds x member
  rw [starts] at warranted
  refine ⟨⟨sent,response,s,brings,warranted⟩,silent,by decide +kernel,?_⟩
  obtain ⟨_,_,rests⟩ := cycles 1
  obtain ⟨_,_,kept⟩ := rests (List.eq_nil_of_length_eq_zero silent)
  refine Eq.trans kept ?_
  decide +kernel

end Synchronizer

end Lockstep
