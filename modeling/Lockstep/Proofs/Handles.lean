import Lockstep.Scripted
import Mathlib.Data.List.DropRight

/-!
# The handles of a stand-in

A scripted link or feed is used through any number of handles, in any order.
`converse` is a sequence of calls, each with the handle it goes through. In
whatever way the calls follow each other, every reply of a link's script answers
at most one command, in the order in which the replies were queued, a handle
falls back on its own reply where no other is left, and the record shows the
commands since it was cleared last (`Kept`). A feed goes on from where the poll
before ended, through whichever handle that was. `handles_share_script` has both.
-/

namespace Lockstep.Scripted

variable {α β σ ι κ : Type}

/-! ## Calls one after another -/

/-- Something that is asked through a handle. -/
structure Call (ι α : Type) where
  handle : ι
  request : α

/-- The answers to some calls and the memory after them. A call is answered and
changes the memory as `step` says. -/
def converse (step : α → σ → β × σ) : List α → σ → List β × σ
  | [],s => ([],s)
  | call :: calls,s =>
    let (answer,s) := step call s
    let (answers,s) := converse step calls s
    (answer :: answers,s)

theorem converse_answer (step : α → σ → β × σ) (calls : List α) (s : σ) (k : Nat) :
    (converse step calls s).1[k]? =
      calls[k]?.map fun call => (step call (converse step (calls.take k) s).2).1 := by
  induction calls generalizing s k with
  | nil => rfl
  | cons call calls ih =>
    cases k with
    | zero => rfl
    | succ k => exact ih _ k

theorem converse_append (step : α → σ → β × σ) (first second : List α) (s : σ) :
    (converse step (first ++ second) s).2 = (converse step second (converse step first s).2).2 := by
  induction first generalizing s with
  | nil => rfl
  | cons call calls ih => exact ih _

theorem take_succ_of_getElem? {calls : List α} {k : Nat} {call : α} (there : calls[k]? = some call) :
    calls.take (k + 1) = calls.take k ++ [call] := by
  rw [List.take_add_one,there,Option.toList_some]

/-- Memories, each of which the call at its place turns into the next, are those
that the calls leave. -/
theorem converse_memory {step : α → σ → β × σ} {calls : List α} {memory : Nat → σ}
    (turns : ∀ k call, calls[k]? = some call → (step call (memory k)).2 = memory (k + 1)) (k : Nat)
    (inside : k ≤ calls.length) : (converse step (calls.take k) (memory 0)).2 = memory k := by
  induction k with
  | zero => rfl
  | succ k ih =>
    have there : calls[k]? = some calls[k] := List.getElem?_eq_getElem inside
    rw [take_succ_of_getElem? there,converse_append,ih (Nat.le_of_succ_le inside)]
    exact turns k _ there

/-! ## Links -/

/-- What a handle of a link is used for. -/
inductive Request where
  | send (command : Command)
  | queue (replies : List Reply)
  | clear
  | sent
deriving DecidableEq

/-- What comes back. -/
inductive Answer where
  | delivery (delivery : Delivery)
  | commands (commands : List Command)
  | done

/-- A call to a link whose handles fall back on some replies. A handle that is
given another fallback counts as another handle. -/
def perform (fallback : ι → Reply) (call : Call ι Request) (s : Script) : Answer × Script :=
  match call.request with
  | .send command =>
    let (delivery,s) := (link (fallback call.handle)).send command s
    (.delivery delivery,s)
  | .queue replies => (.done,s.queue replies)
  | .clear => (.done,s.clear)
  | .sent => (.commands s.sent,s)

/-- The replies that a request queues. -/
def Request.replies : Request → List Reply
  | .queue replies => replies
  | _ => []

/-- The command that a request sends. -/
def Request.command? : Request → Option Command
  | .send command => some command
  | _ => none

/-- All replies that were ever queued, used or not. -/
def queued (replies : List Reply) (calls : List (Call ι Request)) : List Reply :=
  replies ++ calls.flatMap (·.request.replies)

/-- The commands that were sent since the record was cleared last. -/
def sinceClear (calls : List (Call ι Request)) : List Command :=
  (calls.rtakeWhile (·.request ≠ .clear)).filterMap (·.request.command?)

/-- Whether the call at a place sends a command. -/
def sends (calls : List (Call ι Request)) (k : Nat) : Bool :=
  (calls[k]?.bind (·.request.command?)).isSome

/-- The reply at place `p` has been queued when the call at place `k` is made, and
no call before has used it. -/
def Waits (replies : List Reply) (calls : List (Call ι Request)) (uses : Nat → Option Nat) (k p : Nat) : Prop :=
  p < (queued replies (calls.take k)).length ∧ ∀ j < k, uses j ≠ some p

/-- The answer that the call at place `k` deserves. -/
inductive Answers (fallback : ι → Reply) (replies : List Reply) (calls : List (Call ι Request))
    (uses : Nat → Option Nat) (k : Nat) : Call ι Request → Answer → Prop
  | reply {i c p reply} (used : uses k = some p) (there : (queued replies calls)[p]? = some reply) :
    Answers fallback replies calls uses k ⟨i,.send c⟩ (.delivery { result := reply.verdict })
  | fallback {i c} (none_used : uses k = none) :
    Answers fallback replies calls uses k ⟨i,.send c⟩ (.delivery { result := (fallback i).verdict })
  | queue {i more} : Answers fallback replies calls uses k ⟨i,.queue more⟩ .done
  | clear {i} : Answers fallback replies calls uses k ⟨i,.clear⟩ .done
  | sent {i} : Answers fallback replies calls uses k ⟨i,.sent⟩ (.commands (sinceClear (calls.take k)))

/-- The calls to a link keep to its script, where `uses` tells which of the replies
that were ever queued answers the call at a place. -/
structure Kept (fallback : ι → Reply) (replies : List Reply) (calls : List (Call ι Request))
    (uses : Nat → Option Nat) : Prop where
  /-- A command is answered by the first of the replies that wait. -/
  oldest : ∀ k p, uses k = some p ↔ sends calls k ∧ Waits replies calls uses k p ∧
    ∀ q < p, ¬ Waits replies calls uses k q
  /-- It falls to the handle to answer if and only if none waits. -/
  none_waits : ∀ k, sends calls k → (uses k = none ↔ ∀ p, ¬ Waits replies calls uses k p)
  ordered : ∀ j k p q, j < k → uses j = some p → uses k = some q → p < q
  answered : ∀ k call, calls[k]? = some call → ∃ answer,
    (converse (perform fallback) calls (.ofReplies replies)).1[k]? = some answer ∧
    Answers fallback replies calls uses k call answer
  /-- The replies that wait are those that are left. -/
  left : ∀ k ≤ calls.length, ∃ n, (∀ p, Waits replies calls uses k p ↔
      n ≤ p ∧ p < (queued replies (calls.take k)).length) ∧
    (converse (perform fallback) (calls.take k) (.ofReplies replies)).2 =
      ⟨(queued replies (calls.take k)).drop n,sinceClear (calls.take k)⟩

section
variable (replies : List Reply) (calls : List (Call ι Request))

/-- How many replies the calls before a place have used. -/
def used : Nat → Nat
  | 0 => 0
  | k + 1 =>
    if sends calls k ∧ used k < (queued replies (calls.take k)).length then used k + 1 else used k

/-- The reply that the call at a place uses. -/
def use (k : Nat) : Option Nat :=
  if sends calls k ∧ used replies calls k < (queued replies (calls.take k)).length then
    some (used replies calls k)
  else none

variable {replies calls}

theorem use_eq_some {k p : Nat} : use replies calls k = some p ↔
    (sends calls k ∧ used replies calls k < (queued replies (calls.take k)).length) ∧ used replies calls k = p := by
  rw [use,Option.ite_none_right_eq_some,Option.some.injEq]

theorem queued_append (first second : List (Call ι Request)) :
    queued replies (first ++ second) = queued replies first ++ second.flatMap (·.request.replies) := by
  rw [queued,List.flatMap_append,← List.append_assoc,queued]

theorem queued_front (k : Nat) : queued replies (calls.take k) <+: queued replies calls := by
  refine ⟨(calls.drop k).flatMap (·.request.replies),?_⟩
  rw [← queued_append,List.take_append_drop]

theorem queued_length_succ (k : Nat) :
    (queued replies (calls.take k)).length ≤ (queued replies (calls.take (k + 1))).length := by
  rw [List.take_add_one,queued_append,List.length_append]
  exact Nat.le_add_right _ _

theorem used_le (k : Nat) : used replies calls k ≤ (queued replies (calls.take k)).length := by
  induction k with
  | zero => exact Nat.zero_le _
  | succ k ih =>
    have more : (queued replies (calls.take k)).length ≤ _ := queued_length_succ k
    rw [used]
    split
    · omega
    · omega

theorem used_succ_of_use {k p : Nat} (uses : use replies calls k = some p) :
    used replies calls k = p ∧ used replies calls (k + 1) = p + 1 := by
  obtain ⟨some_left,rfl⟩ := use_eq_some.mp uses
  exact ⟨rfl,if_pos some_left⟩

theorem used_succ_of_none {k : Nat} (uses : use replies calls k = none) :
    used replies calls (k + 1) = used replies calls k := by
  rw [use,ite_eq_right_iff] at uses
  exact if_neg fun some_left => Option.some_ne_none _ (uses some_left)

theorem used_up {k : Nat} (sending : sends calls k) (uses : use replies calls k = none) :
    (queued replies (calls.take k)).length ≤ used replies calls k := by
  rw [use,ite_eq_right_iff] at uses
  exact Nat.not_lt.mp fun some_left => Option.some_ne_none _ (uses ⟨sending,some_left⟩)

/-- The replies that have been used are the first ones. -/
theorem lt_used_iff {k p : Nat} : p < used replies calls k ↔ ∃ j < k, use replies calls j = some p := by
  induction k with
  | zero =>
    exact ⟨fun earlier => absurd earlier (Nat.not_lt_zero p),
      fun ⟨j,earlier,_⟩ => absurd earlier (Nat.not_lt_zero j)⟩
  | succ k ih =>
    simp only [Nat.lt_succ_iff_lt_or_eq,or_and_right,exists_or,exists_eq_left,← ih]
    cases uses : use replies calls k with
    | none => simp only [used_succ_of_none uses,reduceCtorEq,or_false]
    | some q =>
      obtain ⟨same,next⟩ := used_succ_of_use uses
      rw [same,next,Nat.lt_succ_iff_lt_or_eq,Option.some.injEq,@eq_comm _ p]

theorem waits_iff {k p : Nat} : Waits replies calls (use replies calls) k p ↔
    used replies calls k ≤ p ∧ p < (queued replies (calls.take k)).length := by
  have fresh : (∀ j < k, use replies calls j ≠ some p) ↔ used replies calls k ≤ p := by
    rw [← Nat.not_lt,lt_used_iff]
    exact ⟨fun unused ⟨j,earlier,uses⟩ => unused j earlier uses,
      fun none_uses j earlier uses => none_uses ⟨j,earlier,uses⟩⟩
  rw [Waits,fresh,and_comm]

/-- The memory of the link when the call at a place is made. -/
def before (replies : List Reply) (calls : List (Call ι Request)) (k : Nat) : Script :=
  ⟨(queued replies (calls.take k)).drop (used replies calls k),sinceClear (calls.take k)⟩

theorem Script.next_eq (s : Script) (fallback : Reply) :
    s.next fallback = (s.replies.head?.getD fallback,s.replies.tail) := by
  rw [Script.next]
  cases s.replies <;> rfl

theorem drop_used_succ {k : Nat} (sending : sends calls k) :
    ((queued replies (calls.take k)).drop (used replies calls k)).tail =
      (queued replies (calls.take k)).drop (used replies calls (k + 1)) := by
  rw [List.tail_drop]
  cases uses : use replies calls k with
  | some p =>
    obtain ⟨rfl,next⟩ := used_succ_of_use uses
    rw [next]
  | none =>
    have beyond := used_up sending uses
    rw [used_succ_of_none uses,List.drop_of_length_le beyond,List.drop_of_length_le (Nat.le_succ_of_le beyond)]

theorem queued_succ {k : Nat} {call : Call ι Request} (there : calls[k]? = some call) :
    queued replies (calls.take (k + 1)) = queued replies (calls.take k) ++ call.request.replies := by
  rw [take_succ_of_getElem? there,queued_append,List.flatMap_singleton]

theorem sinceClear_succ {k : Nat} {call : Call ι Request} (there : calls[k]? = some call) :
    sinceClear (calls.take (k + 1)) =
      if call.request = .clear then [] else sinceClear (calls.take k) ++ call.request.command?.toList := by
  rw [take_succ_of_getElem? there,sinceClear,List.rtakeWhile_concat]
  by_cases clears : call.request = .clear
  · simp [clears]
  · cases sent : call.request.command? <;> simp [clears,sent,sinceClear]

theorem sends_eq {k : Nat} {call : Call ι Request} (there : calls[k]? = some call) :
    sends calls k = call.request.command?.isSome := by
  rw [sends,there]
  rfl

/-- A call turns the memory before it into that before the next one. -/
theorem perform_before (fallback : ι → Reply) {k : Nat} {call : Call ι Request} (there : calls[k]? = some call) :
    (perform fallback call (before replies calls k)).2 = before replies calls (k + 1) := by
  have sending := sends_eq there
  have same (asks : sends calls k = false) : used replies calls (k + 1) = used replies calls k :=
    if_neg fun ⟨sending,_⟩ => Bool.eq_false_iff.mp asks sending
  rw [before,before,queued_succ there,sinceClear_succ there]
  obtain ⟨i,request⟩ := call
  cases request with
  | send c =>
    simp [perform,link,Script.next_eq,Request.replies,Request.command?,drop_used_succ sending]
  | queue more =>
    simp [perform,Script.queue,Request.replies,Request.command?,same sending,List.drop_append_of_le_length (used_le k)]
  | clear =>
    simp [perform,Script.clear,Request.replies,same sending]
  | sent =>
    simp [perform,Request.replies,Request.command?,same sending]

/-- A call in the memory before it is answered as it deserves. -/
theorem perform_answers (fallback : ι → Reply) {k : Nat} {call : Call ι Request} (there : calls[k]? = some call) :
    Answers fallback replies calls (use replies calls) k call
      (perform fallback call (before replies calls k)).1 := by
  have sending := sends_eq there
  obtain ⟨i,request⟩ := call
  cases request with
  | send c =>
    simp only [perform,link,Script.next_eq,before,List.head?_drop]
    cases uses : use replies calls k with
    | some p =>
      obtain ⟨⟨_,inside⟩,rfl⟩ := use_eq_some.mp uses
      rw [List.getElem?_eq_getElem inside,Option.getD_some]
      exact .reply uses (List.prefix_iff_getElem?.mp (queued_front k) _ inside)
    | none =>
      rw [List.getElem?_eq_none (used_up sending uses),Option.getD_none]
      exact .fallback uses
  | queue more => exact .queue
  | clear => exact .clear
  | sent => exact .sent

theorem converse_before (fallback : ι → Reply) (replies : List Reply) (calls : List (Call ι Request)) {k : Nat}
    (inside : k ≤ calls.length) :
    (converse (perform fallback) (calls.take k) (.ofReplies replies)).2 = before replies calls k := by
  have start : before replies calls 0 = .ofReplies replies := by
    simp [before,queued,used,sinceClear,Script.ofReplies]
  rw [← start]
  exact converse_memory (fun _ _ => perform_before fallback) k inside

/-- The calls to a link keep to its script. -/
theorem kept (fallback : ι → Reply) (replies : List Reply) (calls : List (Call ι Request)) :
    Kept fallback replies calls (use replies calls) where
  oldest k p := by
    simp only [waits_iff,use_eq_some]
    constructor
    · rintro ⟨⟨sending,some_left⟩,rfl⟩
      exact ⟨sending,⟨Nat.le_refl _,some_left⟩,fun q less waits => by omega⟩
    · rintro ⟨sending,⟨unused,inside⟩,first⟩
      have same : used replies calls k = p := by
        by_contra other
        exact first _ (Nat.lt_of_le_of_ne unused other) ⟨Nat.le_refl _,by omega⟩
      exact ⟨⟨sending,by omega⟩,same⟩
  none_waits k sending := by
    simp only [waits_iff,use,sending,true_and,ite_eq_right_iff,reduceCtorEq,imp_false]
    exact ⟨fun beyond p waits => by omega,fun none_waits some_left => none_waits _ ⟨Nat.le_refl _,some_left⟩⟩
  ordered j k p q earlier usesj usesk := by
    have taken : p < used replies calls k := lt_used_iff.mpr ⟨j,earlier,usesj⟩
    rwa [(use_eq_some.mp usesk).2] at taken
  left k inside := ⟨used replies calls k,fun _ => waits_iff,converse_before fallback replies calls inside⟩
  answered k call there := by
    have inside : k ≤ calls.length := Nat.le_of_lt (List.getElem?_eq_some_iff.mp there).1
    rw [converse_answer,there,converse_before fallback replies calls inside]
    exact ⟨_,rfl,perform_answers fallback there⟩

end

/-! ## Feeds -/

/-- What a handle of a feed is used for. -/
inductive Inquiry where
  | poll
  | polls
deriving DecidableEq

/-- What comes back. -/
inductive Notice where
  | reading (reading : Reading)
  | polls (number : Nat)

/-- A call to a feed. -/
def inquire (call : Call κ Inquiry) (p : Playlist) : Notice × Playlist :=
  match call.request with
  | .poll =>
    let (reading,p) := feed.poll p
    (.reading reading,p)
  | .polls => (.polls p.polls,p)

/-- How often some calls poll. -/
def polled (calls : List (Call κ Inquiry)) : Nat := calls.countP (·.request = .poll)

/-- The entry for the poll that comes after some others: at the end the last one
again, and an empty one if there is none. -/
def entry (entries : List (Option Snapshot)) (others : Nat) : Option Snapshot :=
  (entries[others]?.or entries.getLast?).join

/-- The playlist after some polls. -/
def Playlist.after (entries : List (Option Snapshot)) (polls : Nat) : Playlist :=
  ⟨entries.drop polls,(entries.take polls).getLast?.join,polls⟩

theorem Playlist.next_after (entries : List (Option Snapshot)) (polls : Nat) :
    (Playlist.after entries polls).next = (entry entries polls,.after entries (polls + 1)) := by
  rcases Nat.lt_or_ge polls entries.length with inside | beyond
  · have served : entry entries polls = entries[polls] := by
      rw [entry,List.getElem?_eq_getElem inside]
      rfl
    have last : (entries.take (polls + 1)).getLast? = some entries[polls] := by
      rw [List.take_add_one,List.getElem?_eq_getElem inside,Option.toList_some,List.getLast?_concat]
    rw [after,next,List.drop_eq_getElem_cons inside,served,after,last]
    rfl
  · have served : entry entries polls = entries.getLast?.join := by
      rw [entry,List.getElem?_eq_none beyond,Option.none_or]
    have still_beyond := Nat.le_succ_of_le beyond
    rw [after,next,List.drop_of_length_le beyond,served,after,List.drop_of_length_le still_beyond,
      List.take_of_length_le beyond,List.take_of_length_le still_beyond]

/-- What a call deserves that comes after some polls. -/
def notice (entries : List (Option Snapshot)) (others : Nat) : Inquiry → Notice
  | .poll =>
    let result := match entry entries others with
      | some snapshot => .ok snapshot
      | none => .error (.status 503)
    .reading { result }
  | .polls => .polls others

theorem inquire_after (entries : List (Option Snapshot)) (polls : Nat) (call : Call κ Inquiry) :
    inquire call (.after entries polls) =
      (notice entries polls call.request,.after entries (polls + if call.request = .poll then 1 else 0)) := by
  obtain ⟨i,request⟩ := call
  cases request with
  | poll =>
    simp only [inquire,feed,Playlist.next_after,notice]
    rfl
  | polls => rfl

theorem polled_succ {calls : List (Call κ Inquiry)} {k : Nat} {call : Call κ Inquiry}
    (there : calls[k]? = some call) :
    polled (calls.take (k + 1)) = polled (calls.take k) + if call.request = .poll then 1 else 0 := by
  rw [take_succ_of_getElem? there,polled,List.countP_append,List.countP_singleton]
  simp only [polled,decide_eq_true_eq]

theorem converse_polled (entries : List (Option Snapshot)) (calls : List (Call κ Inquiry)) {k : Nat}
    (inside : k ≤ calls.length) :
    (converse inquire (calls.take k) (.ofEntries entries)).2 = .after entries (polled (calls.take k)) := by
  have turns (k : Nat) (call : Call κ Inquiry) (there : calls[k]? = some call) :
      (inquire call (Playlist.after entries (polled (calls.take k)))).2 =
        .after entries (polled (calls.take (k + 1))) := by
    rw [inquire_after,polled_succ there]
  exact converse_memory turns k inside

/-- Let a link's handles fall back on any replies, and let the handles of a link and
of a feed be used in any order. Every command is answered by the reply that waits
longest, or by the fallback of the handle it is sent through if and only if none
waits. No reply is used twice or before an older one, and what is not used is left.
The record shows the commands that were sent through all handles since it was
cleared last. A poll that comes after so many others is served the entry at that
place of the script, or the last one beyond its end; an empty entry and an empty
script fail with the status 503. All polls are counted. -/
theorem handles_share_script (fallback : ι → Reply) (replies : List Reply) (calls : List (Call ι Request))
    (entries : List (Option Snapshot)) (inquiries : List (Call κ Inquiry)) :
    (∃ uses, Kept fallback replies calls uses) ∧
    ∀ k call, inquiries[k]? = some call →
      (converse inquire inquiries (.ofEntries entries)).1[k]? =
        some (notice entries (polled (inquiries.take k)) call.request) := by
  refine ⟨⟨_,kept fallback replies calls⟩,fun k call there => ?_⟩
  have inside : k ≤ inquiries.length := Nat.le_of_lt (List.getElem?_eq_some_iff.mp there).1
  rw [converse_answer,there,converse_polled entries inquiries inside,Option.map_some,inquire_after]

/-- One handle falls back on an acknowledgment, the other on nobody being there. What
is queued through the one is used by the other first. -/
example :
    let fallback := fun kind : Bool => if kind then Reply.ack else Reply.unreachable
    let calls : List (Call Bool Request) :=
      [⟨true,.send .stop⟩,⟨true,.queue [.ack]⟩,⟨false,.send (.start 5)⟩,⟨true,.clear⟩,⟨false,.send .stop⟩,⟨true,.sent⟩]
    (converse (perform fallback) calls (.ofReplies [])).1 =
      [.delivery { result := Reply.ack.verdict },.done,.delivery { result := Reply.ack.verdict },.done,
        .delivery { result := Reply.unreachable.verdict },.commands [.stop]] := rfl

end Lockstep.Scripted
