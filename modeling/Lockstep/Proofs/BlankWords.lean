import Lockstep.Proofs.NormalForms
import Lockstep.Proofs.Provenance

/-!
# Blank words

All blank words have one normal form, and no other word has it. So an allow-list
allows a blank word exactly where it has a blank entry (`contains_of_blank`).
Settings are not accepted with a list of nothing but blanks, but a blank entry may
stand beside others, and then a blank mode or state is a word like any other
(`blank_entry_starts`). Where the list has none, a snapshot with a blank word starts
no run (`blank_starts_nothing`).
-/

namespace Lockstep

/-! ## The form of blank words -/

namespace Text

theorem trim_eq_nil_iff {s : List Char} : trim s = [] ↔ ∀ c ∈ s, isBlank c = true := by
  constructor
  · intro nothing
    obtain ⟨⟨a,b,whole,before,after⟩,_⟩ := stripped_trim s
    rw [nothing,List.append_nil] at whole
    rw [whole]
    exact fun c member => (List.mem_append.mp member).elim (before c) (after c)
  · intro blank
    exact Stripped.trim_eq ⟨⟨s,[],by simp,blank,nofun⟩,nofun,nofun⟩

theorem uppercase_eq_nil_iff {s : List Char} : uppercase s = [] ↔ s = [] := by
  rw [uppercase,List.flatMap_eq_nil_iff]
  constructor
  · intro nothing
    exact List.eq_nil_iff_forall_not_mem.mpr fun c member => upper_ne_nil c (nothing c member)
  · rintro rfl c member
    cases member

end Text

theorem normalForm_eq_empty_iff {word : String} : normalForm word = "" ↔ Text.allBlank word = true := by
  rw [← String.toList_inj,toList_normalForm,Text.allBlank,List.all_eq_true,← Text.trim_eq_nil_iff]
  exact Text.uppercase_eq_nil_iff

/-- What has the form of a blank word is blank. -/
theorem normalForm_eq_of_blank {entry word : String} (blank : Text.allBlank word = true) :
    normalForm entry = normalForm word ↔ Text.allBlank entry = true := by
  rw [normalForm_eq_empty_iff.mpr blank]
  exact normalForm_eq_empty_iff

/-- A blank word is allowed where there is a blank entry. -/
theorem AllowList.contains_of_blank {entries : List String} {word : String} (blank : Text.allBlank word = true) :
    (ofList entries).contains word = true ↔ ∃ entry ∈ entries, Text.allBlank entry = true := by
  simp only [contains_ofList,normalForm_eq_of_blank blank]

/-! ## Blank snapshots -/

namespace Synchronizer

variable {φ σ : Type} {sync : Settings.Sync} {snapshot : Snapshot}

/-- A snapshot with a blank word for which the list has no entry. -/
def Unspoken (sync : Settings.Sync) (snapshot : Snapshot) : Prop :=
  (Text.allBlank snapshot.beamMode = true ∧ ∀ entry ∈ sync.beamModes, Text.allBlank entry = false) ∨
    Text.allBlank snapshot.daqState = true ∧ ∀ entry ∈ sync.daqStates, Text.allBlank entry = false

theorem not_blank_entry {entries : List String} (solid : ∀ entry ∈ entries, Text.allBlank entry = false) :
    ¬∃ entry ∈ entries, Text.allBlank entry = true := by
  rintro ⟨entry,member,blank⟩
  rw [solid entry member] at blank
  cases blank

theorem Unspoken.undesired (unspoken : Unspoken sync snapshot) : sync.conditions.wants snapshot = false := by
  rw [Conditions.wants,Settings.Sync.conditions,Bool.and_eq_false_iff]
  rcases unspoken with ⟨blank,solid⟩ | ⟨blank,solid⟩
  · exact .inl (Bool.eq_false_of_not_eq_true fun allowed =>
      not_blank_entry solid ((AllowList.contains_of_blank blank).mp allowed))
  · exact .inr (Bool.eq_false_of_not_eq_true fun allowed =>
      not_blank_entry solid ((AllowList.contains_of_blank blank).mp allowed))

/-- Only a snapshot in which scouting is wanted warrants a start. -/
theorem stop_of_undesired {state : State} {c : Command} (warranted : Warrants sync state snapshot c)
    (undesired : sync.conditions.wants snapshot = false) : c = .stop := by
  cases c with
  | stop => rfl
  | start run =>
    obtain ⟨_,_,words⟩ := warranted
    rw [wants_iff.mpr words] at undesired
    cases undesired

theorem exists_word {entries : List String} (some : entries.all Text.allBlank = false) :
    ∃ entry ∈ entries, Text.allBlank entry = false := by
  obtain ⟨entry,member,solid⟩ := List.all_eq_false.mp some
  exact ⟨entry,member,Bool.eq_false_of_not_eq_true solid⟩

/-- With accepted settings, whose lists have a word each, a blank word of a snapshot is
wanted exactly where its list has a blank entry too. Where it has none scouting is not
wanted, and over any feed and any link a cycle that reads such a snapshot starts no run. -/
theorem blank_starts_nothing {s : Settings} (valid : s.validate = .ok ()) (feed : Feed φ) (link : Link σ) (polls : φ)
    (memory : σ) :
    let plan := Plan.ofSettings s.sync
    let cycle := fun k => step plan feed link (runFor plan feed link k (.new polls memory)).session
    ((∃ entry ∈ s.sync.beamModes, Text.allBlank entry = false) ∧
      ∃ entry ∈ s.sync.daqStates, Text.allBlank entry = false) ∧
    (∀ snapshot : Snapshot, Text.allBlank snapshot.beamMode = true →
      (s.sync.conditions.wants snapshot = true ↔ (∃ entry ∈ s.sync.beamModes, Text.allBlank entry = true) ∧
        ∃ entry ∈ s.sync.daqStates, normalForm entry = normalForm snapshot.daqState)) ∧
    (∀ snapshot : Snapshot, Text.allBlank snapshot.daqState = true →
      (s.sync.conditions.wants snapshot = true ↔
        (∃ entry ∈ s.sync.beamModes, normalForm entry = normalForm snapshot.beamMode) ∧
          ∃ entry ∈ s.sync.daqStates, Text.allBlank entry = true)) ∧
    ∀ snapshot, Unspoken s.sync snapshot → s.sync.conditions.wants snapshot = false ∧
      ∀ k, (feed.reading polls k).result = .ok snapshot → ∀ x ∈ (cycle k).exchanges, x.command = .stop := by
  intro plan cycle
  have sound := Settings.checks_of_validate valid
  simp only [Settings.checks,List.forall_mem_cons] at sound
  obtain ⟨_,_,_,_,_,_,beamModes,daqStates,_⟩ := sound
  refine ⟨⟨exists_word beamModes,exists_word daqStates⟩,?_,?_,?_⟩
  · intro snapshot blank
    simp only [wants_iff,normalForm_eq_of_blank blank]
  · intro snapshot blank
    simp only [wants_iff,normalForm_eq_of_blank blank]
  · intro snapshot unspoken
    refine ⟨unspoken.undesired,fun k read x sent => ?_⟩
    obtain ⟨found,got,warranted⟩ := step_warranted feed link _ sent
    rw [runFor_feed,← Feed.reading,Session.new,read] at got
    cases got
    exact stop_of_undesired warranted unspoken.undesired

/-- Settings in which a blank mode is allowed beside another one. -/
def mixed : Settings := { sync := { beamModes := ["","STABLE BEAMS"] } }

/-- A DAQ state of blanks starts nothing: among the states there is no blank one, though
there is one among the modes. -/
theorem blank_state_starts_nothing :
    let plan := Plan.ofSettings mixed.sync
    let polls := Scripted.Playlist.ofEntries [some ⟨5,"","\u00a0 "⟩]
    let cycle := step plan Scripted.feed (Scripted.link .ack) (.new polls (.ofReplies []))
    mixed.validate = .ok () ∧ Unspoken mixed.sync ⟨5,"","\u00a0 "⟩ ∧
      mixed.sync.conditions.wants ⟨5,"","\u00a0 "⟩ = false ∧ ∀ x ∈ cycle.exchanges, x.command = .stop := by
  intro plan polls cycle
  have valid : mixed.validate = .ok () := by rw [Settings.validate_eq_ok_iff]; decide
  have unspoken : Unspoken mixed.sync ⟨5,"","\u00a0 "⟩ := .inr ⟨by decide +kernel,by decide +kernel⟩
  obtain ⟨_,_,_,nothing⟩ := blank_starts_nothing valid Scripted.feed (Scripted.link .ack) polls (.ofReplies [])
  obtain ⟨undesired,stops⟩ := nothing _ unspoken
  exact ⟨valid,unspoken,undesired,stops 0 rfl⟩

/-- A blank mode starts a run where the accepted settings have a blank entry beside
another one. -/
theorem blank_entry_starts :
    let plan := Plan.ofSettings mixed.sync
    let polls := Scripted.Playlist.ofEntries [some ⟨5,"","RUNNING"⟩]
    let run := runFor plan Scripted.feed (Scripted.link .ack) 1 (.new polls (.ofReplies []))
    mixed.validate = .ok () ∧ Text.allBlank "" = true ∧ mixed.sync.conditions.wants ⟨5,"","RUNNING"⟩ = true ∧
      commands run.exchanges = [.start 5] ∧ run.outcomes = [.started 5] := by
  refine ⟨?_,by decide +kernel,by decide +kernel,by decide +kernel,by decide +kernel⟩
  rw [Settings.validate_eq_ok_iff]
  decide

end Synchronizer

end Lockstep
