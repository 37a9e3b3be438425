import Mathlib.Data.List.Forall2
import Mathlib.Data.List.Nodup
import Mathlib.Data.List.Perm.Basic
import Lockstep.Proofs.Documents
import Lockstep.Proofs.DurationText
import Lockstep.Proofs.FileTree.Listing
import Lockstep.Proofs.Json.Pretty
import Lockstep.Proofs.Tables
import Lockstep.Settings.Reader

/-!
# Settings put down anew

Settings survive being written down: what they are written as is read as the same
settings (`toValue_restated`). So is every document that leaves out fields or
sections of which the defaults are wanted, lists members in another order, or has
members of names that mean nothing (`Restates`).

A record is read by its fields, of which each puts down one member and leaves the
others as they are (`Reads`). Entries that stand for members of a record therefore
make up that record, in whatever order they come (`Reads.entries`). This is used
twice: for the fields of a section and for the sections of the settings.
-/

namespace Lockstep.Settings

open Json (Value Blank Denotes)

/-! ## Objects put down anew -/

/-- The members `before` put down anew: spare ones may be gone, the others are kept
in any order with values that stand for theirs, and others of unknown names may
have come. -/
def Restated (stands : String → Value → Value → Prop) (spare before after : List (String × Value)) : Prop :=
  ∃ gone kept anew added, before.Perm (gone ++ kept) ∧ gone ⊆ spare ∧
    List.Forall₂ (fun m m' => m'.1 = m.1 ∧ stands m.1 m.2 m'.2) kept anew ∧
    (∀ m ∈ added, m.1 ∉ before.map (·.1)) ∧ after.Perm (anew ++ added)

/-- A value put down anew where `spare` is what goes without saying, in objects down
to a number of levels. -/
def Restates : Nat → (spare before after : Value) → Prop
  | 0,_,before,after => after = before
  | levels + 1,spare,before,after => ∃ ms, after = .object ms ∧
      Restated (fun name w v => ∃ x, (name,x) ∈ spare.members ∧ Restates levels x w v) spare.members before.members ms

theorem Restated.mono {stands stands' : String → Value → Value → Prop} {spare before after : List (String × Value)}
    (restated : Restated stands spare before after) (more : ∀ name w v, stands name w v → stands' name w v) :
    Restated stands' spare before after := by
  obtain ⟨gone,kept,anew,added,split,within,each,unknown,whole⟩ := restated
  exact ⟨gone,kept,anew,added,split,within,each.imp fun _ _ same => ⟨same.1,more _ _ _ same.2⟩,unknown,whole⟩

/-! ## Records -/

/-- The fields of a record read its members, each by itself. -/
structure Reads {σ : Type} (fields : List (Field σ)) (members : σ → List (String × Value))
    (stands : String → Value → Value → Prop) : Prop where
  inj : ∀ s s', members s = members s' → s = s'
  keys : ∀ s, (members s).map (·.1) = fields.map (·.key)
  distinct : (fields.map (·.key)).Nodup
  read : ∀ f ∈ fields, ∀ goal s w v, (f.key,w) ∈ members goal → stands f.key w v →
    ∃ s', f.read (.ofValue .json v) s = .ok s' ∧
      members s' = (members s).map fun m => if m.1 = f.key then (f.key,w) else m

section
variable {σ : Type} {fields : List (Field σ)} {members : σ → List (String × Value)}
  {stands : String → Value → Value → Prop}

/-- Entries that stand for members of a record, and others that are not known, make
up the record where the rest is in place. -/
theorem Reads.entries (reads : Reads fields members stands) {goal s : σ} {entries : List (String × Document)}
    (each : ∀ e ∈ entries, (∃ w v, (e.1,w) ∈ members goal ∧ stands e.1 w v ∧ e.2 = .ofValue .json v) ∨
      e.1 ∉ fields.map (·.key))
    (rest : ∀ m ∈ members s, m ∈ members goal ∨ m.1 ∈ entries.map (·.1)) :
    readEntries fields s entries = .ok goal := by
  -- Each entry puts one more member into its place; at the end none is left to wait for.
  induction entries generalizing s with
  | nil =>
    have within : members s ⊆ members goal := by
      intro m member
      rcases rest m member with inside | none
      · exact inside
      · cases none
    have keys := (reads.keys s).trans (reads.keys goal).symm
    have same := reads.inj _ _ (Table.eq_of_keys keys (reads.keys goal ▸ reads.distinct) within)
    rw [readEntries,same]
  | cons e entries ih =>
    obtain ⟨key,d⟩ := e
    have later := fun e member => each e (List.mem_cons_of_mem (key,d) member)
    rcases each _ List.mem_cons_self with ⟨w,v,member,stand,rfl⟩ | unknown
    · have known : key ∈ fields.map (·.key) := reads.keys goal ▸ List.mem_map.mpr ⟨_,member,rfl⟩
      obtain ⟨f,found⟩ : ∃ f, fields.find? (·.key == key) = some f := by
        obtain ⟨f,inside,same⟩ := List.mem_map.mp known
        exact Option.isSome_iff_exists.mp (List.find?_isSome.mpr ⟨f,inside,by simp [same]⟩)
      obtain rfl : f.key = key := by simpa using List.find?_some found
      obtain ⟨s',read,after⟩ := reads.read f (List.mem_of_find?_eq_some found) goal s w v member stand
      rw [readEntries,found]
      simp only [read,under]
      refine ih later ?_
      intro m inside
      rw [after] at inside
      obtain ⟨n,before,rfl⟩ := List.mem_map.mp inside
      by_cases same : n.1 = f.key
      · rw [if_pos same]
        exact .inl member
      · rw [if_neg same]
        exact (rest n before).imp_right fun key => (List.mem_cons.mp key).resolve_left same
    · have none : fields.find? (·.key == key) = none := by
        rw [List.find?_eq_none]
        intro f inside same
        exact unknown (List.mem_map.mpr ⟨f,inside,by simpa using same⟩)
      rw [readEntries,none]
      refine ih later ?_
      intro m inside
      refine (rest m inside).imp_right fun key => (List.mem_cons.mp key).resolve_left ?_
      intro same
      have known : m.1 ∈ fields.map (·.key) := reads.keys s ▸ List.mem_map.mpr ⟨m,inside,rfl⟩
      rw [same] at known
      exact unknown known

/-- A record whose members are put down anew is read as it was, from the values
that were spare. -/
theorem Reads.restated (reads : Reads fields members stands) {start goal : σ} {ms : List (String × Value)}
    (restated : Restated stands (members start) (members goal) ms) :
    readEntries fields start (Document.ofMembers .json ms []) = .ok goal := by
  obtain ⟨gone,kept,anew,added,split,within,each,unknown,whole⟩ := restated
  refine reads.entries ?_ ?_
  · intro e member
    rcases mem_ofMembers member with ⟨v,inside,same⟩ | none
    · rcases List.mem_append.mp (whole.mem_iff.mp inside) with old | new
      · obtain ⟨m,held,name,stand⟩ := Table.exists_of_mem_right each old
        have before : m ∈ members goal := split.mem_iff.mpr (List.mem_append_right _ held)
        obtain ⟨name',w⟩ := m
        obtain rfl : e.1 = name' := name
        exact .inl ⟨w,v,before,stand,same⟩
      · refine .inr ?_
        rw [← reads.keys goal]
        exact unknown _ new
    · cases none
  · intro m member
    have key : m.1 ∈ (members goal).map (·.1) := by
      rw [reads.keys goal,← reads.keys start]
      exact List.mem_map.mpr ⟨m,member,rfl⟩
    obtain ⟨n,before,name⟩ := List.mem_map.mp key
    rcases List.mem_append.mp (split.mem_iff.mp before) with left | held
    · -- What is gone was spare: it is in place from the start.
      have same := List.inj_on_of_nodup_map (reads.keys start ▸ reads.distinct) (within left) member name
      exact .inl (same ▸ before)
    · obtain ⟨n',new,name',_⟩ := Table.exists_of_mem_right each.flip held
      refine .inr ((mem_keys_ofMembers m.1).mpr (.inl ?_))
      have inside : n' ∈ ms := whole.mem_iff.mpr (List.mem_append_left _ new)
      exact List.mem_map.mpr ⟨n',inside,name'.trans name⟩

end

/-! ## Values of fields -/

@[simp] theorem nat_inj {n n' : Nat} : Value.nat n = Value.nat n' ↔ n = n' := by
  simp [Value.nat]

@[simp] theorem textsValue_inj {texts texts' : List String} : textsValue texts = textsValue texts' ↔ texts = texts' := by
  refine ⟨fun same => ?_,fun same => by rw [same]⟩
  have read : readTexts (.ofValue .json (textsValue texts)) = .ok texts := readTexts_textsValue texts
  rw [same,readTexts_textsValue] at read
  exact (Except.ok.inj read).symm

@[simp] theorem resendName_inj {p p' : ResendPolicy} : resendName p = resendName p' ↔ p = p' := by
  cases p <;> cases p' <;> decide

@[simp] theorem formatName_inj {f f' : LogFormat} : formatName f = formatName f' ↔ f = f' := by
  cases f <;> cases f' <;> decide

@[simp] theorem durationValue_inj {d d' : Duration} : durationValue d = durationValue d' ↔ d = d' := by
  simp [durationValue,Duration.text_injective.eq_iff]

/-! ## Sections -/

/-- The fields of a section read what it is written as. -/
def Section {σ : Type} (fields : List (Field σ)) (toValue : σ → Value) : Prop :=
  Reads fields (fun s => (toValue s).members) fun _ w v => v = w

theorem Section.restated {σ : Type} {fields : List (Field σ)} {toValue : σ → Value} (reads : Section fields toValue)
    {start goal : σ} {v : Value} (restates : Restates 1 (toValue start) (toValue goal) v) (grade : Grade)
    (name : String) : readRecord grade name fields (.ofValue .json v) start = .ok goal := by
  obtain ⟨ms,rfl,restated⟩ := restates
  refine Reads.restated reads (restated.mono ?_)
  rintro name w v ⟨_,_,same⟩
  exact same

theorem read_field {σ α : Type} {key : String} {read : Document → Except Mismatch α} {put : σ → α → σ} {v : Value} {x : α}
    (value : read (.ofValue .json v) = .ok x) (s : σ) :
    (field key read put).read (.ofValue .json v) s = .ok (put s x) := by
  simp only [field,value,Except.map]

theorem statusFeed_reads : Section StatusFeed.fields StatusFeed.toValue where
  inj s s' same := by
    cases s
    cases s'
    simpa [StatusFeed.toValue,Value.members] using same
  keys s := rfl
  distinct := by decide
  read f known goal s w v member same := by
    subst same
    simp only [StatusFeed.fields,List.mem_cons,List.not_mem_nil,or_false] at known
    rcases known with rfl | rfl
    · obtain rfl : v = .string goal.url := by simpa [field,StatusFeed.toValue,Value.members] using member
      exact ⟨_,read_field (readText_string _ _) s,by simp [field,StatusFeed.toValue,Value.members]⟩
    · obtain rfl : v = durationValue goal.timeout := by simpa [field,StatusFeed.toValue,Value.members] using member
      exact ⟨_,read_field (readDuration_durationValue _) s,by simp [field,StatusFeed.toValue,Value.members]⟩

theorem peer_reads : Section Peer.fields Peer.toValue where
  inj s s' same := by
    cases s
    cases s'
    simpa [Peer.toValue,Value.members,UInt16.toNat_inj] using same
  keys s := rfl
  distinct := by decide
  read f known goal s w v member same := by
    subst same
    simp only [Peer.fields,List.mem_cons,List.not_mem_nil,or_false] at known
    rcases known with rfl | rfl | rfl | rfl
    · obtain rfl : v = .string goal.host := by simpa [field,Peer.toValue,Value.members] using member
      exact ⟨_,read_field (readText_string _ _) s,by simp [field,Peer.toValue,Value.members]⟩
    · obtain rfl : v = .nat goal.port.toNat := by simpa [field,Peer.toValue,Value.members] using member
      exact ⟨_,read_field (readBelow_nat goal.port.toNat_lt_size _) s,by simp [field,Peer.toValue,Value.members]⟩
    · obtain rfl : v = durationValue goal.connectTimeout := by simpa [field,Peer.toValue,Value.members] using member
      exact ⟨_,read_field (readDuration_durationValue _) s,by simp [field,Peer.toValue,Value.members]⟩
    · obtain rfl : v = durationValue goal.readTimeout := by simpa [field,Peer.toValue,Value.members] using member
      exact ⟨_,read_field (readDuration_durationValue _) s,by simp [field,Peer.toValue,Value.members]⟩

theorem sync_reads : Section (Sync.fields .strict) Sync.toValue where
  inj s s' same := by
    cases s
    cases s'
    simpa [Sync.toValue,Value.members,UInt64.toNat_inj] using same
  keys s := rfl
  distinct := by decide
  read f known goal s w v member same := by
    subst same
    simp only [Sync.fields,List.mem_cons,List.not_mem_nil,or_false] at known
    rcases known with rfl | rfl | rfl | rfl
    · obtain rfl : v = .nat goal.pollingDelay.toNat := by simpa [field,Sync.toValue,Value.members] using member
      exact ⟨_,read_field (readBelow_nat goal.pollingDelay.toNat_lt_size _) s,by simp [field,Sync.toValue,Value.members]⟩
    · obtain rfl : v = textsValue goal.beamModes := by simpa [field,Sync.toValue,Value.members] using member
      exact ⟨_,read_field (readTexts_textsValue _) s,by simp [field,Sync.toValue,Value.members]⟩
    · obtain rfl : v = textsValue goal.daqStates := by simpa [field,Sync.toValue,Value.members] using member
      exact ⟨_,read_field (readTexts_textsValue _) s,by simp [field,Sync.toValue,Value.members]⟩
    · obtain rfl : v = .string (resendName goal.resend) := by simpa [field,Sync.toValue,Value.members] using member
      exact ⟨_,read_field (readChoice_resend _) s,by simp [field,Sync.toValue,Value.members]⟩

theorem fileMover_reads : Section FileMover.fields FileMover.toValue where
  inj s s' same := by
    cases s
    cases s'
    simpa [FileMover.toValue,Value.members] using same
  keys s := rfl
  distinct := by decide
  read f known goal s w v member same := by
    subst same
    simp only [FileMover.fields,List.mem_cons,List.not_mem_nil,or_false] at known
    rcases known with rfl | rfl | rfl | rfl | rfl | rfl | rfl
    · obtain rfl : v = .string goal.sourceDir := by simpa [field,FileMover.toValue,Value.members] using member
      exact ⟨_,read_field (readText_string _ _) s,by simp [field,FileMover.toValue,Value.members]⟩
    · obtain rfl : v = .string goal.destDir := by simpa [field,FileMover.toValue,Value.members] using member
      exact ⟨_,read_field (readText_string _ _) s,by simp [field,FileMover.toValue,Value.members]⟩
    · obtain rfl : v = .string goal.suffix := by simpa [field,FileMover.toValue,Value.members] using member
      exact ⟨_,read_field (readText_string _ _) s,by simp [field,FileMover.toValue,Value.members]⟩
    · obtain rfl : v = .string goal.codec := by simpa [field,FileMover.toValue,Value.members] using member
      exact ⟨_,read_field (readText_string _ _) s,by simp [field,FileMover.toValue,Value.members]⟩
    · obtain rfl : v = .string goal.extension := by simpa [field,FileMover.toValue,Value.members] using member
      exact ⟨_,read_field (readText_string _ _) s,by simp [field,FileMover.toValue,Value.members]⟩
    · obtain rfl : v = durationValue goal.idleWait := by simpa [field,FileMover.toValue,Value.members] using member
      exact ⟨_,read_field (readDuration_durationValue _) s,by simp [field,FileMover.toValue,Value.members]⟩
    · obtain rfl : v = durationValue goal.errorBackoff := by simpa [field,FileMover.toValue,Value.members] using member
      exact ⟨_,read_field (readDuration_durationValue _) s,by simp [field,FileMover.toValue,Value.members]⟩

theorem log_reads : Section (Log.fields .strict) Log.toValue where
  inj s s' same := by
    cases s
    cases s'
    simpa [Log.toValue,Value.members] using same
  keys s := rfl
  distinct := by decide
  read f known goal s w v member same := by
    subst same
    simp only [Log.fields,List.mem_cons,List.not_mem_nil,or_false] at known
    rcases known with rfl | rfl
    · obtain rfl : v = .string goal.level := by simpa [field,Log.toValue,Value.members] using member
      exact ⟨_,read_field (readText_string _ _) s,by simp [field,Log.toValue,Value.members]⟩
    · obtain rfl : v = .string (formatName goal.format) := by simpa [field,Log.toValue,Value.members] using member
      exact ⟨_,read_field (readChoice_format _) s,by simp [field,Log.toValue,Value.members]⟩

/-! ## The whole -/

theorem Section.inj {σ : Type} {fields : List (Field σ)} {toValue : σ → Value} (reads : Section fields toValue)
    {s s' : σ} (same : toValue s = toValue s') : s = s' :=
  Reads.inj reads s s' (congrArg Value.members same)

/-- The sections read what the settings are written as, each put down anew. -/
theorem sections_reads : Reads (sections .strict) (fun s => s.toValue.members) fun name w v =>
    ∃ x, (name,x) ∈ ({} : Settings).toValue.members ∧ Restates 1 x w v where
  inj s s' same := by
    simp only [toValue,Value.members,List.cons.injEq,Prod.mk.injEq,true_and,and_true] at same
    obtain ⟨feed,peer,sync,mover,log⟩ := same
    cases s
    cases s'
    rw [mk.injEq]
    exact ⟨statusFeed_reads.inj feed,peer_reads.inj peer,sync_reads.inj sync,fileMover_reads.inj mover,log_reads.inj log⟩
  keys s := rfl
  distinct := by decide
  read f known goal s w v member stands := by
    obtain ⟨x,spare,restates⟩ := stands
    simp only [sections,List.mem_cons,List.not_mem_nil,or_false] at known
    rcases known with rfl | rfl | rfl | rfl | rfl
    · obtain rfl : w = goal.statusFeed.toValue := by simpa [field,toValue,Value.members] using member
      obtain rfl : x = ({} : StatusFeed).toValue := by simpa [field,toValue,Value.members] using spare
      exact ⟨_,read_field (statusFeed_reads.restated restates .strict _) s,by simp [field,toValue,Value.members]⟩
    · obtain rfl : w = goal.peer.toValue := by simpa [field,toValue,Value.members] using member
      obtain rfl : x = ({} : Peer).toValue := by simpa [field,toValue,Value.members] using spare
      exact ⟨_,read_field (peer_reads.restated restates .strict _) s,by simp [field,toValue,Value.members]⟩
    · obtain rfl : w = goal.sync.toValue := by simpa [field,toValue,Value.members] using member
      obtain rfl : x = ({} : Sync).toValue := by simpa [field,toValue,Value.members] using spare
      exact ⟨_,read_field (sync_reads.restated restates .strict _) s,by simp [field,toValue,Value.members]⟩
    · obtain rfl : w = goal.fileMover.toValue := by simpa [field,toValue,Value.members] using member
      obtain rfl : x = ({} : FileMover).toValue := by simpa [field,toValue,Value.members] using spare
      exact ⟨_,read_field (fileMover_reads.restated restates .strict _) s,by simp [field,toValue,Value.members]⟩
    · obtain rfl : w = goal.log.toValue := by simpa [field,toValue,Value.members] using member
      obtain rfl : x = ({} : Log).toValue := by simpa [field,toValue,Value.members] using spare
      exact ⟨_,read_field (log_reads.restated restates .strict _) s,by simp [field,toValue,Value.members]⟩

/-- Members that stand for themselves may stay as they are. -/
theorem Restated.refl {stands : String → Value → Value → Prop} (spare : List (String × Value)) {ms : List (String × Value)}
    (same : ∀ m ∈ ms, stands m.1 m.2 m.2) : Restated stands spare ms ms :=
  ⟨[],ms,ms,[],.refl _,List.nil_subset _,List.forall₂_same.mpr fun m member => ⟨rfl,same m member⟩,by simp,by simp⟩

theorem Reads.spare {σ : Type} {fields : List (Field σ)} {members : σ → List (String × Value)}
    {stands : String → Value → Value → Prop} (reads : Reads fields members stands) {s : σ} {m : String × Value}
    (member : m ∈ members s) (start : σ) : ∃ x, (m.1,x) ∈ members start := by
  have key : m.1 ∈ (members start).map (·.1) := by
    rw [reads.keys start,← reads.keys s]
    exact List.mem_map.mpr ⟨m,member,rfl⟩
  obtain ⟨n,inside,name⟩ := List.mem_map.mp key
  exact ⟨n.2,name ▸ inside⟩

theorem Section.restates {σ : Type} {fields : List (Field σ)} {toValue : σ → Value} (reads : Section fields toValue)
    (start : σ) {goal : σ} (object : toValue goal = .object (toValue goal).members) :
    Restates 1 (toValue start) (toValue goal) (toValue goal) := by
  refine ⟨_,object,.refl _ ?_⟩
  intro m member
  obtain ⟨x,spare⟩ := Reads.spare reads member start
  exact ⟨x,spare,rfl⟩

theorem restates_self (s : Settings) : Restates 2 ({} : Settings).toValue s.toValue s.toValue := by
  refine ⟨_,rfl,.refl _ ?_⟩
  intro m member
  simp only [toValue,Value.members,List.mem_cons,List.not_mem_nil,or_false] at member
  rcases member with rfl | rfl | rfl | rfl | rfl
  · exact ⟨_,by simp [toValue,Value.members],statusFeed_reads.restates {} rfl⟩
  · exact ⟨_,by simp [toValue,Value.members],peer_reads.restates {} rfl⟩
  · exact ⟨_,by simp [toValue,Value.members],sync_reads.restates {} rfl⟩
  · exact ⟨_,by simp [toValue,Value.members],fileMover_reads.restates {} rfl⟩
  · exact ⟨_,by simp [toValue,Value.members],log_reads.restates {} rfl⟩

/-- Settings put down anew are read as they were. -/
theorem ofValue_restates {s : Settings} {v : Value} (restates : Restates 2 ({} : Settings).toValue s.toValue v) :
    ofValue v = .ok s := by
  obtain ⟨ms,rfl,restated⟩ := restates
  exact sections_reads.restated restated

/-! ## The text -/

theorem plain_texts (texts : List String) : (textsValue texts).Plain := by
  refine .array ?_
  intro v member
  obtain ⟨text,_,rfl⟩ := List.mem_map.mp member
  exact .string text

theorem plain_toValue (s : Settings) : s.toValue.Plain := by
  have port : s.peer.port.toNat < UInt64.size := Nat.lt_trans s.peer.port.toNat_lt_size (by decide)
  have delay : s.sync.pollingDelay.toNat < UInt64.size := s.sync.pollingDelay.toNat_lt_size
  refine .object ?_
  intro m member
  simp only [List.mem_cons,List.not_mem_nil,or_false] at member
  rcases member with rfl | rfl | rfl | rfl | rfl <;> refine .object ?_ <;>
    simp only [List.forall_mem_cons,List.not_mem_nil,false_implies,implies_true,and_true]
  · exact ⟨.string _,.string _⟩
  · exact ⟨.string _,.nat port,.string _,.string _⟩
  · exact ⟨.nat delay,plain_texts _,plain_texts _,.string _⟩
  · exact ⟨.string _,.string _,.string _,.string _,.string _,.string _,.string _⟩
  · exact ⟨.string _,.string _⟩

/-- Lines as they are printed, each with its end. -/
def printed (lines : List String) : List UInt8 := lines.flatMap fun line => Utf8.ofString line ++ [Json.ascii '\n']

theorem printed_split (s : List Char) :
    printed ((Text.split (· == '\n') s).map String.ofList) = Utf8.encode s ++ [Json.ascii '\n'] := by
  have first (line : List Char) (lines : List (List Char)) : printed ((line :: lines).map String.ofList) =
      Utf8.encode line ++ Json.ascii '\n' :: printed (lines.map String.ofList) := by
    simp [printed,Utf8.ofString]
  fun_induction Text.split (· == '\n') s with
  | case1 => rfl
  | case2 c s found ih =>
    obtain rfl : c = '\n' := by simpa using found
    rw [first,ih,Json.encode_char (by decide),Json.encode_nil,List.nil_append,List.cons_append]
  | case3 c s _ none => exact absurd none (FileTree.split_ne_nil _ _)
  | case4 c s _ line lines pieces ih =>
    rw [first]
    rw [pieces,first] at ih
    rw [Utf8.encode_cons,Utf8.encode_cons,List.append_assoc,ih,List.append_assoc]

/-- What settings are written as is read as these settings, from their text and as it
is printed, and so is whatever it is put down anew as, in each of its texts. -/
theorem toValue_restated (s : Settings) :
    (∀ d : Duration, Duration.ofText d.text = .ok d) ∧
    Value.ofString s.toValue.pretty = .ok s.toValue ∧
    Value.ofBytes (printed ((Text.split (· == '\n') s.toValue.pretty.toList).map String.ofList)) = .ok s.toValue ∧
    ofValue s.toValue = .ok s ∧
    ∀ v, Restates 2 ({} : Settings).toValue s.toValue v →
      ofValue v = .ok s ∧ (ofValue v).map validate = .ok s.validate ∧
      ∀ a p b, Blank a → Denotes (.value v) p → Blank b → Value.ofBytes (a ++ p ++ b) = .ok v := by
  refine ⟨Duration.ofText_text,Json.ofString_pretty (plain_toValue s),?_,ofValue_restates (restates_self s),?_⟩
  · have text := Json.denotes_pretty (plain_toValue s) 0
    have line : Blank [Json.ascii '\n'] := by simp [Blank]
    rw [printed_split,Value.pretty,String.toList_ofList,← List.nil_append (Utf8.encode _)]
    exact Json.ofBytes_complete Json.blank_nil text line
  · intro v restates
    have read := ofValue_restates restates
    refine ⟨read,?_,fun a p b => Json.ofBytes_complete⟩
    rw [read]
    rfl

/-- Settings that differ from the defaults in a port. -/
def ported : Settings := { peer := { port := 9000 } }

/-- `ported` without what goes without saying, after a member of an unknown name. -/
def brief : Value := .object [("unknown",.null),("peer",.object [("port",.nat 9000)])]

theorem ported_restated :
    Restates 2 ({} : Settings).toValue ported.toValue brief ∧ ofValue brief = .ok ported ∧
    (ofValue brief).map validate = .ok ported.validate ∧
    Value.ofBytes ([Json.ascii ' '] ++ Utf8.encode (brief.writePretty 0) ++ [Json.ascii '\n']) = .ok brief := by
  have fields : ported.peer.toValue.members.Perm (_ :: _ ++ [("port",.nat 9000)]) :=
    .cons _ (List.perm_append_singleton _ _).symm
  have sections : ported.toValue.members.Perm (_ :: _ ++ [("peer",ported.peer.toValue)]) :=
    .cons _ (List.perm_append_singleton _ _).symm
  have port : Restates 1 ({} : Peer).toValue ported.peer.toValue (.object [("port",.nat 9000)]) := by
    refine ⟨_,rfl,_,_,_,[],fields,?_,.cons ⟨rfl,?_⟩ .nil,by simp,.refl _⟩
    · simp [ported,Peer.toValue,Value.members]
    · exact ⟨.nat 8000,by simp [Peer.toValue,Value.members],rfl⟩
  have restates : Restates 2 ({} : Settings).toValue ported.toValue brief := by
    refine ⟨_,rfl,_,_,[("peer",.object [("port",.nat 9000)])],[("unknown",.null)],sections,?_,
      .cons ⟨rfl,?_⟩ .nil,?_,.swap _ _ _⟩
    · simp [ported,toValue,Value.members]
    · exact ⟨_,by simp [toValue,Value.members],port⟩
    · simp [toValue,Value.members]
  have plain : brief.Plain := by
    refine .object ?_
    simp only [List.forall_mem_cons,List.not_mem_nil,false_implies,implies_true,and_true]
    refine ⟨.null,.object ?_⟩
    simp only [List.forall_mem_cons,List.not_mem_nil,false_implies,implies_true,and_true]
    exact .nat (by decide)
  obtain ⟨_,_,_,_,anew⟩ := toValue_restated ported
  obtain ⟨read,validated,texts⟩ := anew brief restates
  exact ⟨restates,read,validated,texts _ _ _ (by simp [Blank]) (Json.denotes_pretty plain 0) (by simp [Blank])⟩

end Lockstep.Settings
