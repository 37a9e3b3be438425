import Lockstep.Proofs.Documents

/-!
# The slots of records

What a section of the settings consists of, slot by slot: the key, the reader and the
place in the record (`parts`). A record that is read from entries has in each slot
what its own entry is read as, or what it started from, whatever the others are
(`Record.readEntries_iff`). Values without keys go to the slots in their order
(`Record.readPlaces_iff`).
-/

namespace Lockstep.Settings

/-- A place in a record: its key, the reader of its values, how to look at it and how to
fill it. -/
structure Slot (σ : Type) where
  type : Type
  key : String
  read : Document → Except Mismatch type
  get : σ → type
  put : σ → type → σ

/-- The field of a slot. -/
def Slot.field {σ : Type} (i : Slot σ) : Field σ := Settings.field i.key i.read i.put

/-- A slot holds what a document is read as, or without one what it held at the start. -/
def Slot.Takes {σ : Type} (i : Slot σ) (source? : Option Document) (start s : σ) : Prop :=
  match source? with
  | some d => i.read d = .ok (i.get s)
  | none => i.get s = i.get start

/-- Some slots make up a record: their keys differ, they hold all there is, and filling
one leaves the others as they are. -/
structure Record {σ : Type} (slots : List (Slot σ)) : Prop where
  distinct : (slots.map (·.key)).Nodup
  ext : ∀ s s', (∀ i ∈ slots, i.get s = i.get s') → s = s'
  same : ∀ i ∈ slots, ∀ d x, i.read d = .ok x → ∀ s, i.get (i.put s x) = x
  others : ∀ i ∈ slots, ∀ j ∈ slots, j.key ≠ i.key → ∀ s x, j.get (i.put s x) = j.get s

section
variable {σ : Type} {slots : List (Slot σ)} {i j : Slot σ} {entries : List (String × Document)} {start goal : σ}

theorem Record.eq_of_key (record : Record slots) (member : i ∈ slots) (member' : j ∈ slots) (same : i.key = j.key) :
    i = j :=
  List.inj_on_of_nodup_map record.distinct member member' same

theorem Record.find (record : Record slots) (member : i ∈ slots) :
    (slots.map Slot.field).find? (·.key == i.key) = some i.field := by
  rw [List.find?_map]
  obtain ⟨j,found⟩ : ∃ j, slots.find? ((fun f : Field σ => f.key == i.key) ∘ Slot.field) = some j := by
    refine Option.isSome_iff_exists.mp (List.find?_isSome.mpr ⟨i,member,?_⟩)
    simp [Slot.field,Settings.field]
  have same : j.key = i.key := by simpa [Slot.field,Settings.field] using List.find?_some found
  rw [found,record.eq_of_key (List.mem_of_find?_eq_some found) member same]
  rfl

theorem find_unknown {key : String} (unknown : ∀ i ∈ slots, i.key ≠ key) :
    (slots.map Slot.field).find? (·.key == key) = none := by
  rw [List.find?_eq_none]
  intro f member same
  obtain ⟨i,inside,rfl⟩ := List.mem_map.mp member
  exact unknown i inside (by simpa [Slot.field,Settings.field] using same)

/-- A record that is read from entries: each slot holds what its entry is read as or what
it held at the start. -/
theorem Record.readEntries_iff (record : Record slots) (distinct : (entries.map (·.1)).Nodup) :
    readEntries (slots.map Slot.field) start entries = .ok goal ↔
      ∀ i ∈ slots, i.Takes (entries.lookup i.key) start goal := by
  induction entries generalizing start with
  | nil =>
    rw [readEntries]
    constructor
    · rintro ⟨⟩ i _
      rfl
    · intro takes
      rw [record.ext start goal fun i member => (takes i member).symm]
  | cons e entries ih =>
    obtain ⟨key,d⟩ := e
    rw [List.map_cons,List.nodup_cons] at distinct
    have gone : entries.lookup key = none := Table.lookup_eq_none.mpr distinct.1
    rw [readEntries]
    by_cases known : ∃ i ∈ slots, i.key = key
    · obtain ⟨i,member,rfl⟩ := known
      rw [record.find member]
      simp only [Slot.field,field]
      cases read : i.read d with
      | error m =>
        simp only [Except.map,under]
        constructor
        · rintro ⟨⟩
        · intro takes
          have own := takes i member
          rw [List.lookup_cons_self,Slot.Takes,read] at own
          cases own
      | ok x =>
        simp only [Except.map,under]
        rw [ih distinct.2]
        refine forall₂_congr fun j member' => ?_
        by_cases same : j.key = i.key
        · obtain rfl := record.eq_of_key member' member same
          rw [gone,List.lookup_cons_self]
          simp only [Slot.Takes,read,record.same j member d x read,Except.ok.injEq,eq_comm]
        · rw [List.lookup_cons,beq_false_of_ne same]
          simp only [Slot.Takes,record.others i member j member' same]
    · have unknown : ∀ i ∈ slots, i.key ≠ key := fun i member same => known ⟨i,member,same⟩
      rw [find_unknown unknown]
      simp only
      rw [ih distinct.2]
      refine forall₂_congr fun j member => ?_
      rw [List.lookup_cons,beq_false_of_ne (unknown j member)]

/-- Values by their places are read as entries with the keys of the slots there. -/
theorem Record.readPlaces_iff (record : Record slots) {rest : List (Slot σ)} (within : rest ⊆ slots) (index : Nat)
    (start goal : σ) (items : List Document) :
    readPlaces index start (rest.map Slot.field) items = .ok goal ↔
      readEntries (slots.map Slot.field) start ((rest.map (·.key)).zip items) = .ok goal := by
  induction rest generalizing index start items with
  | nil => rfl
  | cons i rest ih =>
    obtain ⟨member,later⟩ := List.cons_subset.mp within
    cases items with
    | nil => rfl
    | cons d items =>
      rw [List.map_cons,List.map_cons,List.zip_cons_cons,readPlaces,readEntries,record.find member]
      simp only
      cases i.field.read d start with
      | error m => simp only [under,reduceCtorEq]
      | ok next => exact ih later (index + 1) next items

theorem keys_zip_sublist (keys : List String) (items : List Document) :
    ((keys.zip items).map (·.1)).Sublist keys := by
  induction keys generalizing items with
  | nil => exact .refl _
  | cons key keys ih =>
    cases items with
    | nil => exact List.nil_sublist _
    | cons d items => exact (ih items).cons_cons key

end

/-! ## The sections -/

def StatusFeed.slots : List (Slot StatusFeed) :=
  [⟨String,"url",readText .text,(·.url),fun s x => { s with url := x }⟩,
    ⟨Duration,"timeout",readDuration,(·.timeout),fun s x => { s with timeout := x }⟩]

def Peer.slots : List (Slot Peer) :=
  [⟨String,"host",readText .text,(·.host),fun s x => { s with host := x }⟩,
    ⟨Nat,"port",readBelow UInt16.size .word16,(·.port.toNat),fun s x => { s with port := UInt16.ofNat x }⟩,
    ⟨Duration,"connect_timeout",readDuration,(·.connectTimeout),fun s x => { s with connectTimeout := x }⟩,
    ⟨Duration,"read_timeout",readDuration,(·.readTimeout),fun s x => { s with readTimeout := x }⟩]

def Sync.slots : List (Slot Sync) :=
  [⟨Nat,"polling_delay_secs",readBelow UInt64.size .word64,(·.pollingDelay.toNat),
      fun s x => { s with pollingDelay := UInt64.ofNat x }⟩,
    ⟨List String,"allowed_beam_modes",readTexts,(·.beamModes),fun s x => { s with beamModes := x }⟩,
    ⟨List String,"allowed_daq_states",readTexts,(·.daqStates),fun s x => { s with daqStates := x }⟩,
    ⟨ResendPolicy,"resend_policy",readChoice .lenient "ResendPolicy"
        ([ResendPolicy.onTransition,.everyCycle].map fun p => (resendName p,p)),
      (·.resend),fun s x => { s with resend := x }⟩]

def FileMover.slots : List (Slot FileMover) :=
  [⟨String,"source_dir",readText .path,(·.sourceDir),fun s x => { s with sourceDir := x }⟩,
    ⟨String,"dest_dir",readText .path,(·.destDir),fun s x => { s with destDir := x }⟩,
    ⟨String,"suffix",readText .text,(·.suffix),fun s x => { s with suffix := x }⟩,
    ⟨String,"codec",readText .text,(·.codec),fun s x => { s with codec := x }⟩,
    ⟨String,"compressed_extension",readText .text,(·.extension),fun s x => { s with extension := x }⟩,
    ⟨Duration,"idle_wait",readDuration,(·.idleWait),fun s x => { s with idleWait := x }⟩,
    ⟨Duration,"error_backoff",readDuration,(·.errorBackoff),fun s x => { s with errorBackoff := x }⟩]

def Log.slots : List (Slot Log) :=
  [⟨String,"level",readText .text,(·.level),fun s x => { s with level := x }⟩,
    ⟨LogFormat,"format",readChoice .lenient "LogFormat" ([LogFormat.text,.json].map fun f => (formatName f,f)),
      (·.format),fun s x => { s with format := x }⟩]

/-- A section: its key, its name where it is wanted, its slots, what they hold by default,
and its place in the settings. -/
structure Part where
  type : Type
  key : String
  name : String
  slots : List (Slot type)
  start : type
  get : Settings → type
  put : Settings → type → Settings

def StatusFeed.part : Part :=
  ⟨StatusFeed,"status_feed","StatusFeedConfig",slots,{},(·.statusFeed),fun s x => { s with statusFeed := x }⟩

def Peer.part : Part := ⟨Peer,"peer","PeerConfig",slots,{},(·.peer),fun s x => { s with peer := x }⟩

def Sync.part : Part := ⟨Sync,"sync","SyncConfig",slots,{},(·.sync),fun s x => { s with sync := x }⟩

def FileMover.part : Part :=
  ⟨FileMover,"file_mover","FileMoverConfig",slots,{},(·.fileMover),fun s x => { s with fileMover := x }⟩

def Log.part : Part := ⟨Log,"log","LogConfig",slots,{},(·.log),fun s x => { s with log := x }⟩

/-- The sections. -/
def parts : List Part := [StatusFeed.part,Peer.part,Sync.part,FileMover.part,Log.part]

/-- Reads a section from its document. -/
def Part.read (p : Part) (d : Document) : Except Mismatch p.type :=
  readRecord .lenient p.name (p.slots.map Slot.field) d p.start

/-- A section as a slot of the settings. -/
def Part.slot (p : Part) : Slot Settings := ⟨p.type,p.key,p.read,p.get,p.put⟩

theorem sections_eq : sections .lenient = (parts.map Part.slot).map Slot.field := rfl

/-! ### Records -/

theorem readBelow_lt {bound n : Nat} {expected : Shape} {d : Document} (read : readBelow bound expected d = .ok n) :
    n < bound := by
  unfold readBelow at read
  split at read
  · split at read
    next below =>
      cases read
      exact below
    next => cases read
  · split at read
    next n _ range =>
      cases read
      omega
    next => cases read
  · cases read

theorem record_statusFeed : Record StatusFeed.slots where
  distinct := by decide
  ext s s' same := by
    simp only [StatusFeed.slots,List.forall_mem_cons] at same
    obtain ⟨url,timeout,_⟩ := same
    cases s
    cases s'
    rw [StatusFeed.mk.injEq]
    exact ⟨url,timeout⟩
  same i member d x read s := by
    simp only [StatusFeed.slots,List.mem_cons,List.not_mem_nil,or_false] at member
    rcases member with rfl | rfl <;> rfl
  others i member j member' differ s x := by
    simp only [StatusFeed.slots,List.mem_cons,List.not_mem_nil,or_false] at member member'
    rcases member with rfl | rfl <;> rcases member' with rfl | rfl <;> first | rfl | exact absurd rfl differ

theorem record_peer : Record Peer.slots where
  distinct := by decide
  ext s s' same := by
    simp only [Peer.slots,List.forall_mem_cons] at same
    obtain ⟨host,port,connect,reply,_⟩ := same
    cases s
    cases s'
    rw [Peer.mk.injEq]
    exact ⟨host,UInt16.toNat_inj.mp port,connect,reply⟩
  same i member d x read s := by
    simp only [Peer.slots,List.mem_cons,List.not_mem_nil,or_false] at member
    rcases member with rfl | rfl | rfl | rfl
    · rfl
    · exact UInt16.toNat_ofNat_of_lt (readBelow_lt read)
    · rfl
    · rfl
  others i member j member' differ s x := by
    simp only [Peer.slots,List.mem_cons,List.not_mem_nil,or_false] at member member'
    rcases member with rfl | rfl | rfl | rfl <;> rcases member' with rfl | rfl | rfl | rfl <;>
      first | rfl | exact absurd rfl differ

theorem record_sync : Record Sync.slots where
  distinct := by decide
  ext s s' same := by
    simp only [Sync.slots,List.forall_mem_cons] at same
    obtain ⟨delay,beam,daq,resend,_⟩ := same
    cases s
    cases s'
    rw [Sync.mk.injEq]
    exact ⟨UInt64.toNat_inj.mp delay,beam,daq,resend⟩
  same i member d x read s := by
    simp only [Sync.slots,List.mem_cons,List.not_mem_nil,or_false] at member
    rcases member with rfl | rfl | rfl | rfl
    · exact UInt64.toNat_ofNat_of_lt (readBelow_lt read)
    · rfl
    · rfl
    · rfl
  others i member j member' differ s x := by
    simp only [Sync.slots,List.mem_cons,List.not_mem_nil,or_false] at member member'
    rcases member with rfl | rfl | rfl | rfl <;> rcases member' with rfl | rfl | rfl | rfl <;>
      first | rfl | exact absurd rfl differ

theorem record_fileMover : Record FileMover.slots where
  distinct := by decide
  ext s s' same := by
    simp only [FileMover.slots,List.forall_mem_cons] at same
    obtain ⟨source,dest,suffix,codec,extension,idle,backoff,_⟩ := same
    cases s
    cases s'
    rw [FileMover.mk.injEq]
    exact ⟨source,dest,suffix,codec,extension,idle,backoff⟩
  same i member d x read s := by
    simp only [FileMover.slots,List.mem_cons,List.not_mem_nil,or_false] at member
    rcases member with rfl | rfl | rfl | rfl | rfl | rfl | rfl <;> rfl
  others i member j member' differ s x := by
    simp only [FileMover.slots,List.mem_cons,List.not_mem_nil,or_false] at member member'
    rcases member with rfl | rfl | rfl | rfl | rfl | rfl | rfl <;>
      rcases member' with rfl | rfl | rfl | rfl | rfl | rfl | rfl <;> first | rfl | exact absurd rfl differ

theorem record_log : Record Log.slots where
  distinct := by decide
  ext s s' same := by
    simp only [Log.slots,List.forall_mem_cons] at same
    obtain ⟨level,format,_⟩ := same
    cases s
    cases s'
    rw [Log.mk.injEq]
    exact ⟨level,format⟩
  same i member d x read s := by
    simp only [Log.slots,List.mem_cons,List.not_mem_nil,or_false] at member
    rcases member with rfl | rfl <;> rfl
  others i member j member' differ s x := by
    simp only [Log.slots,List.mem_cons,List.not_mem_nil,or_false] at member member'
    rcases member with rfl | rfl <;> rcases member' with rfl | rfl <;> first | rfl | exact absurd rfl differ

theorem record_parts : Record (parts.map Part.slot) where
  distinct := by decide
  ext s s' same := by
    simp only [parts,List.map_cons,List.map_nil,List.forall_mem_cons] at same
    obtain ⟨feed,peer,sync,mover,log,_⟩ := same
    cases s
    cases s'
    rw [mk.injEq]
    exact ⟨feed,peer,sync,mover,log⟩
  same i member d x read s := by
    simp only [parts,List.map_cons,List.map_nil,List.mem_cons,List.not_mem_nil,or_false] at member
    rcases member with rfl | rfl | rfl | rfl | rfl <;> rfl
  others i member j member' differ s x := by
    simp only [parts,List.map_cons,List.map_nil,List.mem_cons,List.not_mem_nil,or_false] at member member'
    rcases member with rfl | rfl | rfl | rfl | rfl <;> rcases member' with rfl | rfl | rfl | rfl | rfl <;>
      first | rfl | exact absurd rfl differ

theorem record_part : ∀ p ∈ parts, Record p.slots := by
  simp only [parts,List.forall_mem_cons]
  exact ⟨record_statusFeed,record_peer,record_sync,record_fileMover,record_log,List.forall_mem_nil _⟩

end Lockstep.Settings
