import Mathlib.Data.List.Induction
import Lockstep.Proofs.Slots
import Lockstep.Proofs.Utf8

/-!
# Where settings come from

Settings are loaded from a file and from variables slot by slot: a slot takes what
variables give it, else what the file has for it, else its default, whatever the
other slots take (`ofLayers_takes`). Nothing that is overridden is read
(`Document.alike_laid`), and only what has been taken is validated.

It takes a section that the file writes as a table. What else stands in the place of
a section, such as a list of its values, gives way as a whole as soon as a variable
names a key of the section (`Part.file?`, `port_instead_of_list`).
-/

namespace Lockstep.Settings

open Json (Value)

/-! ## Tables of one value -/

namespace Document

/-- A document that holds nothing. -/
def isNull : Document → Bool
  | .null _ => true
  | _ => false

/-- A table in which every entry holds something. No value of a slot is read from it. -/
def Barren (d : Document) : Prop := ∃ o es, d = .table o es ∧ ∀ e ∈ es, e.2.isNull = false

/-- The entries of a table. -/
def entries : Document → List (String × Document)
  | .table _ es => es
  | _ => []

theorem entries_eq_nil {d : Document} (other : d.isTable = false) : d.entries = [] := by
  cases d with
  | table => cases other
  | null | bool | unsigned | signed | float | char | text | list => rfl

/-- A document that holds something, as do its entries. -/
def Filled (d : Document) : Prop := d.isNull = false ∧ ∀ e ∈ d.entries, e.2.isNull = false

/-- All there is in a table is filled. -/
def Rich (es : List (String × Document)) : Prop := ∀ key d, es.lookup key = some d → d.Filled

section
variable {lower upper d : Document} {below above : List (String × Document)}

theorem isNull_overlay (some : upper.isNull = false) : (lower.overlay upper).isNull = false := by
  rcases overlay_cases lower upper with same | ⟨_,_,_,_,_,_,table⟩
  · rw [same]
    exact some
  · rw [table]
    rfl

theorem isNull_overlayEntries (low : ∀ e ∈ below, e.2.isNull = false)
    (high : ∀ e ∈ above, e.2.isNull = false) :
    ∀ e ∈ overlayEntries below above, e.2.isNull = false := by
  induction above generalizing below with
  | nil =>
    rw [overlayEntries]
    exact low
  | cons e above ih =>
    obtain ⟨key,d⟩ := e
    obtain ⟨first,later⟩ := List.forall_mem_cons.mp high
    rw [overlayEntries]
    refine ih ?_ later
    intro e member
    rcases mem_insertEntry member with rfl | there
    · cases below.lookup key with
      | none => exact first
      | some lower => exact isNull_overlay first
    · exact low e there

theorem rich_nil : Rich [] := by
  intro key d none
  cases none

/-- Two documents in one place: the same, or two that no value of a slot is read from. -/
def Alike (a b : Option Document) : Prop := a = b ∨ ∃ d d', a = some d ∧ b = some d' ∧ d.Barren ∧ d'.Barren

theorem Alike.symm {a b : Option Document} (alike : Alike a b) : Alike b a := by
  rcases alike with rfl | ⟨d,d',rfl,rfl,barren,barren'⟩
  · exact .inl rfl
  · exact .inr ⟨d',d,rfl,rfl,barren',barren⟩

theorem Alike.or {a b : Option Document} (alike : Alike a b) (c : Option Document) : Alike (a.or c) (b.or c) := by
  rcases alike with rfl | ⟨d,d',rfl,rfl,barren,barren'⟩
  · exact .inl rfl
  · exact .inr ⟨d,d',rfl,rfl,barren,barren'⟩

/-- What is laid over something takes its place, unless no value is read from it anyway. -/
theorem alike_laid {lower? : Option Document}
    (low : ∀ d, lower? = some d → ∀ e ∈ d.entries, e.2.isNull = false) (high : upper.Filled) :
    Alike (some (laid lower? upper)) (some upper) := by
  cases lower? with
  | none => exact .inl rfl
  | some lower =>
    rcases overlay_cases lower upper with same | ⟨o,below,o',above,rfl,rfl,table⟩
    · exact .inl (congrArg some same)
    · refine .inr ⟨_,_,rfl,rfl,⟨o',_,table,?_⟩,o',above,rfl,high.2⟩
      exact isNull_overlayEntries (low _ rfl) high.2

theorem filled_laid {lower? : Option Document}
    (low : ∀ d, lower? = some d → ∀ e ∈ d.entries, e.2.isNull = false) (high : upper.Filled) :
    (laid lower? upper).Filled := by
  rcases alike_laid low high with same | ⟨d,_,whole,_,⟨o,es,rfl,some⟩,_⟩
  · rwa [Option.some.inj same]
  · rw [Option.some.inj whole]
    exact ⟨rfl,some⟩

end

end Document

open Document (Filled Rich rich_nil Barren Alike alike_laid filled_laid lookup_overlayEntries
  ascending_overlayEntries laid)

/-! ## The environment -/

/-- What a variable gives: a value at two keys, or nothing. -/
def Spelled (vars : List (String × String)) : Prop :=
  ∀ v ∈ vars, ∀ keys, Environment.keys? v.1 = some keys → keys.length = 2

/-- The value of some variables for a key of a section; of several the last counts. -/
def setting? (vars : List (String × String)) (part key : String) : Option Document :=
  (vars.reverse.find? fun v => Environment.keys? v.1 == some [part,key]).map fun v => Environment.value v.2

/-- Whether a variable names a key of a section. -/
def names (vars : List (String × String)) (part : String) : Bool :=
  vars.any fun v => (Environment.keys? v.1).bind List.head? == some part

/-! ### Values -/

theorem mem_readElements {α : Type} {closing : Char} {element : List Char → Option (α × List Char)} {steps : Nat}
    {s t : List Char} {xs : List α} (read : Environment.readElements closing element steps s = some (xs,t)) :
    ∀ x ∈ xs, ∃ s t, element s = some (x,t) := by
  induction steps generalizing s xs t with
  | zero => cases read
  | succ steps ih =>
    unfold Environment.readElements at read
    split at read
    · rw [Option.bind_eq_some_iff] at read
      obtain ⟨_,_,none⟩ := read
      cases none
    split at read
    · cases read
      exact List.forall_mem_nil _
    obtain ⟨⟨x,rest⟩,first,more⟩ := Option.bind_eq_some_iff.mp read
    simp only at more
    split at more
    · obtain ⟨⟨ys,_⟩,later,same⟩ := Option.map_eq_some_iff.mp more
      cases same
      intro y member
      rcases List.mem_cons.mp member with rfl | inside
      · exact ⟨_,_,first⟩
      · exact ih later y inside
    · split at more
      · cases more
        intro y member
        rw [List.mem_singleton.mp member]
        exact ⟨_,_,first⟩
      · cases more
    · cases more

theorem mem_tableOf {α : Type} {entries : List (String × α)} {e : String × α} (member : e ∈ tableOf entries) :
    e ∈ entries := by
  induction entries using List.reverseRecOn with
  | nil => cases member
  | append_singleton entries last ih =>
    rw [tableOf,List.foldl_append,List.foldl_cons,List.foldl_nil,← tableOf] at member
    rcases mem_insertEntry member with rfl | before
    · exact List.mem_append_right _ List.mem_cons_self
    · exact List.mem_append_left _ (ih before)

theorem filled_bareValue (s : List Char) : (Environment.bareValue s).Filled := by
  unfold Environment.bareValue
  split
  · split
    · exact ⟨rfl,List.forall_mem_nil _⟩
    · exact ⟨rfl,List.forall_mem_nil _⟩
  · split
    · exact ⟨rfl,List.forall_mem_nil _⟩
    · split
      · exact ⟨rfl,List.forall_mem_nil _⟩
      · exact ⟨rfl,List.forall_mem_nil _⟩

theorem exists_of_readEntry {value : List Char → Option (Document × List Char)} {s t : List Char}
    {e : String × Document} (read : Environment.readEntry value s = some (e,t)) :
    ∃ s t, value s = some (e.2,t) := by
  unfold Environment.readEntry at read
  obtain ⟨⟨key,rest⟩,_,more⟩ := Option.bind_eq_some_iff.mp read
  simp only at more
  split at more
  · obtain ⟨⟨v,_⟩,found,same⟩ := Option.map_eq_some_iff.mp more
    cases same
    exact ⟨_,_,found⟩
  · cases more

theorem filled_readValue {depth : Nat} {s t : List Char} {d : Document}
    (read : Environment.readValue depth s = some (d,t)) : d.Filled := by
  induction depth generalizing s t d with
  | zero => cases read
  | succ depth ih =>
    rw [Environment.readValue] at read
    obtain ⟨⟨v,rest⟩,found,same⟩ := Option.map_eq_some_iff.mp read
    cases same
    split at found
    · cases found
      exact ⟨rfl,List.forall_mem_nil _⟩
    split at found
    · cases found
      exact ⟨rfl,List.forall_mem_nil _⟩
    split at found
    · obtain ⟨⟨entries,_⟩,elements,same⟩ := Option.map_eq_some_iff.mp found
      cases same
      refine ⟨rfl,fun e member => ?_⟩
      obtain ⟨_,_,entry⟩ := mem_readElements elements e (mem_tableOf member)
      obtain ⟨_,_,value⟩ := exists_of_readEntry entry
      exact (ih value).1
    · obtain ⟨⟨items,_⟩,_,same⟩ := Option.map_eq_some_iff.mp found
      cases same
      exact ⟨rfl,List.forall_mem_nil _⟩
    · obtain ⟨⟨text,_⟩,_,same⟩ := Option.map_eq_some_iff.mp found
      cases same
      exact ⟨rfl,List.forall_mem_nil _⟩
    · cases found
      exact ⟨rfl,List.forall_mem_nil _⟩
    · cases found
    · cases found
      exact filled_bareValue _

theorem filled_value (text : String) : (Environment.value text).Filled := by
  unfold Environment.value
  split
  next v read => exact filled_readValue read
  · exact ⟨rfl,List.forall_mem_nil _⟩

/-! ### The layer -/

/-- Entries of a section are what variables give for its keys. -/
structure Shows (vars : List (String × String)) (part : String) (ks : List (String × Document)) : Prop where
  ascending : Ascending ks
  rich : Rich ks
  alike : ∀ key, Alike (ks.lookup key) (setting? vars part key)

/-- A table of the environment holds what variables give, section by section. -/
structure Mirrors (vars : List (String × String)) (es : List (String × Document)) : Prop where
  ascending : Ascending es
  unnamed : ∀ part, es.lookup part = none → names vars part = false
  named : ∀ part d, es.lookup part = some d → names vars part = true ∧
    ∃ ks, d = .table .environment ks ∧ Shows vars part ks

section
variable {vars : List (String × String)} {es ks : List (String × Document)} {name text part key : String}

theorem setting?_append (vars : List (String × String)) (name text part key : String) :
    setting? (vars ++ [(name,text)]) part key =
      if Environment.keys? name = some [part,key] then some (Environment.value text) else setting? vars part key := by
  rw [setting?,List.reverse_append,List.reverse_singleton,List.singleton_append,List.find?_cons]
  by_cases own : Environment.keys? name = some [part,key]
  · simp [own]
  · rw [if_neg own,beq_false_of_ne own]
    rfl

theorem names_append (vars : List (String × String)) (name text part : String) :
    names (vars ++ [(name,text)]) part =
      (names vars part || (Environment.keys? name).bind List.head? == some part) := by
  simp [names]

theorem setting?_unnamed (unnamed : names vars part = false) (key : String) : setting? vars part key = none := by
  rw [setting?,Option.map_eq_none_iff,List.find?_eq_none]
  intro v member same
  have other := List.any_eq_false.mp unnamed v (List.mem_reverse.mp member)
  rw [eq_of_beq same] at other
  exact other (by simp)

theorem shows_nothing (unnamed : names vars part = false) : Shows vars part [] := by
  refine ⟨ascending_nil,rich_nil,fun key => .inl ?_⟩
  rw [setting?_unnamed unnamed]
  rfl

/-- A variable that does not name a key of the section. -/
theorem Shows.skip (shows : Shows vars part ks) (other : ∀ key, Environment.keys? name ≠ some [part,key]) :
    Shows (vars ++ [(name,text)]) part ks := by
  refine ⟨shows.ascending,shows.rich,fun key => ?_⟩
  rw [setting?_append,if_neg (other key)]
  exact shows.alike key

/-- A variable that names a key of the section. -/
theorem Shows.add (shows : Shows vars part ks) (keys : Environment.keys? name = some [part,key]) :
    Shows (vars ++ [(name,text)]) part (Document.overlayEntries ks [(key,Environment.value text)]) := by
  have low : ∀ d, ks.lookup key = some d → ∀ e ∈ d.entries, e.2.isNull = false := fun d there =>
    (shows.rich key d there).2
  refine ⟨ascending_overlayEntries shows.ascending,fun k d found => ?_,fun k => ?_⟩
  · rw [Document.lookup_overlayEntries_single] at found
    by_cases own : k = key
    · rw [if_pos own] at found
      obtain rfl := Option.some.inj found
      exact filled_laid low (filled_value text)
    · rw [if_neg own] at found
      exact shows.rich k d found
  · rw [Document.lookup_overlayEntries_single,setting?_append,keys]
    by_cases own : k = key
    · rw [if_pos own,if_pos (by rw [own])]
      exact alike_laid low (filled_value text)
    · rw [if_neg own,if_neg (by simpa using Ne.symm own)]
      exact shows.alike k

theorem Mirrors.skip (mirrors : Mirrors vars es) (none : Environment.keys? name = none) :
    Mirrors (vars ++ [(name,text)]) es := by
  have same (part : String) : names (vars ++ [(name,text)]) part = names vars part := by
    rw [names_append,none]
    exact Bool.or_false _
  refine ⟨mirrors.ascending,fun part absent => ?_,fun part d there => ?_⟩
  · rw [same]
    exact mirrors.unnamed part absent
  · obtain ⟨named,ks,table,shows⟩ := mirrors.named part d there
    exact ⟨(same part).trans named,ks,table,shows.skip fun key => by simp [none]⟩

/-- What stands for a section is laid under a further key as a table, if only as an
empty one. -/
theorem Mirrors.section_laid (mirrors : Mirrors vars es) (part : String) (e : String × Document) :
    ∃ ks, laid (es.lookup part) (.table .environment [e]) =
      .table .environment (Document.overlayEntries ks [e]) ∧ Shows vars part ks := by
  cases before : es.lookup part with
  | none =>
    refine ⟨[],?_,shows_nothing (mirrors.unnamed part before)⟩
    rw [Document.overlayEntries,Document.overlayEntries]
    rfl
  | some d =>
    obtain ⟨_,ks,rfl,shows⟩ := mirrors.named part d before
    exact ⟨ks,Document.overlay_table .environment .environment ks _,shows⟩

theorem Mirrors.add (mirrors : Mirrors vars es) (keys : Environment.keys? name = some [part,key]) :
    ∃ es', (Document.table .environment es).overlay (Environment.nest (Environment.value text) [part,key]) =
      .table .environment es' ∧ Mirrors (vars ++ [(name,text)]) es' := by
  obtain ⟨ks,table,shows⟩ := mirrors.section_laid part (key,Environment.value text)
  refine ⟨_,Document.overlay_table .environment .environment es _,
    ascending_overlayEntries mirrors.ascending,?_,?_⟩
  · intro other absent
    rw [Environment.nest,Environment.nest,Document.lookup_overlayEntries_single] at absent
    by_cases same : other = part
    · rw [if_pos same] at absent
      cases absent
    · rw [if_neg same] at absent
      rw [names_append,mirrors.unnamed other absent,keys]
      simpa using Ne.symm same
  · intro other d there
    rw [Environment.nest,Environment.nest,Document.lookup_overlayEntries_single] at there
    by_cases same : other = part
    · subst same
      rw [if_pos rfl,table] at there
      obtain rfl := Option.some.inj there
      exact ⟨by simp [names_append,keys],_,rfl,shows.add keys⟩
    · rw [if_neg same] at there
      obtain ⟨named,ks',table',shows'⟩ := mirrors.named other d there
      exact ⟨by simp [names_append,named],ks',table',shows'.skip fun k => by simp [keys,Ne.symm same]⟩

theorem mirrors_environmentLayer (spelled : Spelled vars) :
    ∃ es, environmentLayer vars = .table .environment es ∧ Mirrors vars es := by
  induction vars using List.reverseRecOn with
  | nil => exact ⟨[],rfl,ascending_nil,fun _ _ => rfl,fun _ _ none => by cases none⟩
  | append_singleton vars v ih =>
    obtain ⟨name,text⟩ := v
    obtain ⟨es,layer,mirrors⟩ := ih fun v member => spelled v (List.mem_append_left _ member)
    rw [environmentLayer,List.foldl_append,List.foldl_cons,List.foldl_nil,← environmentLayer,layer]
    cases keys : Environment.keys? name with
    | none =>
      simp only [keys]
      exact ⟨es,rfl,mirrors.skip keys⟩
    | some keys' =>
      obtain ⟨part,key,rfl⟩ := List.length_eq_two.mp (spelled (name,text) (by simp) keys' keys)
      simp only [keys]
      exact mirrors.add keys

end

/-! ## The file -/

section
variable {o o' : Origin} {v : Toml.Value} {es built : List (String × Document)}

theorem isNull_ofToml (o : Origin) (v : Toml.Value) : (Document.ofToml o v).isNull = false := by
  cases v <;> rfl

theorem mem_ofTomlEntries {entries : List (String × Toml.Value)} {e : String × Document}
    (member : e ∈ Document.ofTomlEntries o entries built) : (∃ w, e.2 = .ofToml o w) ∨ e ∈ built := by
  induction entries generalizing built with
  | nil => exact .inr member
  | cons first entries ih =>
    obtain ⟨key,w⟩ := first
    rw [Document.ofTomlEntries] at member
    rcases ih member with found | before
    · exact .inl found
    · rcases mem_insertEntry before with rfl | earlier
      · exact .inl ⟨w,rfl⟩
      · exact .inr earlier

theorem ascending_ofTomlEntries {entries : List (String × Toml.Value)} (ascending : Ascending built) :
    Ascending (Document.ofTomlEntries o entries built) := by
  induction entries generalizing built with
  | nil => exact ascending
  | cons first entries ih => exact ih (ascending_insertEntry ascending)

/-- The keys of a file's table ascend, and its entries come from values. -/
theorem exists_of_ofToml (table : Document.ofToml o v = .table o' es) :
    Ascending es ∧ ∀ e ∈ es, ∃ w, e.2 = .ofToml o w := by
  unfold Document.ofToml at table
  split at table <;> cases table
  next s =>
    refine ⟨List.pairwise_singleton _ _,fun e member => ⟨.text s,?_⟩⟩
    rw [List.mem_singleton.mp member]
    rfl
  · refine ⟨ascending_ofTomlEntries ascending_nil,fun e member => ?_⟩
    rcases mem_ofTomlEntries member with found | none
    · exact found
    · cases none

theorem filled_ofToml (o : Origin) (v : Toml.Value) : (Document.ofToml o v).Filled := by
  refine ⟨isNull_ofToml o v,fun e member => ?_⟩
  cases table : Document.ofToml o v with
  | table o' es =>
    rw [table] at member
    obtain ⟨w,same⟩ := (exists_of_ofToml table).2 e member
    rw [same]
    exact isNull_ofToml o w
  | null | bool | unsigned | signed | float | char | text | list =>
    rw [table] at member
    cases member

theorem exists_of_fileLayer {file : Option (String × List UInt8)} {layer : Document}
    (found : fileLayer file = .ok layer) :
    ∃ o es, layer = .table o es ∧ Ascending es ∧ ∀ e ∈ es, ∃ o v, e.2 = .ofToml o v := by
  unfold fileLayer at found
  split at found
  · cases found
    exact ⟨_,_,rfl,ascending_nil,List.forall_mem_nil _⟩
  split at found
  · cases found
  split at found
  · cases found
  next name _ _ _ _ _ entries _ =>
    cases found
    obtain ⟨ascending,each⟩ := exists_of_ofToml (o := .file name) (v := .table entries) rfl
    exact ⟨_,_,rfl,ascending,fun e member => ⟨_,each e member⟩⟩

end

/-! ## The defaults -/

/-- Entries give every slot what it holds at the start. -/
def Fresh {σ : Type} (slots : List (Slot σ)) (start : σ) (entries : List (String × Document)) : Prop :=
  ∀ i ∈ slots, ∃ d, entries.lookup i.key = some d ∧ d.isTable = false ∧ i.read d = .ok (i.get start)

/-- What the members of an object give slots by default. -/
theorem fresh_ofMembers {σ : Type} {slots : List (Slot σ)} {start : σ} {ms : List (String × Value)}
    (distinct : (ms.map (·.1)).Nodup)
    (each : ∀ i ∈ slots, ∃ v, ms.lookup i.key = some v ∧ (Document.ofValue .defaults v).isTable = false ∧
      i.read (.ofValue .defaults v) = .ok (i.get start)) :
    Fresh slots start (Document.ofMembers .defaults ms []) := by
  intro i member
  obtain ⟨v,found,other,read⟩ := each i member
  exact ⟨_,by rw [lookup_ofMembers distinct,found],other,read⟩

theorem fresh_statusFeed :
    Fresh StatusFeed.slots {} (Document.ofMembers .defaults ({} : StatusFeed).toValue.members []) := by
  refine fresh_ofMembers (by decide) ?_
  simp only [StatusFeed.slots,List.forall_mem_cons]
  exact ⟨⟨.string _,rfl,rfl,readText_string _ _⟩,⟨.string _,rfl,rfl,readDuration_durationValue _⟩,
    List.forall_mem_nil _⟩

theorem fresh_peer : Fresh Peer.slots {} (Document.ofMembers .defaults ({} : Peer).toValue.members []) := by
  refine fresh_ofMembers (by decide) ?_
  simp only [Peer.slots,List.forall_mem_cons]
  exact ⟨⟨.string _,rfl,rfl,readText_string _ _⟩,⟨.nat _,rfl,rfl,readBelow_nat (by decide) _⟩,
    ⟨.string _,rfl,rfl,readDuration_durationValue _⟩,⟨.string _,rfl,rfl,readDuration_durationValue _⟩,
    List.forall_mem_nil _⟩

theorem fresh_sync : Fresh Sync.slots {} (Document.ofMembers .defaults ({} : Sync).toValue.members []) := by
  refine fresh_ofMembers (by decide) ?_
  simp only [Sync.slots,List.forall_mem_cons]
  exact ⟨⟨.nat _,rfl,rfl,readBelow_nat (by decide) _⟩,⟨.array _,rfl,rfl,readTexts_textsValue _⟩,
    ⟨.array _,rfl,rfl,readTexts_textsValue _⟩,⟨.string _,rfl,rfl,readChoice_resend _⟩,List.forall_mem_nil _⟩

theorem fresh_fileMover :
    Fresh FileMover.slots {} (Document.ofMembers .defaults ({} : FileMover).toValue.members []) := by
  refine fresh_ofMembers (by decide) ?_
  simp only [FileMover.slots,List.forall_mem_cons]
  exact ⟨⟨.string _,rfl,rfl,readText_string _ _⟩,⟨.string _,rfl,rfl,readText_string _ _⟩,
    ⟨.string _,rfl,rfl,readText_string _ _⟩,⟨.string _,rfl,rfl,readText_string _ _⟩,
    ⟨.string _,rfl,rfl,readText_string _ _⟩,⟨.string _,rfl,rfl,readDuration_durationValue _⟩,
    ⟨.string _,rfl,rfl,readDuration_durationValue _⟩,List.forall_mem_nil _⟩

theorem fresh_log : Fresh Log.slots {} (Document.ofMembers .defaults ({} : Log).toValue.members []) := by
  refine fresh_ofMembers (by decide) ?_
  simp only [Log.slots,List.forall_mem_cons]
  exact ⟨⟨.string _,rfl,rfl,readText_string _ _⟩,⟨.string _,rfl,rfl,readChoice_format _⟩,
    List.forall_mem_nil _⟩

theorem defaults_fresh : ∃ ds, defaultsLayer = .table .defaults ds ∧ Ascending ds ∧
    ∀ p ∈ parts, ∃ dn, ds.lookup p.key = some (.table .defaults dn) ∧ Ascending dn ∧
      Fresh p.slots p.start dn := by
  refine ⟨Document.ofMembers .defaults ({} : Settings).toValue.members [],rfl,
    ascending_ofMembers ascending_nil,?_⟩
  have distinct : (({} : Settings).toValue.members.map (·.1)).Nodup := by decide
  simp only [parts,List.forall_mem_cons,lookup_ofMembers distinct]
  exact ⟨⟨_,rfl,ascending_ofMembers ascending_nil,fresh_statusFeed⟩,
    ⟨_,rfl,ascending_ofMembers ascending_nil,fresh_peer⟩,
    ⟨_,rfl,ascending_ofMembers ascending_nil,fresh_sync⟩,
    ⟨_,rfl,ascending_ofMembers ascending_nil,fresh_fileMover⟩,
    ⟨_,rfl,ascending_ofMembers ascending_nil,fresh_log⟩,List.forall_mem_nil _⟩

/-! ## Sections -/

/-- No value of a slot is read from a table in which every entry holds something. -/
def Dull {σ : Type} (slots : List (Slot σ)) : Prop :=
  ∀ i ∈ slots, ∀ d : Document, d.Barren → ∀ x, i.read d ≠ .ok x

section
variable {σ : Type} {i : Slot σ} {slots : List (Slot σ)} {start goal : σ} {a b : Option Document}
  {dn fs es : List (String × Document)}

theorem Slot.takes_congr (dull : ∀ d, d.Barren → ∀ x, i.read d ≠ .ok x) (alike : Alike a b) :
    i.Takes a start goal ↔ i.Takes b start goal := by
  rcases alike with rfl | ⟨d,d',rfl,rfl,barren,barren'⟩
  · exact Iff.rfl
  · exact ⟨fun read => absurd read (dull d barren _),fun read => absurd read (dull d' barren' _)⟩

/-- A record that is read from the layers of a section: a slot takes what the upper layer
has for it, or the lower, or what it starts from. -/
theorem Record.readEntries_layers (record : Record slots) (dull : Dull slots)
    (fresh : Fresh slots start dn) (ascending : Ascending dn) (low : Ascending fs) (high : Ascending es)
    (rich : Rich fs) (rich' : Rich es) :
    readEntries (slots.map Slot.field) start
        (Document.overlayEntries (Document.overlayEntries dn fs) es) = .ok goal ↔
      ∀ i ∈ slots, i.Takes ((es.lookup i.key).or (fs.lookup i.key)) start goal := by
  rw [record.readEntries_iff (ascending_overlayEntries (ascending_overlayEntries ascending)).nodup]
  refine forall₂_congr fun i member => ?_
  obtain ⟨d,found,solid,read⟩ := fresh i member
  rw [lookup_overlayEntries high.nodup,lookup_overlayEntries low.nodup,found]
  cases below : fs.lookup i.key with
  | none =>
    cases above : es.lookup i.key with
    | none => simp only [Option.or,Slot.Takes,read,Except.ok.injEq,eq_comm]
    | some e =>
      refine Slot.takes_congr (dull i member) (alike_laid ?_ (rich' _ e above))
      intro d' same e' inside
      rw [← Option.some.inj same,Document.entries_eq_nil solid] at inside
      cases inside
  | some f =>
    -- The default is no table, so what the file has stands for itself. With what the
    -- environment has it may be merged, but then no value is read from either.
    have own : laid (some d) f = f := Document.overlay_lower solid
    simp only [own]
    cases above : es.lookup i.key with
    | none => exact Iff.rfl
    | some e =>
      refine Slot.takes_congr (dull i member) (alike_laid ?_ (rich' _ e above))
      intro d' same
      rw [← Option.some.inj same]
      exact (rich _ f below).2

theorem Record.readEntries_layer (record : Record slots) (dull : Dull slots) (fresh : Fresh slots start dn)
    (ascending : Ascending dn) (low : Ascending fs) (rich : Rich fs) :
    readEntries (slots.map Slot.field) start (Document.overlayEntries dn fs) = .ok goal ↔
      ∀ i ∈ slots, i.Takes (fs.lookup i.key) start goal := by
  have layers : readEntries (slots.map Slot.field) start
      (Document.overlayEntries (Document.overlayEntries dn fs) []) = .ok goal ↔ _ :=
    record.readEntries_layers dull fresh ascending low ascending_nil rich rich_nil
  rwa [Document.overlayEntries_nil] at layers

end

theorem dull_choice {α : Type} {name : String} {choices : List (String × α)} {d : Document}
    (barren : d.Barren) (x : α) : readChoice .lenient name choices d ≠ .ok x := by
  obtain ⟨o,es,rfl,some⟩ := barren
  cases es with
  | nil => rintro ⟨⟩
  | cons e es =>
    obtain ⟨key,content⟩ := e
    have first : content.isNull = false := some (key,content) List.mem_cons_self
    have nothing : readNothing content = mismatch content (.wrongType content .nothing) := by
      cases content with
      | null => cases first
      | bool | unsigned | signed | float | char | text | list | table => rfl
    rw [readChoice,if_neg (by simp),nothing]
    cases choose content choices key with
    | error m => rintro ⟨⟩
    | ok y => rintro ⟨⟩

theorem dull_parts : ∀ p ∈ parts, Dull p.slots := by
  have text (expected : Shape) : ∀ d : Document, d.Barren → ∀ x, readText expected d ≠ .ok x := by
    rintro d ⟨o,es,rfl,_⟩ x ⟨⟩
  have number (bound : Nat) (expected : Shape) :
      ∀ d : Document, d.Barren → ∀ x, readBelow bound expected d ≠ .ok x := by
    rintro d ⟨o,es,rfl,_⟩ x ⟨⟩
  have texts : ∀ d : Document, d.Barren → ∀ x, readTexts d ≠ .ok x := by
    rintro d ⟨o,es,rfl,_⟩ x ⟨⟩
  have duration : ∀ d : Document, d.Barren → ∀ x, readDuration d ≠ .ok x := by
    rintro d ⟨o,es,rfl,_⟩ x ⟨⟩
  have feed : Dull StatusFeed.slots := by
    simp only [Dull,StatusFeed.slots,List.forall_mem_cons]
    exact ⟨text _,duration,List.forall_mem_nil _⟩
  have peer : Dull Peer.slots := by
    simp only [Dull,Peer.slots,List.forall_mem_cons]
    exact ⟨text _,number _ _,duration,duration,List.forall_mem_nil _⟩
  have sync : Dull Sync.slots := by
    simp only [Dull,Sync.slots,List.forall_mem_cons]
    exact ⟨number _ _,texts,texts,fun _ => dull_choice,List.forall_mem_nil _⟩
  have mover : Dull FileMover.slots := by
    simp only [Dull,FileMover.slots,List.forall_mem_cons]
    exact ⟨text _,text _,text _,text _,text _,duration,duration,List.forall_mem_nil _⟩
  have log : Dull Log.slots := by
    simp only [Dull,Log.slots,List.forall_mem_cons]
    exact ⟨text _,fun _ => dull_choice,List.forall_mem_nil _⟩
  simp only [parts,List.forall_mem_cons]
  exact ⟨feed,peer,sync,mover,log,List.forall_mem_nil _⟩

theorem readRecord_list {σ : Type} {name : String} {fields : List (Field σ)} {o : Origin} {items : List Document}
    {start goal : σ} :
    readRecord .lenient name fields (.list o items) start = .ok goal ↔
      readPlaces 0 start fields items = .ok goal := by
  rw [readRecord]
  cases readPlaces 0 start fields items with
  | error m => simp only [reduceCtorEq]
  | ok next =>
    simp only [reduceCtorEq,false_and,if_false]

/-- An entry of a table. -/
def Document.child? (d : Document) (key : String) : Option Document :=
  match d with
  | .table _ es => es.lookup key
  | _ => none

/-- The entries that a file has for a section. A list has its values at the keys of the
slots in their order; it gives way as a whole to variables that name keys of the
section, and so does any other value, which is no section by itself. -/
def Part.file? (p : Part) (layer : Document) (vars : List (String × String)) : Option (List (String × Document)) :=
  match layer.child? p.key with
  | none => some []
  | some (.table _ es) => some es
  | some d =>
    if names vars p.key then some []
    else match d with
      | .list _ items => some ((p.slots.map (·.key)).zip items)
      | _ => none

section
variable {p : Part} {d : Document} {vars : List (String × String)} {goal : p.type}
  {dn fs ks entries : List (String × Document)}

/-- Each slot of a section takes what variables give it, else what entries have for it,
else its default. -/
def Part.Takes (p : Part) (vars : List (String × String)) (entries : List (String × Document)) (s : p.type) : Prop :=
  ∀ i ∈ p.slots, i.Takes ((setting? vars p.key i.key).or (entries.lookup i.key)) p.start s

theorem Part.takes_unnamed (unnamed : names vars p.key = false) :
    p.Takes vars entries goal ↔ ∀ i ∈ p.slots, i.Takes (entries.lookup i.key) p.start goal := by
  refine forall₂_congr fun i _ => ?_
  rw [setting?_unnamed unnamed,Option.none_or]

/-- A section without a variable and without an entry is as it starts. -/
theorem Part.takes_nothing (p : Part) (unnamed : names vars p.key = false) : p.Takes vars [] p.start :=
  (takes_unnamed unnamed).mpr fun _ _ => rfl

theorem Part.takes_named (member : p ∈ parts) (shows : Shows vars p.key ks) :
    p.Takes vars entries goal ↔
      ∀ i ∈ p.slots, i.Takes ((ks.lookup i.key).or (entries.lookup i.key)) p.start goal :=
  forall₂_congr fun i inside => Slot.takes_congr (dull_parts p member i inside) ((shows.alike i.key).or _).symm

/-- A list is read by its places. -/
theorem Part.read_list (member : p ∈ parts) (o : Origin) (items : List Document) :
    p.read (.list o items) = .ok goal ↔
      ∀ i ∈ p.slots, i.Takes (((p.slots.map (·.key)).zip items).lookup i.key) p.start goal := by
  have record := record_part p member
  rw [← record.readEntries_iff (record.distinct.sublist (keys_zip_sublist _ items)),
    ← record.readPlaces_iff (List.Subset.refl _) 0]
  exact readRecord_list

/-- What the file makes of a section's defaults. -/
def below (dn : List (String × Document)) (file? : Option Document) : Document :=
  match file? with
  | some d => (Document.table .defaults dn).overlay d
  | none => .table .defaults dn

/-- The sections of a layer come from a file. -/
def Stems (layer : Document) : Prop := ∀ key d, layer.child? key = some d → ∃ o v, d = .ofToml o v

theorem rich_of_stems {layer : Document} {key : String} {o : Origin} {fs : List (String × Document)}
    (stems : Stems layer) (entry : layer.child? key = some (.table o fs)) : Ascending fs ∧ Rich fs := by
  obtain ⟨o',v,table⟩ := stems key _ entry
  obtain ⟨ascending,each⟩ := exists_of_ofToml table.symm
  refine ⟨ascending,fun key d found => ?_⟩
  obtain ⟨w,same⟩ := each _ (Table.mem_of_lookup found)
  rw [show d = .ofToml o' w from same]
  exact filled_ofToml o' w

/-- A section of which no variable names a key. -/
theorem Part.read_unnamed (member : p ∈ parts) (fresh : Fresh p.slots p.start dn) (ascending : Ascending dn)
    {layer : Document} (stems : Stems layer) (unnamed : names vars p.key = false) :
    p.read (below dn (layer.child? p.key)) = .ok goal ↔
      ∃ entries, p.file? layer vars = some entries ∧ p.Takes vars entries goal := by
  have record := record_part p member
  have dull := dull_parts p member
  simp only [Part.takes_unnamed unnamed]
  cases entry : layer.child? p.key with
  | none =>
    simp only [file?,entry,Option.some.injEq,exists_eq_left']
    have plain : p.read (.table .defaults (Document.overlayEntries dn [])) = .ok goal ↔ _ :=
      record.readEntries_layer dull fresh ascending ascending_nil rich_nil
    rwa [Document.overlayEntries_nil] at plain
  | some d =>
    cases d with
    | table o fs =>
      obtain ⟨low,rich⟩ := rich_of_stems stems entry
      simp only [file?,entry,Option.some.injEq,exists_eq_left',below,Document.overlay_table]
      exact record.readEntries_layer dull fresh ascending low rich
    | list o items =>
      simp only [file?,entry,unnamed,Bool.false_eq_true,if_false,Option.some.injEq,exists_eq_left']
      rw [below,Document.overlay_upper rfl]
      exact p.read_list member o items
    | null | bool | unsigned | signed | float | char | text =>
      simp only [file?,entry,unnamed,Bool.false_eq_true,if_false,reduceCtorEq,false_and,exists_false,iff_false]
      rw [below,Document.overlay_upper rfl]
      rintro ⟨⟩

/-- A section of which variables name keys. -/
theorem Part.read_named (member : p ∈ parts) (fresh : Fresh p.slots p.start dn) (ascending : Ascending dn)
    {layer : Document} (stems : Stems layer) (named : names vars p.key = true) (shows : Shows vars p.key ks) :
    p.read ((below dn (layer.child? p.key)).overlay (.table .environment ks)) = .ok goal ↔
      ∃ entries, p.file? layer vars = some entries ∧ p.Takes vars entries goal := by
  have record := record_part p member
  have dull := dull_parts p member
  simp only [Part.takes_named member shows]
  cases entry : layer.child? p.key with
  | none =>
    simp only [file?,entry,Option.some.injEq,exists_eq_left',below,Document.overlay_table]
    have plain : p.read (.table .environment
        (Document.overlayEntries (Document.overlayEntries dn []) ks)) = .ok goal ↔ _ :=
      record.readEntries_layers dull fresh ascending ascending_nil shows.ascending rich_nil shows.rich
    rwa [Document.overlayEntries_nil] at plain
  | some d =>
    cases d with
    | table o fs =>
      obtain ⟨low,rich⟩ := rich_of_stems stems entry
      simp only [file?,entry,Option.some.injEq,exists_eq_left',below,Document.overlay_table]
      exact record.readEntries_layers dull fresh ascending low shows.ascending rich shows.rich
    | null | bool | unsigned | signed | float | char | text | list =>
      -- Whatever else stands in the file gives way as a whole.
      simp only [file?,entry,named,if_true,Option.some.injEq,exists_eq_left',List.lookup_nil,Option.or_none]
      rw [below,Document.overlay_lower]
      · exact record.readEntries_iff shows.ascending.nodup
      · rw [Document.overlay_upper rfl]
        rfl

end

/-! ## The whole -/

theorem stems_of_fileLayer {file : Option (String × List UInt8)} {layer : Document}
    (found : fileLayer file = .ok layer) : Stems layer := by
  obtain ⟨o,es,rfl,_,each⟩ := exists_of_fileLayer found
  exact fun key d there => each _ (Table.mem_of_lookup there)

section
variable {vars : List (String × String)} {layer : Document} {s : Settings}

/-- Settings that are read from the layers: section by section. -/
theorem ofDocument_merged {file : Option (String × List UInt8)} (spelled : Spelled vars)
    (found : fileLayer file = .ok layer) :
    ofDocument .lenient (merged layer vars) = .ok s ↔
      ∀ p ∈ parts, ∃ entries, p.file? layer vars = some entries ∧ p.Takes vars entries (p.get s) := by
  have stems := stems_of_fileLayer found
  obtain ⟨ds,defaults,ascending,fresh⟩ := defaults_fresh
  obtain ⟨o,fs,rfl,low,_⟩ := exists_of_fileLayer found
  obtain ⟨es,environment,mirrors⟩ := mirrors_environmentLayer spelled
  have high := mirrors.ascending
  have read : ofDocument .lenient (merged (.table o fs) vars) =
      readEntries ((parts.map Part.slot).map Slot.field) {}
        (Document.overlayEntries (Document.overlayEntries ds fs) es) := by
    rw [merged,defaults,environment,Document.overlay_table,Document.overlay_table,← sections_eq]
    rfl
  rw [read,record_parts.readEntries_iff (ascending_overlayEntries (ascending_overlayEntries ascending)).nodup,
    List.forall_mem_map]
  refine forall₂_congr fun p member => ?_
  obtain ⟨dn,start,ascending',fresh'⟩ := fresh p member
  have lower : (Document.overlayEntries ds fs).lookup p.key =
      some (below dn ((Document.table o fs).child? p.key)) := by
    rw [lookup_overlayEntries low.nodup,start,Document.child?]
    cases fs.lookup p.key with
    | none => rfl
    | some f => rfl
  rw [lookup_overlayEntries high.nodup,show p.slot.key = p.key from rfl,lower]
  cases upper : es.lookup p.key with
  | none => exact p.read_unnamed member fresh' ascending' stems (mirrors.unnamed _ upper)
  | some e =>
    obtain ⟨named,ks,rfl,shows⟩ := mirrors.named _ e upper
    exact p.read_named member fresh' ascending' stems named shows

theorem ofLayers_ok_iff {file : Option (String × List UInt8)} (spelled : Spelled vars) :
    ofLayers file vars = .ok s ↔ ∃ layer, fileLayer file = .ok layer ∧
      (∀ p ∈ parts, ∃ entries, p.file? layer vars = some entries ∧ p.Takes vars entries (p.get s)) ∧
      s.validate = .ok () := by
  cases found : fileLayer file with
  | error f =>
    rw [ofLayers,found]
    simp only [reduceCtorEq,false_and,exists_false]
  | ok layer =>
    simp only [Except.ok.injEq,exists_eq_left',validate_eq_ok_iff,← ofDocument_merged spelled found]
    rw [ofLayers_eq found]
    cases ofDocument .lenient (merged layer vars) with
    | error m => simp only [reduceCtorEq,false_and]
    | ok s' =>
      simp only [Except.ok.injEq]
      cases defect : s'.defect? with
      | none =>
        simp only [Except.ok.injEq]
        exact ⟨fun same => ⟨same,same ▸ defect⟩,And.left⟩
      | some d =>
        simp only [reduceCtorEq,false_iff]
        rintro ⟨rfl,none⟩
        rw [defect] at none
        cases none

/-- The name of the variable for a key of a section. -/
def variableName (part key : String) : String :=
  Environment.namePrefix ++ String.ofList (part.toList.map Char.toUpper) ++ "__" ++
    String.ofList (key.toList.map Char.toUpper)

theorem keys_variableName : ∀ p ∈ parts, ∀ i ∈ p.slots,
    Environment.keys? (variableName p.key i.key) = some [p.key,i.key] := by
  decide +kernel

theorem merged_empty (spelled : Spelled vars) (o o' : Origin) :
    merged (.table o []) vars = merged (.table o' []) vars := by
  obtain ⟨ds,defaults,_⟩ := defaults_fresh
  obtain ⟨es,environment,_⟩ := mirrors_environmentLayer spelled
  simp only [merged,defaults,environment,Document.overlay_table]

/-- No file is as good as an empty one. -/
theorem ofLayers_none (spelled : Spelled vars) (name : String) :
    ofLayers none vars = ofLayers (some (name,[])) vars := by
  have empty : fileLayer (some (name,[])) = .ok (.table (.file name) []) := rfl
  rw [ofLayers_eq empty,ofLayers_eq (show fileLayer none = .ok (.table .defaults []) from rfl),merged_empty spelled]

end

/-- What is loaded from a file and variables: valid settings in which each slot takes what
variables give it, else what the file has for it, else its default. Every slot has its
variable. If there is no file everything is as with an empty one. -/
theorem ofLayers_takes {vars : List (String × String)} (spelled : Spelled vars) :
    (∀ file s, ofLayers file vars = .ok s ↔ ∃ layer, fileLayer file = .ok layer ∧
      (∀ p ∈ parts, ∃ entries, p.file? layer vars = some entries ∧
        ∀ i ∈ p.slots, i.Takes ((setting? vars p.key i.key).or (entries.lookup i.key)) p.start (p.get s)) ∧
      s.validate = .ok ()) ∧
    (∀ p ∈ parts, ∀ i ∈ p.slots, Environment.keys? (variableName p.key i.key) = some [p.key,i.key]) ∧
    ∀ t cwd path name, configFile? t cwd (Utf8.ofString path) = none →
      load t cwd path vars = ofLayers (some (name,[])) vars := by
  refine ⟨fun file s => ofLayers_ok_iff spelled,keys_variableName,?_⟩
  intro t cwd path name missing
  rw [load,missing]
  exact ofLayers_none spelled name

/-! ### A file and a variable -/

/-- A file of one text. -/
def fileOf (text : String) : Option (String × List UInt8) := some ("scout_sync.toml",Utf8.ofString text)

theorem fileLayer_fileOf {text : String} {entries : List (String × Toml.Value)}
    (read : Toml.ofChars text.toList = some entries) :
    fileLayer (fileOf text) = .ok (.ofToml (.file "scout_sync.toml") (.table entries)) := by
  have strict : Utf8.strict? (Utf8.ofString text) = some text.toList := Utf8.strict?_eq_some_iff.mpr rfl
  simp only [fileLayer,fileOf,strict,read]

/-- The text in a document that holds no other, with the names that lead to it; a list
has none. -/
def soleText? : List (String × Toml.Value) → Option (String × Option String × String)
  | [(part,.table [(key,.text text)])] => some (part,some key,text)
  | [(part,.list [.text text])] => some (part,none,text)
  | _ => none

theorem soleText?_eq_some_iff {entries : List (String × Toml.Value)} {part text : String} {key? : Option String} :
    soleText? entries = some (part,key?,text) ↔
      entries = [(part,match key? with
        | some key => .table [(key,.text text)]
        | none => .list [.text text])] := by
  constructor
  · intro sole
    unfold soleText? at sole
    split at sole
    · cases sole
      rfl
    · cases sole
      rfl
    · cases sole
  · rintro rfl
    cases key? <;> rfl

/-- The port of the peer, from a variable. -/
def portVars : List (String × String) := [("SCOUT_SYNC_PEER__PORT","8001")]

theorem keys_port : Environment.keys? "SCOUT_SYNC_PEER__PORT" = some ["peer","port"] := by decide

theorem spelled_portVars : Spelled portVars := by
  intro v member keys spelled
  rw [List.mem_singleton.mp member,keys_port] at spelled
  cases spelled
  rfl

theorem names_portVars (part : String) : names portVars part = (part == "peer") := by
  simp [names,portVars,keys_port,eq_comm (a := "peer"),Bool.beq_eq_decide_eq]

theorem setting?_portVars (part key : String) : setting? portVars part key =
    if part = "peer" ∧ key = "port" then some (.unsigned .environment 8001) else none := by
  have value : Environment.value "8001" = .unsigned .environment 8001 := rfl
  have single := setting?_append [] "SCOUT_SYNC_PEER__PORT" "8001" part key
  rw [List.nil_append,keys_port,value] at single
  rw [portVars,single]
  simp only [Option.some.injEq,List.cons.injEq,and_true,eq_comm (a := part),eq_comm (a := key)]
  rfl

theorem takes_start {p : Part} (other : (p.key == "peer") = false) : p.Takes portVars [] p.start :=
  p.takes_nothing ((names_portVars p.key).trans other)

theorem takes_port {host : String} {entries : List (String × Document)}
    (own : match entries.lookup "host" with
      | some d => readText .text d = .ok host
      | none => host = "localhost")
    (connect : entries.lookup "connect_timeout" = none) (reply : entries.lookup "read_timeout" = none) :
    Peer.part.Takes portVars entries ({ host, port := 8001 } : Peer) := by
  change ∀ i ∈ Peer.slots,
    i.Takes ((setting? portVars "peer" i.key).or (entries.lookup i.key)) {} { host, port := 8001 }
  simp only [Peer.slots,List.forall_mem_cons,setting?_portVars,connect,reply]
  exact ⟨own,rfl,rfl,rfl,List.forall_mem_nil _⟩

/-- A peer that has its host from a file and its port from a variable. -/
theorem port_beside_host : Spelled portVars ∧
    ofLayers (fileOf "[peer]\nhost = \"scout-daq\"\n") portVars =
      .ok { peer := { host := "scout-daq", port := 8001 } } := by
  have read : Toml.ofChars "[peer]\nhost = \"scout-daq\"\n".toList =
      some [("peer",.table [("host",.text "scout-daq")])] := by
    have sole : (Toml.ofChars "[peer]\nhost = \"scout-daq\"\n".toList).bind soleText? =
        some ("peer",some "host","scout-daq") := by decide +kernel
    obtain ⟨entries,read,found⟩ := Option.bind_eq_some_iff.mp sole
    rw [read,soleText?_eq_some_iff.mp found]
  refine ⟨spelled_portVars,((ofLayers_takes spelled_portVars).1 _ _).mpr ⟨_,fileLayer_fileOf read,?_,?_⟩⟩
  · simp only [parts,List.forall_mem_cons]
    exact ⟨⟨_,rfl,takes_start rfl⟩,⟨_,rfl,takes_port rfl rfl rfl⟩,⟨_,rfl,takes_start rfl⟩,
      ⟨_,rfl,takes_start rfl⟩,⟨_,rfl,takes_start rfl⟩,List.forall_mem_nil _⟩
  · rw [validate_eq_ok_iff]
    decide

/-- A list gives way: the host that a file has at the first place of its peer is not
loaded as soon as a variable names the port. -/
theorem port_instead_of_list :
    fileLayer (fileOf "peer = [\"scout-daq\"]") =
      .ok (.table (.file "scout_sync.toml")
        [("peer",.list (.file "scout_sync.toml") [.text (.file "scout_sync.toml") "scout-daq"])]) ∧
    ofLayers (fileOf "peer = [\"scout-daq\"]") [] = .ok { peer := { host := "scout-daq" } } ∧
    ofLayers (fileOf "peer = [\"scout-daq\"]") portVars = .ok { peer := { host := "localhost", port := 8001 } } := by
  have read : Toml.ofChars "peer = [\"scout-daq\"]".toList = some [("peer",.list [.text "scout-daq"])] := by
    have sole : (Toml.ofChars "peer = [\"scout-daq\"]".toList).bind soleText? = some ("peer",none,"scout-daq") := by
      decide +kernel
    obtain ⟨entries,read,found⟩ := Option.bind_eq_some_iff.mp sole
    rw [read,soleText?_eq_some_iff.mp found]
  have layer := fileLayer_fileOf read
  refine ⟨layer,?_,(ofLayers_ok_iff spelled_portVars).mpr ⟨_,layer,?_,?_⟩⟩
  · have spelled : Spelled [] := List.forall_mem_nil _
    refine (ofLayers_ok_iff spelled).mpr ⟨_,layer,?_,?_⟩
    · simp only [parts,List.forall_mem_cons]
      refine ⟨⟨_,rfl,Part.takes_nothing _ rfl⟩,⟨_,rfl,?_⟩,⟨_,rfl,Part.takes_nothing _ rfl⟩,
        ⟨_,rfl,Part.takes_nothing _ rfl⟩,⟨_,rfl,Part.takes_nothing _ rfl⟩,List.forall_mem_nil _⟩
      change ∀ i ∈ Peer.slots, _
      simp only [Peer.slots,List.forall_mem_cons]
      exact ⟨rfl,rfl,rfl,rfl,List.forall_mem_nil _⟩
    · rw [validate_eq_ok_iff]
      decide
  · simp only [parts,List.forall_mem_cons]
    exact ⟨⟨_,rfl,takes_start rfl⟩,⟨_,rfl,takes_port rfl rfl rfl⟩,⟨_,rfl,takes_start rfl⟩,
      ⟨_,rfl,takes_start rfl⟩,⟨_,rfl,takes_start rfl⟩,List.forall_mem_nil _⟩
  · rw [validate_eq_ok_iff]
    decide

end Lockstep.Settings
