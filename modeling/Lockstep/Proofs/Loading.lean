import Lockstep.Program
import Lockstep.Proofs.Documents
import Lockstep.Proofs.DurationSum

/-!
# How loading ends

Reading settings ends in settings or in a fault that is reported, whatever the
document, the file and the variables, with one exception: a duration whose text fills
up the range of seconds exactly (`loading_ends`). There is such a text
(`timeout_overflows`).
-/

namespace Lockstep

/-- A text stands somewhere in a value. -/
inductive Json.Value.Holds (s : String) : Json.Value → Prop
  | string : Holds s (.string s)
  | item {items : List Json.Value} {v : Json.Value} (member : v ∈ items) (inside : Holds s v) : Holds s (.array items)
  | entry {members : List (String × Json.Value)} {m : String × Json.Value} (member : m ∈ members)
      (inside : Holds s m.2) : Holds s (.object members)

namespace Settings

open Json (Value)

/-! ## Where an overflow comes from -/

/-- A text in a document is a duration that overflows. -/
def Overflows (d : Document) : Prop := ∃ s, d.Holds s ∧ Duration.ofText s = .error .overflow

theorem Overflows.mono {d d' : Document} (overflows : Overflows d) (more : ∀ s, d.Holds s → d'.Holds s) :
    Overflows d' := by
  obtain ⟨s,holds,overflow⟩ := overflows
  exact ⟨s,more s holds,overflow⟩

/-- Where a reading fails for an overflow the document is to blame. -/
def Blames {α : Type} (d : Document) (r : Except Mismatch α) : Prop :=
  ∀ m, r = .error m → m.cause = .durationOverflow → Overflows d

section
variable {α β σ : Type} {d d' : Document} {r : Except Mismatch α}

theorem blames_ok (d : Document) (x : α) : Blames d (.ok x) := nofun

theorem blames_mismatch (d d' : Document) {cause : Cause} (other : cause ≠ .durationOverflow) :
    Blames d (mismatch d' cause : Except Mismatch α) := by
  rintro m same overflow
  cases same
  exact absurd overflow other

theorem Blames.mono (blames : Blames d r) (more : ∀ s, d.Holds s → d'.Holds s) : Blames d' r :=
  fun m fault overflow => (blames m fault overflow).mono more

theorem Blames.error {m : Mismatch} (blames : Blames d r) (fault : r = .error m) :
    Blames d (.error m : Except Mismatch β) := by
  rintro _ same overflow
  cases same
  exact blames m fault overflow

theorem Blames.under (blames : Blames d r) (key : String) : Blames d (under key r) := by
  cases r with
  | ok x => exact blames_ok d x
  | error m =>
    rintro _ same overflow
    cases same
    exact blames m rfl overflow

theorem Blames.map (blames : Blames d r) (f : α → β) : Blames d (r.map f) := by
  cases r with
  | ok x => exact blames_ok d (f x)
  | error m => exact blames.error rfl

/-! ## Values -/

theorem blames_text (expected : Shape) (d : Document) : Blames d (readText expected d) := by
  unfold readText
  split
  · exact blames_ok _ _
  · exact blames_ok _ _
  · exact blames_mismatch _ _ (by simp)

theorem blames_below (bound : Nat) (expected : Shape) (d : Document) : Blames d (readBelow bound expected d) := by
  unfold readBelow
  split
  · split
    · exact blames_ok _ _
    · exact blames_mismatch _ _ (by simp)
  · split
    · exact blames_ok _ _
    · exact blames_mismatch _ _ (by simp)
  · exact blames_mismatch _ _ (by simp)

theorem holds_of_readText {expected : Shape} {s : String} (read : readText expected d = .ok s) : d.Holds s := by
  unfold readText at read
  split at read
  · cases read
    exact .text _
  · cases read
    exact .char rfl
  · cases read

theorem blames_duration (d : Document) : Blames d (readDuration d) := by
  unfold readDuration
  split
  next m fault => exact (blames_text .duration d).error fault
  next s read =>
    split
    · exact blames_ok _ _
    · exact blames_mismatch _ _ (by simp)
    next overflow => exact fun _ _ _ => ⟨s,holds_of_readText read,overflow⟩

theorem blames_textsFrom (o : Origin) (index : Nat) (items : List Document) :
    Blames (.list o items) (readTextsFrom index items) := by
  induction items generalizing index with
  | nil => exact blames_ok _ _
  | cons d ds ih =>
    have first : Blames (.list o (d :: ds)) (under (Decimal.text index) (readText .text d)) :=
      ((blames_text .text d).under _).mono fun s holds => .item List.mem_cons_self holds
    have later : Blames (.list o (d :: ds)) (readTextsFrom (index + 1) ds) := by
      refine (ih (index + 1)).mono ?_
      rintro s (_ | _ | ⟨member,inside⟩)
      exact .item (List.mem_cons_of_mem d member) inside
    rw [readTextsFrom]
    split
    next m fault => exact first.error fault
    next s _ => exact later.map _

theorem blames_texts (d : Document) : Blames d (readTexts d) := by
  unfold readTexts
  split
  · exact blames_textsFrom _ _ _
  · exact blames_mismatch _ _ (by simp)

theorem blames_choose (d d' : Document) (choices : List (String × α)) (name : String) :
    Blames d (choose d' choices name) := by
  unfold choose
  split
  · exact blames_ok _ _
  · exact blames_mismatch _ _ (by simp)

theorem blames_nothing (d d' : Document) : Blames d (readNothing d') := by
  unfold readNothing
  split
  · exact blames_ok _ _
  · exact blames_mismatch _ _ (by simp)

theorem blames_choice (grade : Grade) (name : String) (choices : List (String × α)) (d : Document) :
    Blames d (readChoice grade name choices d) := by
  unfold readChoice
  split
  · exact blames_choose _ _ _ _
  · split
    · exact blames_mismatch _ _ (by simp)
    · exact blames_mismatch _ _ (by simp)
  · split
    · exact blames_mismatch _ _ (by simp)
    · refine Blames.under ?_ _
      split
      next m fault => exact (blames_choose _ _ _ _).error fault
      next x _ => exact (blames_nothing _ _).map _
  · split
    · exact blames_mismatch _ _ (by simp)
    · exact blames_mismatch _ _ (by simp)

/-! ## Records -/

/-- A field blames its own value. -/
def Field.Honest (f : Field σ) : Prop := ∀ d s, Blames d (f.read d s)

theorem honest_field {key : String} {read : Document → Except Mismatch α} {put : σ → α → σ}
    (honest : ∀ d, Blames d (read d)) : (field key read put).Honest :=
  fun d s => (honest d).map (put s)

theorem blames_entries {fields : List (Field σ)} (honest : ∀ f ∈ fields, f.Honest) (o : Origin) (start : σ)
    (entries : List (String × Document)) : Blames (.table o entries) (readEntries fields start entries) := by
  induction entries generalizing start with
  | nil => exact blames_ok _ _
  | cons e entries ih =>
    obtain ⟨key,d⟩ := e
    have later (next : σ) : Blames (.table o ((key,d) :: entries)) (readEntries fields next entries) := by
      refine (ih next).mono ?_
      rintro s (_ | _ | _ | ⟨member,inside⟩)
      exact .entry (List.mem_cons_of_mem _ member) inside
    rw [readEntries]
    split
    · exact later start
    next f found =>
      have first : Blames (.table o ((key,d) :: entries)) (under key (f.read d start)) :=
        ((honest f (List.mem_of_find?_eq_some found) d start).under key).mono fun s holds =>
          .entry List.mem_cons_self holds
      split
      next m fault => exact first.error fault
      next next _ => exact later next

theorem blames_places {fields : List (Field σ)} (honest : ∀ f ∈ fields, f.Honest) (o : Origin) (start : σ)
    (index : Nat) (items : List Document) : Blames (.list o items) (readPlaces index start fields items) := by
  induction items generalizing fields start index with
  | nil =>
    unfold readPlaces
    split
    next same => cases same
    next => exact blames_ok _ _
  | cons d ds ih =>
    cases fields with
    | nil =>
      rw [readPlaces]
      · exact blames_ok _ _
      · nofun
    | cons f fields =>
      obtain ⟨own,others⟩ := List.forall_mem_cons.mp honest
      have first : Blames (.list o (d :: ds)) (under (Decimal.text index) (f.read d start)) :=
        ((own d start).under _).mono fun s holds => .item List.mem_cons_self holds
      rw [readPlaces]
      split
      next m fault => exact first.error fault
      next next _ =>
        refine (ih others next (index + 1)).mono ?_
        rintro s (_ | _ | ⟨member,inside⟩)
        exact .item (List.mem_cons_of_mem d member) inside

theorem blames_record {fields : List (Field σ)} (honest : ∀ f ∈ fields, f.Honest) (grade : Grade) (name : String)
    (d : Document) (start : σ) : Blames d (readRecord grade name fields d start) := by
  unfold readRecord
  split
  next o entries => exact blames_entries honest o start entries
  next o items =>
    split
    next m fault => exact (blames_places honest o start 0 items).error fault
    next next _ =>
      split
      · exact blames_mismatch _ _ (by simp)
      · exact blames_ok _ _
  · exact blames_mismatch _ _ (by simp)

end

/-- No section blames anything but its own texts. -/
theorem honest_sections (grade : Grade) : ∀ f ∈ sections grade, f.Honest := by
  have feed : ∀ f ∈ StatusFeed.fields, f.Honest := by
    simp only [StatusFeed.fields,List.forall_mem_cons]
    exact ⟨honest_field (blames_text _),honest_field blames_duration,List.forall_mem_nil _⟩
  have peer : ∀ f ∈ Peer.fields, f.Honest := by
    simp only [Peer.fields,List.forall_mem_cons]
    exact ⟨honest_field (blames_text _),honest_field (blames_below _ _),honest_field blames_duration,
      honest_field blames_duration,List.forall_mem_nil _⟩
  have sync : ∀ f ∈ Sync.fields grade, f.Honest := by
    simp only [Sync.fields,List.forall_mem_cons]
    exact ⟨honest_field (blames_below _ _),honest_field blames_texts,honest_field blames_texts,
      honest_field (blames_choice _ _ _),List.forall_mem_nil _⟩
  have mover : ∀ f ∈ FileMover.fields, f.Honest := by
    simp only [FileMover.fields,List.forall_mem_cons]
    exact ⟨honest_field (blames_text _),honest_field (blames_text _),honest_field (blames_text _),
      honest_field (blames_text _),honest_field (blames_text _),honest_field blames_duration,
      honest_field blames_duration,List.forall_mem_nil _⟩
  have log : ∀ f ∈ Log.fields grade, f.Honest := by
    simp only [Log.fields,List.forall_mem_cons]
    exact ⟨honest_field (blames_text _),honest_field (blames_choice _ _ _),List.forall_mem_nil _⟩
  simp only [sections,List.forall_mem_cons]
  exact ⟨honest_field fun d => blames_record feed grade _ d _,honest_field fun d => blames_record peer grade _ d _,
    honest_field fun d => blames_record sync grade _ d _,honest_field fun d => blames_record mover grade _ d _,
    honest_field fun d => blames_record log grade _ d _,List.forall_mem_nil _⟩

theorem blames_document (grade : Grade) (d : Document) : Blames d (ofDocument grade d) :=
  blames_record (honest_sections grade) grade _ d _

/-! ## Values as documents -/

theorem holds_ofItems {o : Origin} {items : List Value} {d : Document} (member : d ∈ Document.ofItems o items) :
    ∃ v ∈ items, d = .ofValue o v := by
  induction items with
  | nil => cases member
  | cons v items ih =>
    rw [Document.ofItems] at member
    rcases List.mem_cons.mp member with rfl | later
    · exact ⟨v,List.mem_cons_self,rfl⟩
    · obtain ⟨w,inside,same⟩ := ih later
      exact ⟨w,List.mem_cons_of_mem v inside,same⟩

/-- The texts of a document are those of the value it comes from. -/
theorem holds_ofValue {o : Origin} {s : String} {v : Value} (holds : (Document.ofValue o v).Holds s) : v.Holds s := by
  generalize same : Document.ofValue o v = d at holds
  induction holds generalizing v with
  | text o' =>
    unfold Document.ofValue at same
    split at same <;> cases same
    exact .string
  | char single =>
    unfold Document.ofValue at same
    split at same <;> cases same
  | item member inside ih =>
    unfold Document.ofValue at same
    split at same <;> cases same
    obtain ⟨w,there,rfl⟩ := holds_ofItems member
    exact .item there (ih rfl)
  | @entry o' entries e member inside ih =>
    unfold Document.ofValue at same
    split at same <;> cases same
    rcases mem_ofMembers member with ⟨w,there,value⟩ | none
    · exact .entry there (ih value.symm)
    · cases none

/-! ## Layers -/

/-- No text of a value overflows. -/
def Harmless (v : Value) : Prop := ∀ s, v.Holds s → Duration.ofText s ≠ .error .overflow

theorem Harmless.object {ms : List (String × Value)} (each : ∀ m ∈ ms, Harmless m.2) : Harmless (.object ms) := by
  rintro s (_ | _ | ⟨member,inside⟩)
  exact each _ member s inside

theorem Harmless.nat (n : Nat) : Harmless (.nat n) := nofun

theorem Harmless.duration (d : Duration) : Harmless (durationValue d) := by
  rintro s ⟨⟩
  rw [Duration.ofText_text]
  nofun

/-- A text that starts with a letter or a sign is refused. -/
theorem ofText_refused {s : String} {c : Char} {rest : List Char} (text : s.toList = c :: rest)
    (blank : Text.isBlank c = false) (digit : c.isDigit = false) : Duration.ofText s = .error .refused := by
  have front : s.toList.dropWhile Text.isBlank = c :: rest := by
    rw [text,List.dropWhile_cons_of_neg (by simp [blank])]
  unfold Duration.ofText
  split
  next word =>
    rw [word] at text
    cases text
    cases digit
  split
  · rfl
  · rw [Duration.readComponents_eq front,digit]
    rfl

theorem Harmless.string {s : String} {c : Char} {rest : List Char} (text : s.toList = c :: rest)
    (blank : Text.isBlank c = false) (digit : c.isDigit = false) : Harmless (.string s) := by
  rintro _ ⟨⟩
  rw [ofText_refused text blank digit]
  nofun

theorem Harmless.array {items : List Value} (each : ∀ v ∈ items, Harmless v) : Harmless (.array items) := by
  rintro s (_ | ⟨member,inside⟩)
  exact each _ member s inside

theorem harmless_defaults : Harmless ({} : Settings).toValue := by
  refine .object ?_
  intro m member
  simp only [List.mem_cons,List.not_mem_nil,or_false] at member
  rcases member with rfl | rfl | rfl | rfl | rfl <;> refine .object ?_ <;>
    simp only [List.forall_mem_cons,List.not_mem_nil,false_implies,implies_true,and_true]
  · exact ⟨.string rfl rfl rfl,.duration _⟩
  · exact ⟨.string rfl rfl rfl,.nat _,.duration _,.duration _⟩
  · refine ⟨.nat _,.array ?_,.array ?_,.string rfl rfl rfl⟩ <;>
      simp only [List.map_cons,List.map_nil,List.forall_mem_cons,List.not_mem_nil,false_implies,implies_true,and_true]
    · exact .string rfl rfl rfl
    · exact .string rfl rfl rfl
  · exact ⟨.string rfl rfl rfl,.string rfl rfl rfl,.string rfl rfl rfl,.string rfl rfl rfl,.string rfl rfl rfl,
      .duration _,.duration _⟩
  · exact ⟨.string rfl rfl rfl,.string rfl rfl rfl⟩

theorem holds_nest {s : String} {d : Document} {keys : List String} (holds : (Environment.nest d keys).Holds s) :
    d.Holds s := by
  induction keys with
  | nil => exact holds
  | cons key keys ih =>
    rw [Environment.nest] at holds
    rcases holds with _ | _ | _ | ⟨member,inside⟩
    rw [List.mem_singleton.mp member] at inside
    exact ih inside

/-- The texts of the environment are those of its variables' values. -/
theorem holds_environment {s : String} {vars : List (String × String)} (holds : (environmentLayer vars).Holds s) :
    ∃ v ∈ vars, (Environment.value v.2).Holds s := by
  induction vars using List.reverseRecOn with
  | nil =>
    rcases holds with _ | _ | _ | ⟨member,_⟩
    cases member
  | append_singleton vars v ih =>
    obtain ⟨name,text⟩ := v
    have before (held : (environmentLayer vars).Holds s) :
        ∃ w ∈ vars ++ [(name,text)], (Environment.value w.2).Holds s := by
      obtain ⟨w,member,inside⟩ := ih held
      exact ⟨w,List.mem_append_left _ member,inside⟩
    rw [environmentLayer,List.foldl_append,List.foldl_cons,List.foldl_nil,← environmentLayer] at holds
    cases keys : Environment.keys? name with
    | none =>
      simp only [keys] at holds
      exact before holds
    | some keys' =>
      simp only [keys] at holds
      rcases Document.holds_overlay holds with below | above
      · exact before below
      · exact ⟨(name,text),by simp,holds_nest above⟩

/-! ## The ends -/

/-- What an overflow among layers comes from: a text of the file or of a variable. -/
theorem overflows_layers {layer : Document} {vars : List (String × String)}
    (overflows : Overflows (merged layer vars)) :
    ∃ s, (layer.Holds s ∨ ∃ v ∈ vars, (Environment.value v.2).Holds s) ∧ Duration.ofText s = .error .overflow := by
  obtain ⟨s,holds,overflow⟩ := overflows
  rcases Document.holds_overlay holds with below | above
  · rcases Document.holds_overlay below with default | file
    · exact absurd overflow (harmless_defaults s (holds_ofValue default))
    · exact ⟨s,.inl file,overflow⟩
  · exact ⟨s,.inr (holds_environment above),overflow⟩

theorem brims_of_overflow {s : String} (overflow : Duration.ofText s = .error .overflow) :
    Duration.Brims s.toList := by
  rcases Duration.ofText_cases s with ⟨d,read,_⟩ | refused | ⟨_,brims⟩
  · rw [overflow] at read
    cases read
  · rw [overflow] at refused
    cases refused
  · exact brims

theorem validate_cases (s : Settings) :
    s.validate = .ok () ∨ ∃ d : Defect, s.validate = .error (.validation d.message) := by
  unfold validate
  split
  · exact .inl rfl
  · exact .inr ⟨_,rfl⟩

/-- Any fault but a crash is reported. -/
theorem unloaded_reported {f : LoadFault} (other : ∀ m, f = .mismatch m → m.cause ≠ .durationOverflow) (config : String) :
    Program.Ending.unloaded config f =
      .failed ("Failed to load configuration from " ++ config) (f.error.message :: f.error.cause?.toList) := by
  unfold Program.Ending.unloaded
  cases f with
  | mismatch m =>
    obtain ⟨path,origin,cause⟩ := m
    cases cause with
    | durationOverflow => exact absurd rfl (other _ rfl)
    | wrongType | wrongValue | unknownChoice | surplus => rfl
  | notText | notToml | defect => rfl

theorem fileLayer_fault {file : Option (String × List UInt8)} {f : LoadFault} (fault : fileLayer file = .error f)
    (m : Mismatch) : f ≠ .mismatch m := by
  rintro rfl
  unfold fileLayer at fault
  split at fault
  · cases fault
  split at fault
  · cases fault
  split at fault <;> cases fault

/-- How it ends: the reading of a duration from a text, of settings from a value, and the
loading from a file and variables. A text of a duration is read as the exact sum of what
it lists or refused, and there are settings or a fault that is reported. The one
exception is a crash by a duration, of which then a text fills up the range of seconds
exactly. -/
theorem loading_ends (text : String) (v : Value) (file : Option (String × List UInt8)) (vars : List (String × String)) :
    ((∃ d, Duration.ofText text = .ok d ∧ (text = "0" ∧ d = Duration.zero ∨
        (∃ cs ≠ [], Duration.Lists text.toList cs) ∧
          ∀ cs, Duration.Lists text.toList cs → (d.inNanos : ℚ) = Duration.total cs)) ∨
      Duration.ofText text = .error .refused ∨
      Duration.ofText text = .error .overflow ∧ Duration.Brims text.toList) ∧
    ((∃ s, ofValue v = .ok s ∧ (s.validate = .ok () ∨ ∃ d : Defect, s.validate = .error (.validation d.message))) ∨
      (∃ m, ofValue v = .error m ∧ m.cause ≠ .durationOverflow) ∨
      ∃ m, ofValue v = .error m ∧ m.cause = .durationOverflow ∧ ∃ s, v.Holds s ∧ Duration.Brims s.toList) ∧
    ((∃ s, ofLayers file vars = .ok s ∧ s.validate = .ok ()) ∨
      (∃ f, ofLayers file vars = .error f ∧ ∀ config, Program.Ending.unloaded config f =
        .failed ("Failed to load configuration from " ++ config) (f.error.message :: f.error.cause?.toList)) ∨
      ∃ m layer s, ofLayers file vars = .error (.mismatch m) ∧ m.cause = .durationOverflow ∧
        fileLayer file = .ok layer ∧ (layer.Holds s ∨ ∃ v ∈ vars, (Environment.value v.2).Holds s) ∧
        Duration.Brims s.toList) := by
  refine ⟨Duration.ofText_cases text,?_,?_⟩
  · have blames := blames_document .strict (.ofValue .json v)
    cases read : ofValue v with
    | ok s => exact .inl ⟨s,rfl,s.validate_cases⟩
    | error m =>
      by_cases overflow : m.cause = .durationOverflow
      · obtain ⟨s,holds,full⟩ := blames m read overflow
        exact .inr (.inr ⟨m,rfl,overflow,s,holds_ofValue holds,brims_of_overflow full⟩)
      · exact .inr (.inl ⟨m,rfl,overflow⟩)
  · cases found : fileLayer file with
    | error f =>
      rw [ofLayers,found]
      exact .inr (.inl ⟨f,rfl,unloaded_reported fun m same => absurd same (fileLayer_fault found m)⟩)
    | ok layer =>
      rw [ofLayers_eq found]
      have blames := blames_document .lenient (merged layer vars)
      cases read : ofDocument .lenient (merged layer vars) with
      | error m =>
        by_cases overflow : m.cause = .durationOverflow
        · obtain ⟨s,holds,full⟩ := overflows_layers (blames m read overflow)
          exact .inr (.inr ⟨m,layer,s,rfl,overflow,rfl,holds,brims_of_overflow full⟩)
        · exact .inr (.inl ⟨_,rfl,unloaded_reported fun m' same => LoadFault.mismatch.inj same ▸ overflow⟩)
      | ok s =>
        simp only
        cases defect : s.defect? with
        | some d => exact .inr (.inl ⟨.defect d,rfl,unloaded_reported fun m same => by cases same⟩)
        | none => exact .inl ⟨s,rfl,by rw [validate,defect]⟩

/-! ## A text that overflows -/

/-- As many seconds as there may be, and a second of nanoseconds. -/
def brimming : String := "18446744073709551615s 1000000000ns"

theorem brimming_overflows : Duration.ofText brimming = .error .overflow := by
  have first : Duration.Figures "18446744073709551615".toList "18446744073709551615".toList :=
    ⟨List.all_eq_true.mp (by decide),by decide,by decide⟩
  have second : Duration.Figures " 1000000000".toList "1000000000".toList :=
    ⟨List.all_eq_true.mp (by decide),by decide,by decide⟩
  have seconds : Duration.Component.Writes ⟨18446744073709551615,none,.second⟩
      ("18446744073709551615".toList ++ "s".toList) := .mk (.whole first (by decide)) (by decide)
  have nanos : Duration.Component.Writes ⟨1000000000,none,.nanosecond⟩ (" 1000000000".toList ++ "ns".toList) :=
    .mk (.whole second (by decide)) (by decide)
  have last : Duration.Lists " 1000000000ns".toList [⟨1000000000,none,.nanosecond⟩] := .more nanos rfl (.nothing nofun)
  have lists : Duration.Lists brimming.toList [⟨18446744073709551615,none,.second⟩,⟨1000000000,none,.nanosecond⟩] :=
    .more seconds rfl last
  unfold Duration.ofText
  rw [if_neg (by decide),if_neg (by decide),Duration.readComponents_lists lists]
  cbv

theorem readEntries_error {σ : Type} (fields : List (Field σ)) (key : String) {f : Field σ} {start : σ} {d : Document}
    {m : Mismatch} (found : fields.find? (·.key == key) = some f) (fault : f.read d start = .error m) :
    readEntries fields start [(key,d)] = .error { m with path := key :: m.path } := by
  rw [readEntries,found]
  simp only [fault,under]

/-- The timeout of the feed may overflow, which is a crash. -/
theorem timeout_overflows :
    ofValue (.object [("status_feed",.object [("timeout",.string brimming)])]) =
      .error ⟨["status_feed","timeout"],.json,.durationOverflow⟩ ∧
    ∀ config, Program.Ending.unloaded config (.mismatch ⟨["status_feed","timeout"],.json,.durationOverflow⟩) =
      { code := 101, errors := "overflow in Duration::new" } := by
  refine ⟨?_,fun config => rfl⟩
  have timeout : (field "timeout" readDuration fun (s : StatusFeed) x => { s with timeout := x }).read
      (.text .json brimming) {} = .error ⟨[],.json,.durationOverflow⟩ := by
    simp only [field,readDuration,readText,brimming_overflows,mismatch,Except.map,Document.origin]
  have feed : (field "status_feed" (StatusFeed.read .strict · {}) fun (s : Settings) x => { s with statusFeed := x }).read
      (.table .json [("timeout",.text .json brimming)]) {} = .error ⟨["timeout"],.json,.durationOverflow⟩ := by
    simp only [field,StatusFeed.read,readRecord,readEntries_error StatusFeed.fields "timeout" rfl timeout,Except.map]
  exact readEntries_error (sections .strict) "status_feed" rfl feed

end Settings

end Lockstep
