import Lockstep.Proofs.Json.Found
import Lockstep.Proofs.Json.Range
import Lockstep.Proofs.RoundTrip

/-!
# The fault that is told

Of all that may be wrong with an object its reader tells one thing. Which one is said
here of the members in the order of the text: the first that is wrong after those
before it, and only where none is wrong the first field that is missing (`Selects`).
The reader tells that and nothing else (`ofPayload_selects`), of every text with the
form of an object, whatever numbers are in it. A number that is out of range is wrong as
the value of a field, and nowhere else; the greatest of doubles may be one
(`greatest_double_refused`).
-/

namespace Lockstep.Snapshot

open Lockstep.Json (ascii skipSpace Bracket Blank Conforms Denotes Ends Shows Value)

/-! ## Right and wrong members -/

/-- What is said against a value that is no run. A run is a whole number of 64 bits; a
negative number comes close enough to be told apart. -/
def runComplaint? : Json.Found → Option String
  | .number (.unsigned _) => none
  | .number (.negative n) => some ("invalid value: integer \x60-" ++ Decimal.text n ++ "\x60, expected u64")
  | kind => some ("invalid type: " ++ kind.describe ++ ", expected u64")

/-- What is said against a value that is no string. -/
def textComplaint? : Json.Found → Option String
  | .string _ => none
  | kind => some ("invalid type: " ++ kind.describe ++ ", expected a string")

/-- What is said against a value that is none for a field, by what it shows. -/
def Field.complaint? : Field → Except Json.Fault Json.Found → Option String
  | _,.error _ => some "number out of range"
  | .run,.ok kind => runComplaint? kind
  | .beamMode,.ok kind => textComplaint? kind
  | .daqState,.ok kind => textComplaint? kind

/-- A member that is wrong after those before it, and what is said against it. A field
that comes again is wrong whatever its value is, any other by its value. -/
inductive Wrong (before : List (String × List UInt8)) : String × List UInt8 → String → Prop
  | again {field : Field} {v : List UInt8} (seen : named field before ≠ []) :
      Wrong before (field.name,v) ("duplicate field \x60" ++ field.name ++ "\x60")
  | mistyped {field : Field} {v : List UInt8} {r : Except Json.Fault Json.Found} {message : String}
      (new : named field before = []) (shows : Shows r v) (complaint : field.complaint? r = some message) :
      Wrong before (field.name,v) message

/-- Members none of which is wrong after those before it. -/
def Right (ms : List (String × List UInt8)) : Prop :=
  ∀ before m after message, ms = before ++ m :: after → ¬Wrong before m message

/-- What is told of the members of an object: what is said against the first that is
wrong; where none is, the first field that is missing, in a snapshot's order; and else
the snapshot that they write. -/
inductive Selects (ms : List (String × List UInt8)) : Except String Snapshot → Prop
  | wrong {before after : List (String × List UInt8)} {m : String × List UInt8} {message : String}
      (whole : ms = before ++ m :: after) (right : Right before) (wrong : Wrong before m message) :
      Selects ms (.error message)
  | missing {field : Field} (right : Right ms)
      (absent : Field.all.find? (fun field => (named field ms).isEmpty) = some field) :
      Selects ms (.error ("missing field \x60" ++ field.name ++ "\x60"))
  | complete {s : Snapshot} (right : Right ms) (writes : Writes s ms) : Selects ms (.ok s)

/-- A member whose value has the form of one, with numbers of any size and any nesting. Where
it is a field, a string is text. -/
structure Legible (m : String × List UInt8) : Prop where
  form : Conforms .value m.2
  text : ∀ field : Field, m.1 = field.name → m.2.head? = some (ascii '"') → ∃ s, Json.Quoted m.2 s

/-- Texts of objects by their members, none or more. -/
inductive Object (ms : List (String × List UInt8)) : List UInt8 → Prop
  | mk {a text b : List UInt8} (before : Blank a) (members : Follow true ms text) (legible : ∀ m ∈ ms, Legible m)
      (after : Blank b) : Object ms (a ++ Bracket.opening .object :: text ++ Bracket.closing .object :: b)

section
variable {before after ms : List (String × List UInt8)} {m : String × List UInt8} {message other : String}
  {field : Field} {s : Snapshot} {seen : Seen} {t p v a : List UInt8} {r : Except Json.Fault Json.Found}

theorem right_nil : Right [] := by
  intro before m after message whole
  simp at whole

theorem right_concat (right : Right ms) (next : ∀ message, ¬Wrong ms m message) : Right (ms ++ [m]) := by
  intro before m' after message whole
  rcases List.eq_nil_or_concat after with rfl | ⟨after,last,rfl⟩
  · obtain ⟨rfl,rfl⟩ := List.append_singleton_inj.mp whole
    exact next message
  · rw [List.concat_eq_append,← List.cons_append,← List.append_assoc] at whole
    obtain ⟨rfl,rfl⟩ := List.append_singleton_inj.mp whole
    exact right before m' after message rfl

/-! ## Objects -/

/-- Members whose texts stand for given values, one by one. -/
def Telling (es : List (String × Value)) (ms : List (String × List UInt8)) : Prop :=
  List.Forall₂ (fun e m => e.1 = m.1 ∧ Denotes (.value e.2) m.2) es ms

theorem exists_members {es : List (String × Value)} (denotes : Denotes (.elements .object es) p) :
    ∃ ms, Members ms p ∧ Telling es ms := by
  have element {name : String} {l a v : List UInt8} (label : Json.Label .object name l) (ahead : Blank a) :
      Member (name,v) (l ++ a ++ v) := by
    cases label with
    | @member b q c _ before quoted between =>
      have member := Member.mk (v := v) before quoted between ahead
      simpa using member
  generalize same : Json.Sense.elements .object es = sense at denotes
  induction denotes generalizing es with
  | last label ahead value after =>
    cases same
    exact ⟨_,.last (element label ahead) after,.cons ⟨rfl,value⟩ .nil⟩
  | more label ahead value after _ _ ih =>
    cases same
    obtain ⟨ms,members,telling⟩ := ih rfl
    exact ⟨_,.more (element label ahead) after members,.cons ⟨rfl,value⟩ telling⟩
  | _ => cases same

theorem Telling.legible {es : List (String × Value)} (telling : Telling es ms) : ∀ m ∈ ms, Legible m := by
  induction telling with
  | nil => simp
  | cons pair _ ih =>
    have legible := Legible.mk pair.2.conforms fun _ _ => pair.2.quoted
    exact List.forall_mem_cons.mpr ⟨legible,ih⟩

/-- Every text that stands for an object is the text of one by its members, and these
have the same values. -/
theorem exists_object {es : List (String × Value)} {b : List UInt8} (blank : Blank a)
    (denotes : Denotes (.value (.object es)) p) (space : Blank b) : ∃ ms, Object ms (a ++ p ++ b) ∧ Telling es ms := by
  generalize same : Json.Sense.value (.object es) = sense at denotes
  cases denotes with
  | @empty k c inside =>
    cases k with
    | list => cases same
    | object =>
      cases same
      have object : Object [] _ := .mk blank (.none inside) (by simp) space
      exact ⟨[],by simpa using object,.nil⟩
  | @bracket k es' q inside =>
    cases k with
    | list => cases same
    | object =>
      cases same
      obtain ⟨ms,members,telling⟩ := exists_members inside
      have object : Object ms _ := .mk blank (.first members) telling.legible space
      exact ⟨ms,by simpa using object,telling⟩
  | _ => cases same

/-! ## One answer -/

theorem Wrong.unique (first : Wrong ms m message) (second : Wrong ms m other) : message = other := by
  generalize same : m = n at second
  cases first with
  | again seen =>
    cases second with
    | again =>
      rw [name_inj (Prod.mk.inj same).1]
    | mistyped new =>
      rw [name_inj (Prod.mk.inj same).1] at seen
      exact absurd new seen
  | mistyped new shows complaint =>
    cases second with
    | again seen =>
      rw [name_inj (Prod.mk.inj same).1] at new
      exact absurd new seen
    | mistyped _ shows' complaint' =>
      obtain ⟨name,rfl⟩ := Prod.mk.inj same
      obtain rfl := name_inj name
      obtain rfl := shows.unique shows'
      rw [complaint] at complaint'
      exact Option.some.inj complaint'

/-- The first wrong member comes no sooner than right ones end. -/
theorem prefix_of_wrong {b b' a a' : List (String × List UInt8)} {m' : String × List UInt8}
    (whole : b ++ m :: a = b' ++ m' :: a') (right : Right b') (wrong : Wrong b m message) : b' <+: b := by
  have front : b <+: b' ++ m' :: a' := ⟨m :: a,whole⟩
  rcases List.prefix_or_prefix_of_prefix front (List.prefix_append b' (m' :: a')) with ⟨c,rfl⟩ | shorter
  · cases c with
    | nil => simp
    | cons d c =>
      rw [List.append_assoc,List.cons_append] at whole
      obtain ⟨rfl,_⟩ := List.cons.inj (List.append_cancel_left whole)
      exact absurd wrong (right b m c message rfl)
  · exact shorter

theorem writes_unique {s s' : Snapshot} (first : Writes s ms) (second : Writes s' ms) : s = s' := by
  have agree (field : Field) : ∃ v, Holds s field v ∧ Holds s' field v := by
    obtain ⟨v,holds,once⟩ := first.once field
    obtain ⟨w,holds',once'⟩ := second.once field
    rw [once] at once'
    cases once'
    exact ⟨v,holds,holds'⟩
  have text {a b : String} {v : List UInt8} (quoted : Json.Quoted v a) (quoted' : Json.Quoted v b) : a = b :=
    Value.string.inj (Denotes.unique (.string quoted) (.string quoted'))
  obtain ⟨_,run,run'⟩ := agree .run
  obtain ⟨_,beamMode,beamMode'⟩ := agree .beamMode
  obtain ⟨_,daqState,daqState'⟩ := agree .daqState
  obtain ⟨r,m,q⟩ := s
  obtain rfl : r = s'.run := UInt64.toNat_inj.mp (run.2.symm.trans run'.2)
  obtain rfl : m = s'.beamMode := text beamMode beamMode'
  obtain rfl : q = s'.daqState := text daqState daqState'
  rfl

theorem Writes.absent (writes : Writes s ms) : Field.all.find? (fun field => (named field ms).isEmpty) = none := by
  rw [List.find?_eq_none]
  intro field _ absent
  obtain ⟨v,_,once⟩ := writes.once field
  rw [once] at absent
  cases absent

/-- Nothing else can be told of the same members. -/
theorem Selects.unique {r r' : Except String Snapshot} (first : Selects ms r) (second : Selects ms r') : r = r' := by
  cases first with
  | @wrong before after m message whole right wrong =>
    cases second with
    | @wrong before' after' m' message' whole' right' wrong' =>
      have same : before ++ m :: after = before' ++ m' :: after' := whole.symm.trans whole'
      have longer := prefix_of_wrong same right' wrong
      have shorter := prefix_of_wrong same.symm right wrong'
      obtain rfl := longer.eq_of_length_le shorter.length_le
      obtain ⟨rfl,_⟩ := List.cons.inj (List.append_cancel_left same)
      rw [wrong.unique wrong']
    | missing right' => exact (right' before m after message whole wrong).elim
    | complete right' => exact (right' before m after message whole wrong).elim
  | missing right absent =>
    cases second with
    | wrong whole' _ wrong' => exact (right _ _ _ _ whole' wrong').elim
    | missing _ absent' =>
      rw [absent] at absent'
      rw [Option.some.inj absent']
    | complete _ writes' =>
      rw [writes'.absent] at absent
      cases absent
  | complete right writes =>
    cases second with
    | wrong whole' _ wrong' => exact (right _ _ _ _ whole' wrong').elim
    | missing _ absent' =>
      rw [writes.absent] at absent'
      cases absent'
    | complete _ writes' => rw [writes_unique writes writes']

/-! ## Values -/

theorem message_word (kind : Json.Found) :
    (Fault.wrongType kind .word).message = "invalid type: " ++ kind.describe ++ ", expected u64" := by
  have whole : ", expected u64" = ", expected " ++ "u64" := rfl
  rw [whole,← String.append_assoc]
  rfl

theorem message_text (kind : Json.Found) :
    (Fault.wrongType kind .text).message = "invalid type: " ++ kind.describe ++ ", expected a string" := by
  have whole : ", expected a string" = ", expected " ++ "a string" := rfl
  rw [whole,← String.append_assoc]
  rfl

theorem message_negativeRun (n : Nat) : (Fault.negativeRun n).message =
    "invalid value: integer \x60-" ++ Decimal.text n ++ "\x60, expected u64" := by
  have front : "invalid value: integer \x60-" = "invalid value: " ++ "integer \x60-" := rfl
  have back : "\x60, expected u64" = "\x60" ++ (", expected " ++ "u64") := rfl
  show "invalid value: " ++ ("integer \x60-" ++ Decimal.text n ++ "\x60") ++ ", expected " ++ "u64" = _
  rw [front,back]
  simp only [← String.append_assoc]

theorem skipSpace_shows (blank : Blank a) (shows : Shows r v) (t : List UInt8) :
    ∃ b u, v = b :: u ∧ skipSpace (a ++ v ++ t) = b :: (u ++ t) := by
  obtain ⟨b,u,rfl,solid⟩ := shows.exists_head
  exact ⟨b,u,rfl,Json.skipSpace_eq_cons_iff.mpr ⟨solid,a,blank,by simp⟩⟩

/-- A number that is not read is out of range, and nothing else is not read. -/
theorem message_unread {f : Json.Fault} (shows : Shows (.error f) v) :
    (Fault.malformed f).message = "number out of range" := by
  generalize same : Except.error f = r at shows
  cases shows with
  | @number _ n =>
    cases value : n.value with
    | error g =>
      rw [value] at same
      cases same
      rw [Json.Literal.value_error value]
      rfl
    | ok x =>
      rw [value] at same
      cases same
  | _ => cases same

theorem readRun_mistyped (blank : Blank a) (shows : Shows r v) (complaint : Field.run.complaint? r = some message)
    (ends : Ends t) : ∃ f, readRun (a ++ v ++ t) = .error f ∧ f.message = message := by
  obtain ⟨b,u,rfl,found⟩ := skipSpace_shows blank shows t
  have kind := shows.found ends
  rw [List.cons_append] at kind
  by_cases number : b = ascii '-' ∨ Json.isDigit b = true
  · rw [Json.readFound_number number] at kind
    simp only [readRun,found,if_pos number]
    cases read : Json.readNumber (b :: (u ++ t)) with
    | error f =>
      rw [read] at kind
      subst kind
      exact ⟨_,rfl,(message_unread shows).trans (Option.some.inj complaint)⟩
    | ok out =>
      obtain ⟨n,rest⟩ := out
      rw [read] at kind
      subst kind
      cases n with
      | unsigned n => cases complaint
      | negative n => exact ⟨_,rfl,(message_negativeRun n).trans (Option.some.inj complaint)⟩
      | float y => exact ⟨_,rfl,(message_word _).trans (Option.some.inj complaint)⟩
  · simp only [readRun,found,if_neg number,refuse,kind]
    cases r with
    | error f => exact ⟨_,rfl,(message_unread shows).trans (Option.some.inj complaint)⟩
    | ok shown =>
      refine ⟨_,rfl,(message_word _).trans ?_⟩
      cases shown with
      | number x => exact absurd shows.head_number number
      | _ => exact Option.some.inj complaint

theorem readText_mistyped (blank : Blank a) (shows : Shows r v) (complaint : Field.beamMode.complaint? r = some message)
    (ends : Ends t) : ∃ f, readText (a ++ v ++ t) = .error f ∧ f.message = message := by
  obtain ⟨b,u,rfl,found⟩ := skipSpace_shows blank shows t
  have kind := shows.found ends
  rw [List.cons_append] at kind
  have quote : b ≠ ascii '"' := by
    rintro rfl
    obtain ⟨s,rfl⟩ := shows.head_string
    cases complaint
  simp only [readText,found,if_neg quote,refuse,kind]
  cases r with
  | error f => exact ⟨_,rfl,(message_unread shows).trans (Option.some.inj complaint)⟩
  | ok shown =>
    refine ⟨_,rfl,(message_text _).trans ?_⟩
    cases shown with
    | string s => cases complaint
    | _ => exact Option.some.inj complaint

/-- Both strings of a snapshot are asked for in the same words. -/
theorem complaint?_daqState (r : Except Json.Fault Json.Found) :
    Field.daqState.complaint? r = Field.beamMode.complaint? r := by
  cases r with
  | error | ok => rfl

theorem readField_mistyped (seen : Seen) (blank : Blank a) (shows : Shows r v)
    (complaint : field.complaint? r = some message) (ends : Ends t) :
    ∃ f, readField seen (a ++ v ++ t) field = .error f ∧ f.message = message := by
  cases field with
  | run =>
    obtain ⟨f,read,told⟩ := readRun_mistyped blank shows complaint ends
    exact ⟨f,by simp only [readField,read,Except.map],told⟩
  | beamMode =>
    obtain ⟨f,read,told⟩ := readText_mistyped blank shows complaint ends
    exact ⟨f,by simp only [readField,read,Except.map],told⟩
  | daqState =>
    rw [complaint?_daqState] at complaint
    obtain ⟨f,read,told⟩ := readText_mistyped blank shows complaint ends
    exact ⟨f,by simp only [readField,read,Except.map],told⟩

theorem holds_of_fine (shows : Shows r v) (fine : field.complaint? r = none) : ∃ s, Holds s field v := by
  cases shows with
  | @number _ n numeral =>
    cases value : n.value with
    | error f =>
      rw [value] at fine
      cases field <;> cases fine
    | ok x =>
      rw [value] at fine
      cases field with
      | run =>
        cases x with
        | unsigned k =>
          have read := Json.readNumber_denotes numeral value (t := []) nofun
          obtain ⟨w,whole,same,fits,rest⟩ := Json.exists_of_readNumber read
          rw [List.append_nil,List.append_nil] at rest
          subst rest
          exact ⟨⟨UInt64.ofNat k,"",""⟩,whole,same.trans (Nat.mod_eq_of_lt fits).symm⟩
        | _ => cases fine
      | beamMode | daqState => cases fine
  | @string _ text quoted =>
    cases field with
    | run => cases fine
    | beamMode => exact ⟨⟨0,text,""⟩,quoted⟩
    | daqState => exact ⟨⟨0,"",text⟩,quoted⟩
  | null | yes | no => cases field <;> cases fine
  | @bracket k => cases field <;> cases k <;> cases fine

/-- Nothing is said against what writes a snapshot's value of the field, and only
against that. -/
theorem complaint?_eq_none_iff (shows : Shows r v) : field.complaint? r = none ↔ ∃ s, Holds s field v := by
  constructor
  · exact holds_of_fine shows
  · rintro ⟨s,holds⟩
    cases field with
    | run =>
      rw [shows.unique (Json.denotes_whole holds.1 holds.2 s.run.toNat_lt).shows]
      rfl
    | beamMode | daqState =>
      rw [shows.unique (.string holds)]
      rfl

/-- Neither `-0` nor `5.0` is a run. -/
example : [⟨true,[0],[],none⟩,⟨false,[5],[0],none⟩].map (fun n : Json.Literal =>
    Field.run.complaint? (n.value.map .number)) =
      [some "invalid type: floating point \x60-0.0\x60, expected u64",
        some "invalid type: floating point \x605.0\x60, expected u64"] := by
  decide +kernel

/-! ## Reading members -/

theorem named_concat : named field (ms ++ [m]) = [] ↔ named field ms = [] ∧ m.1 ≠ field.name := by
  simp [named]

/-- What has been seen is what the members so far write. -/
structure Seen.Kept (seen : Seen) (ms : List (String × List UInt8)) : Prop where
  has : ∀ field : Field, seen.has field = false ↔ named field ms = []
  writes : ∀ s later, seen.Completed s later → Writes s (ms ++ later)

theorem kept_none : Seen.none.Kept [] := by
  refine ⟨fun field => ?_,fun s later completed => completed_none_iff.mp completed⟩
  cases field with
  | run | beamMode | daqState => exact ⟨fun _ => rfl,fun _ => rfl⟩

theorem Seen.Takes.has {seen' : Seen} (takes : seen.Takes m seen') (g : Field) :
    seen'.has g = false ↔ seen.has g = false ∧ m.1 ≠ g.name := by
  cases takes with
  | other unknown => exact ⟨fun new => ⟨new,unknown g⟩,And.left⟩
  | @field f v snap new holds =>
    by_cases same : g = f
    · subst same
      simp [has_put]
    · rw [(put_other seen snap snap same).1]
      exact ⟨fun new => ⟨new,fun name => same (name_inj name).symm⟩,And.left⟩

theorem Seen.Takes.kept {seen' : Seen} (takes : seen.Takes m seen') (kept : seen.Kept ms) : seen'.Kept (ms ++ [m]) := by
  refine ⟨fun field => ?_,fun s later completed => ?_⟩
  · rw [takes.has,named_concat,kept.has]
  · rw [List.append_assoc]
    exact kept.writes s (m :: later) (takes.completed completed)

/-- At the end there is a snapshot that the members write, or a field is missing. -/
theorem Seen.Kept.snapshot (kept : seen.Kept ms) : (∃ s, seen.snapshot = .ok s ∧ Writes s ms) ∨
    ∃ field, seen.snapshot = .error (.missing field) ∧
      Field.all.find? (fun field => (named field ms).isEmpty) = some field := by
  have absent : (fun field => (named field ms).isEmpty) = fun field => !seen.has field := by
    funext field
    rw [Bool.eq_iff_iff,List.isEmpty_iff,← kept.has,Bool.not_eq_true']
  rw [absent]
  have writes (s : Snapshot) (complete : seen.snapshot = .ok s) : Writes s ms := by
    have whole := kept.writes s [] ⟨fun field => .inl ⟨snapshot_eq_ok_iff.mp complete field,rfl⟩,by simp⟩
    rwa [List.append_nil] at whole
  obtain ⟨run,beamMode,daqState⟩ := seen
  cases run with
  | none => exact .inr ⟨.run,rfl,rfl⟩
  | some run =>
    cases beamMode with
    | none => exact .inr ⟨.beamMode,rfl,rfl⟩
    | some beamMode =>
      cases daqState with
      | none => exact .inr ⟨.daqState,rfl,rfl⟩
      | some daqState => exact .inl ⟨_,rfl,writes _ rfl⟩

theorem exists_takes (kept : seen.Kept ms) (legible : Legible m) (right : ∀ message, ¬Wrong ms m message) :
    ∃ seen', seen.Takes m seen' := by
  obtain ⟨name,v⟩ := m
  obtain ⟨form,text⟩ := legible
  by_cases unknown : ∀ field : Field, name ≠ field.name
  · exact ⟨seen,.other unknown form⟩
  simp only [not_forall,not_not] at unknown
  obtain ⟨field,rfl⟩ := unknown
  obtain ⟨r,shows⟩ := form.exists_shows (text field rfl)
  have new : named field ms = [] := by
    by_contra again
    exact right _ (.again again)
  have fine : field.complaint? r = none := by
    by_contra some
    obtain ⟨message,complaint⟩ := Option.ne_none_iff_exists'.mp some
    exact right message (.mistyped new shows complaint)
  obtain ⟨s,holds⟩ := (complaint?_eq_none_iff shows).mp fine
  exact ⟨_,.field ((kept.has field).mpr new) holds⟩

theorem readMember_wrong (kept : seen.Kept ms) (member : Member m p) (wrong : Wrong ms m message) (ends : Ends t) :
    ∃ f, readMember seen (p ++ t) = .error f ∧ f.message = message := by
  cases member with
  | @mk name a n b c v before quoted between ahead =>
    have key : readKey (a ++ n ++ (b ++ ascii ':' :: (c ++ v ++ t))) = .ok (name,b ++ ascii ':' :: (c ++ v ++ t)) :=
      readKey_eq_ok_iff.mpr ⟨a,n,before,quoted,rfl⟩
    have colon : ofJson (Json.readColon (b ++ ascii ':' :: (c ++ v ++ t))) = .ok (c ++ v ++ t) :=
      ofJson_eq_ok_iff.mpr (Json.readColon_eq_ok_iff.mpr ⟨b,between,rfl⟩)
    rw [show a ++ n ++ b ++ ascii ':' :: c ++ v ++ t = a ++ n ++ (b ++ ascii ':' :: (c ++ v ++ t)) by simp]
    cases wrong with
    | @again field _ again =>
      have has : seen.has field = true := by
        rw [← Bool.not_eq_false,kept.has]
        exact again
      exact ⟨.duplicate field,by simp only [readMember,key,ofName?_name,has,if_true],rfl⟩
    | @mistyped field _ _ _ new shows complaint =>
      have has : seen.has field = false := (kept.has field).mpr new
      obtain ⟨f,read,told⟩ := readField_mistyped seen ahead shows complaint ends
      exact ⟨f,by simp only [readMember,key,ofName?_name,has,colon,Bool.false_eq_true,if_false,read],told⟩

/-- From any member on, what is told is what the members so far and those that follow
select. -/
theorem exists_selects {first : Bool} (follow : Follow first after p) (kept : seen.Kept before)
    (legible : ∀ m ∈ after, Legible m) (right : Right before) (t : List UInt8) : ∃ r, Selects (before ++ after) r ∧
      (readMembers first seen (p ++ Bracket.closing .object :: t)).mapError Fault.message = r.map (·,t) := by
  -- What has been seen is the invariant: the members before are in it, and right.
  induction after generalizing first seen before p with
  | nil =>
    rw [List.append_nil,follow.read_closing]
    rcases kept.snapshot with ⟨s,complete,writes⟩ | ⟨field,incomplete,absent⟩
    · exact ⟨_,.complete right writes,by rw [complete]; rfl⟩
    · exact ⟨_,.missing right absent,by rw [incomplete]; rfl⟩
  | cons m after ih =>
    obtain ⟨q,w,member,later,read⟩ := follow.exists_read
    obtain ⟨plain,others⟩ := List.forall_mem_cons.mp legible
    by_cases some : ∃ message, Wrong before m message
    · obtain ⟨message,wrong⟩ := some
      obtain ⟨f,failed,told⟩ := readMember_wrong kept member wrong later.ends
      refine ⟨_,.wrong rfl right wrong,?_⟩
      rw [read,failed,← told]
      rfl
    · rw [not_exists] at some
      obtain ⟨seen',takes⟩ := exists_takes kept plain some
      obtain ⟨r,selects,same⟩ := ih later (takes.kept kept) others (right_concat right some)
      rw [List.append_assoc] at selects
      refine ⟨r,selects,?_⟩
      rw [read,readMember_complete member takes later.ends]
      exact same

theorem Object.exists_selects {body : List UInt8} (object : Object ms body) :
    ∃ r, Selects ms r ∧ (ofPayload body).mapError Fault.message = r := by
  cases object with
  | @mk a text b blank members legible space =>
    have found : skipSpace (a ++ Bracket.opening .object :: text ++ Bracket.closing .object :: b) =
        Bracket.opening .object :: (text ++ Bracket.closing .object :: b) :=
      Json.skipSpace_eq_cons_iff.mpr ⟨by decide,a,blank,by simp⟩
    have apart : Bracket.opening .object ≠ Bracket.opening .list := by decide
    obtain ⟨r,selects,same⟩ := Snapshot.exists_selects members kept_none legible right_nil b
    refine ⟨r,selects,?_⟩
    simp only [ofPayload,readSnapshot,found,if_neg apart,if_true]
    cases read : readMembers true .none (text ++ Bracket.closing .object :: b) with
    | error f =>
      rw [read] at same
      cases r with
      | error message => exact congrArg Except.error (Except.error.inj same)
      | ok s => cases same
    | ok out =>
      rw [read] at same
      cases r with
      | error message => cases same
      | ok s =>
        obtain rfl := Except.ok.inj same
        simp only [skipSpace_eq_nil_iff.mpr space,List.isEmpty_nil,if_true]
        rfl

/-- What the members select is what is told. -/
theorem Object.told {body : List UInt8} (object : Object ms body) (result : Except String Snapshot) :
    (ofPayload body).mapError Fault.message = result ↔ Selects ms result := by
  obtain ⟨told,selects,same⟩ := object.exists_selects
  constructor
  · rintro rfl
    rw [same]
    exact selects
  · intro selects'
    rw [same,selects.unique selects']

end

/-- Let a body be an object. Its reader tells what its members select and nothing else,
and a poll that brings this body tells the same. As values of fields, numbers are read and
refused by the number that they write. -/
theorem ofPayload_selects {ms : List (String × List UInt8)} {body : List UInt8} (object : Object ms body) :
    (∀ result, (ofPayload body).mapError Fault.message = result ↔ Selects ms result) ∧
    (∀ url (r : Response) result, r.isSuccess = true → r.complete = true → r.payload = body → Selects ms result →
      HttpFeed.read url r = result.mapError .malformed) ∧
    ∀ m ∈ ms, ∀ n, Json.Numeral m.2 n → m.2.length < 2 ^ 30 → n.Ranged := by
  have answer := object.told
  refine ⟨answer,?_,fun m _ n numeral short => numeral.ranged short⟩
  rintro url r result success complete rfl selects'
  rw [← (answer result).mpr selects']
  cases read : ofPayload r.payload with
  | ok s =>
    simp only [HttpFeed.read,success,complete,Bool.not_true,Bool.false_eq_true,if_false,read]
    rfl
  | error f => exact read_malformed url success complete read

/-- A run that comes again is told before its value is looked at, and before the two
fields that are missing. -/
theorem second_run_told :
    let body := Utf8.ofString "\x7b\"runNumber\":5,\"runNumber\":\"six\"\x7d"
    (ofPayload body).mapError Fault.message = .error "duplicate field \x60runNumber\x60" := by
  intro body
  let first := (Field.run.name,Utf8.encode (Value.nat 5).writeCompact)
  let second := (Field.run.name,Utf8.encode (Value.string "six").writeCompact)
  have five : Denotes (.value (.nat 5)) first.2 :=
    Json.denotes_whole (Json.whole_digits 5) (Json.ofValues_digits 5) (by decide)
  have six : Denotes (.value (.string "six")) second.2 := .string (Json.quoted_writeString "six")
  have object : Object [first,second] body := by
    have members := members_writeMembers Field.run.name (.nat 5) [(Field.run.name,.string "six")]
    have telling : Telling [(Field.run.name,.nat 5),(Field.run.name,.string "six")] [first,second] :=
      .cons ⟨rfl,five⟩ (.cons ⟨rfl,six⟩ .nil)
    have object := Object.mk Json.blank_nil (.first members) telling.legible Json.blank_nil
    have text : body = [] ++ Bracket.opening .object :: Utf8.encode (Json.writeString Field.run.name ++ ':' ::
      ((Value.nat 5).writeCompact ++ Json.writeMembers [(Field.run.name,.string "six")])) ++
        Bracket.closing .object :: [] := by decide +kernel
    rw [text]
    exact object
  have right : Right [first] := by
    refine right_concat right_nil fun message wrong => ?_
    generalize same : first = m at wrong
    cases wrong with
    | again seen => exact seen rfl
    | @mistyped field v r message new shows complaint =>
      obtain ⟨name,rfl⟩ := Prod.mk.inj same
      obtain rfl : Field.run = field := name_inj name
      obtain rfl := five.shows.unique shows
      cases complaint
  have again : Wrong [first] second ("duplicate field \x60" ++ Field.run.name ++ "\x60") := .again (by decide)
  exact ((ofPayload_selects object).1 _).mpr (.wrong rfl right again)

/-- The greatest double, cut off behind its nineteenth digit. -/
def greatest : Json.Literal := ⟨false,[1,7,9,7,6,9,3,1,3,4,8,6,2,3,1,5,7,0,8],[],some (false,[2,9,0])⟩

/-- A run that is less than the greatest double may still be out of range. Then it is not told to
be of another type. -/
theorem greatest_double_refused :
    let body := Utf8.ofString
      "\x7b\"runNumber\":1797693134862315708e290,\"lhcBeamMode\":\"STABLE BEAMS\",\"daqState\":\"RUNNING\"\x7d"
    Json.readLiteral .endInValue (Utf8.ofString "1797693134862315708e290") = .ok (greatest,[]) ∧
      greatest.rational < (2 ^ 53 - 1) * 2 ^ 971 ∧
      (ofPayload body).mapError Fault.message = .error "number out of range" ∧
      ∀ kind, runComplaint? kind ≠ some "number out of range" := by
  refine ⟨by decide +kernel,?_,by decide +kernel,fun kind => ?_⟩
  · have digits : greatest.digits = 1797693134862315708 := by
      have same : Decimal.ofValues 0 (greatest.whole ++ greatest.fraction) = 1797693134862315708 := by decide +kernel
      have none : -(greatest.fraction.length : Int) = 0 := rfl
      rw [Json.Literal.digits,same,none,zpow_zero,mul_one]
      norm_num
    have power : greatest.power = (290 : Nat) := rfl
    have written : greatest.rational = 1797693134862315708 * 10 ^ 290 := by
      have positive : greatest.negative = false := rfl
      rw [Json.Literal.rational,digits,power,positive,zpow_natCast,if_neg Bool.false_ne_true,one_mul]
    have less : 1797693134862315708 * 10 ^ 290 < 9007199254740991 * 2 ^ 971 := by decide +kernel
    have less : (1797693134862315708 : ℚ) * 10 ^ 290 < 9007199254740991 * 2 ^ 971 := by exact_mod_cast less
    rw [written]
    convert less using 2
    norm_num
  · have apart (rest : String) : "invalid type: " ++ rest ++ ", expected u64" ≠ "number out of range" := by
      intro same
      have first := congrArg (fun s : String => s.toList.head?) same
      simp at first
    unfold runComplaint?
    split
    · intro same
      cases same
    · intro same
      have first := congrArg (fun s : Option String => s.bind fun s => s.toList.head?) same
      simp at first
    · exact fun same => apart _ (Option.some.inj same)

end Lockstep.Snapshot
