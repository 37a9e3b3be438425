import Lockstep.HttpFeed
import Lockstep.Proofs.Json.Skipped

/-!
# Payloads

The form of a payload, said apart from its reader: an object with each member of
a snapshot once, among any others, or a list of their three values. The reader
accepts a payload exactly where it has that form, and then its answer is the
snapshot that is written there (`ofPayload_iff`).
-/

namespace Lockstep.Snapshot

open Lockstep.Json (ascii skipSpace Bracket Blank Whole Quoted Conforms Ends)

/-! ## The form of a payload -/

/-- The bytes that write a snapshot's value of a field. -/
def Holds (s : Snapshot) : Field → List UInt8 → Prop
  | .run,v => Whole v ∧ Decimal.ofValues 0 (Json.digitValues v) = s.run.toNat
  | .beamMode,v => Quoted v s.beamMode
  | .daqState,v => Quoted v s.daqState

/-- A member by its name, escapes resolved, and the bytes of its value; with the
spaces before the name and the value. -/
inductive Member : String × List UInt8 → List UInt8 → Prop
  | mk {name : String} {a n b c v : List UInt8} (before : Blank a) (quoted : Quoted n name) (between : Blank b)
      (ahead : Blank c) : Member (name,v) (a ++ n ++ b ++ ascii ':' :: c ++ v)

/-- The members of an object, one or more. -/
inductive Members : List (String × List UInt8) → List UInt8 → Prop
  | last {m : String × List UInt8} {p d : List UInt8} (member : Member m p) (after : Blank d) : Members [m] (p ++ d)
  | more {m : String × List UInt8} {ms : List (String × List UInt8)} {p d q : List UInt8} (member : Member m p)
      (after : Blank d) (further : Members ms q) : Members (m :: ms) (p ++ d ++ ascii ',' :: q)

/-- The members with the name of a field. -/
def named (field : Field) (ms : List (String × List UInt8)) : List (String × List UInt8) :=
  ms.filter (·.1 = field.name)

/-- Members that write a snapshot: one for each field, and others of any value. -/
structure Writes (s : Snapshot) (ms : List (String × List UInt8)) : Prop where
  once : ∀ field : Field, ∃ v, Holds s field v ∧ named field ms = [(field.name,v)]
  others : ∀ m ∈ ms, (∀ field : Field, m.1 ≠ field.name) → Conforms .value m.2

/-- A value with spaces around it. -/
inductive Item (s : Snapshot) (field : Field) : List UInt8 → Prop
  | mk {a v b : List UInt8} (before : Blank a) (holds : Holds s field v) (after : Blank b) :
      Item s field (a ++ v ++ b)

/-- The payloads that write a snapshot. -/
inductive Payload (s : Snapshot) : List UInt8 → Prop
  | object {a text b : List UInt8} {ms : List (String × List UInt8)} (before : Blank a) (members : Members ms text)
      (writes : Writes s ms) (after : Blank b) :
      Payload s (a ++ Bracket.opening .object :: text ++ Bracket.closing .object :: b)
  | list {a x y z b : List UInt8} (before : Blank a) (run : Item s .run x) (beamMode : Item s .beamMode y)
      (daqState : Item s .daqState z) (after : Blank b) :
      Payload s (a ++ Bracket.opening .list :: x ++ ascii ',' :: y ++ ascii ',' :: z ++ Bracket.closing .list :: b)

/-! ## Values -/

section
variable {seen seen' : Seen} {field : Field} {s snap : Snapshot} {t u a v : List UInt8}

theorem ofJson_eq_ok_iff {α : Type} {x : Except Json.Fault α} {y : α} : ofJson x = .ok y ↔ x = .ok y := by
  cases x with
  | error => simp [ofJson]
  | ok => simp [ofJson]

theorem refuse_ne_ok {α : Type} {shape : Shape} {x : α} : refuse shape u ≠ .ok x := by
  unfold refuse
  split
  · simp
  · simp

theorem exists_of_readRun {run : Run} (read : readRun u = .ok (run,t)) :
    ∃ a v, Blank a ∧ (Whole v ∧ Decimal.ofValues 0 (Json.digitValues v) = run.toNat) ∧ u = a ++ v ++ t := by
  unfold readRun at read
  split at read
  · cases read
  next b rest found =>
  obtain ⟨_,a,blank,rfl⟩ := Json.skipSpace_eq_cons_iff.mp found
  split at read
  · split at read
    · cases read
    · next n w number =>
      cases read
      obtain ⟨v,whole,same,fits,front⟩ := Json.exists_of_readNumber number
      refine ⟨a,v,blank,⟨whole,?_⟩,by rw [front]; simp⟩
      rw [same]
      exact (Nat.mod_eq_of_lt fits).symm
    · cases read
    · cases read
  · exact absurd read refuse_ne_ok

theorem whole_head {w : List UInt8} (whole : Whole w) : ∃ b x, w = b :: x ∧ Json.isDigit b = true := by
  cases w with
  | nil => exact absurd rfl whole.digits.some
  | cons b w => exact ⟨b,w,rfl,Json.isDigit_iff.mpr (whole.digits.all b List.mem_cons_self)⟩

theorem readRun_complete {run : Run} (blank : Blank a) (whole : Whole v)
    (same : Decimal.ofValues 0 (Json.digitValues v) = run.toNat) (ends : Ends t) :
    readRun (a ++ v ++ t) = .ok (run,t) := by
  have read := Json.readNumber_complete whole same run.toNat_lt ends
  obtain ⟨b,x,rfl,digit⟩ := whole_head whole
  have found : skipSpace (a ++ b :: (x ++ t)) = b :: (x ++ t) :=
    Json.skipSpace_eq_cons_iff.mpr ⟨Json.isSpace_of_number (.inr digit),a,blank,rfl⟩
  rw [List.cons_append] at read
  rw [List.append_assoc,List.cons_append,readRun]
  simp only [found]
  rw [if_pos (.inr digit)]
  simp only [read,UInt64.ofNat_toNat]

theorem readText_eq_ok_iff {text : String} :
    readText u = .ok (text,t) ↔ ∃ a v, Blank a ∧ Quoted v text ∧ u = a ++ v ++ t := by
  constructor
  · intro read
    unfold readText at read
    split at read
    · cases read
    next b rest found =>
    obtain ⟨_,a,blank,rfl⟩ := Json.skipSpace_eq_cons_iff.mp found
    split at read
    · next quote =>
      obtain ⟨body,spells,rfl⟩ := Json.readString_eq_ok_iff.mp (ofJson_eq_ok_iff.mp read)
      exact ⟨a,_,blank,⟨body,spells,rfl⟩,by rw [quote]; simp⟩
    · exact absurd read refuse_ne_ok
  · rintro ⟨a,v,blank,⟨body,spells,rfl⟩,rfl⟩
    have found : skipSpace (a ++ ascii '"' :: (body ++ ascii '"' :: t)) = ascii '"' :: (body ++ ascii '"' :: t) :=
      Json.skipSpace_eq_cons_iff.mpr ⟨by decide,a,blank,rfl⟩
    have read : Json.readString (body ++ ascii '"' :: t) = .ok (text,t) := Json.readString_eq_ok_iff.mpr ⟨body,spells,rfl⟩
    simp only [List.append_assoc,List.cons_append,List.nil_append,readText,found,if_true,ofJson_eq_ok_iff.mpr read]

/-- What has been seen with one more field, which is as in a snapshot. -/
def Seen.put (seen : Seen) (s : Snapshot) : Field → Seen
  | .run => ⟨some s.run,seen.beamMode,seen.daqState⟩
  | .beamMode => ⟨seen.run,some s.beamMode,seen.daqState⟩
  | .daqState => ⟨seen.run,seen.beamMode,some s.daqState⟩

theorem exists_of_readField (read : readField seen u field = .ok (seen',t)) :
    ∃ a v s, Blank a ∧ Holds s field v ∧ seen' = seen.put s field ∧ u = a ++ v ++ t := by
  cases field with
  | run =>
    obtain ⟨⟨run,rest⟩,value,out⟩ := Json.exists_of_map_eq_ok read
    cases out
    obtain ⟨a,v,blank,whole,rfl⟩ := exists_of_readRun value
    exact ⟨a,v,⟨run,"",""⟩,blank,whole,rfl,rfl⟩
  | beamMode =>
    obtain ⟨⟨text,rest⟩,value,out⟩ := Json.exists_of_map_eq_ok read
    cases out
    obtain ⟨a,v,blank,quoted,rfl⟩ := readText_eq_ok_iff.mp value
    exact ⟨a,v,⟨0,text,""⟩,blank,quoted,rfl,rfl⟩
  | daqState =>
    obtain ⟨⟨text,rest⟩,value,out⟩ := Json.exists_of_map_eq_ok read
    cases out
    obtain ⟨a,v,blank,quoted,rfl⟩ := readText_eq_ok_iff.mp value
    exact ⟨a,v,⟨0,"",text⟩,blank,quoted,rfl,rfl⟩

theorem readField_complete (blank : Blank a) (holds : Holds s field v) (ends : Ends t) :
    readField seen (a ++ v ++ t) field = .ok (seen.put s field,t) := by
  cases field with
  | run =>
    have read := readRun_complete blank holds.1 holds.2 ends
    simp only [readField,read,Except.map,Seen.put]
  | beamMode =>
    have read : readText (a ++ v ++ t) = .ok (s.beamMode,t) := readText_eq_ok_iff.mpr ⟨a,v,blank,holds,rfl⟩
    simp only [readField,read,Except.map,Seen.put]
  | daqState =>
    have read : readText (a ++ v ++ t) = .ok (s.daqState,t) := readText_eq_ok_iff.mpr ⟨a,v,blank,holds,rfl⟩
    simp only [readField,read,Except.map,Seen.put]

/-! ## Members -/

theorem readKey_eq_ok_iff {name : String} :
    readKey u = .ok (name,t) ↔ ∃ a n, Blank a ∧ Quoted n name ∧ u = a ++ n ++ t := by
  constructor
  · intro read
    unfold readKey at read
    split at read
    · cases read
    next b rest found =>
    obtain ⟨_,a,blank,rfl⟩ := Json.skipSpace_eq_cons_iff.mp found
    split at read
    · next quote =>
      obtain ⟨body,spells,rfl⟩ := Json.readString_eq_ok_iff.mp (ofJson_eq_ok_iff.mp read)
      exact ⟨a,_,blank,⟨body,spells,rfl⟩,by rw [quote]; simp⟩
    split at read
    · cases read
    · cases read
  · rintro ⟨a,n,blank,⟨body,spells,rfl⟩,rfl⟩
    have found : skipSpace (a ++ ascii '"' :: (body ++ ascii '"' :: t)) = ascii '"' :: (body ++ ascii '"' :: t) :=
      Json.skipSpace_eq_cons_iff.mpr ⟨by decide,a,blank,rfl⟩
    have read : Json.readString (body ++ ascii '"' :: t) = .ok (name,t) := Json.readString_eq_ok_iff.mpr ⟨body,spells,rfl⟩
    simp only [List.append_assoc,List.cons_append,List.nil_append,readKey,found,if_true,ofJson_eq_ok_iff.mpr read]

theorem ofName?_eq_none_iff {name : String} : Field.ofName? name = none ↔ ∀ field : Field, name ≠ field.name := by
  have all (field : Field) : field ∈ Field.all := by cases field <;> simp [Field.all]
  rw [Field.ofName?,List.find?_eq_none]
  constructor
  · rintro none field rfl
    exact none field (all field) (beq_self_eq_true _)
  · intro unknown field _ known
    exact unknown field (beq_iff_eq.mp known).symm

theorem ofName?_name (field : Field) : Field.ofName? field.name = some field := by
  cases field <;> decide

theorem name_of_ofName? {name : String} (known : Field.ofName? name = some field) : name = field.name := by
  unfold Field.ofName? at known
  have same := List.find?_some known
  exact (beq_iff_eq.mp same).symm

/-- What one member does to what has been seen. -/
inductive Seen.Takes (seen : Seen) : String × List UInt8 → Seen → Prop
  | field {field : Field} {v : List UInt8} {s : Snapshot} (new : seen.has field = false) (holds : Holds s field v) :
      seen.Takes (field.name,v) (seen.put s field)
  | other {name : String} {v : List UInt8} (unknown : ∀ field : Field, name ≠ field.name)
      (value : Conforms .value v) : seen.Takes (name,v) seen

theorem exists_of_readMember (read : readMember seen u = .ok (seen',t)) :
    ∃ m p, Member m p ∧ seen.Takes m seen' ∧ u = p ++ t := by
  unfold readMember at read
  split at read
  · cases read
  next name rest key =>
  obtain ⟨a,n,before,quoted,rfl⟩ := readKey_eq_ok_iff.mp key
  split at read
  · next unknown =>
    split at read
    · cases read
    next colon =>
    obtain ⟨b,between,rfl⟩ := Json.readColon_eq_ok_iff.mp (ofJson_eq_ok_iff.mp colon)
    obtain ⟨rest,skipped,out⟩ := Json.exists_of_map_eq_ok read
    cases out
    obtain ⟨c,v,ahead,value,rfl⟩ := Json.exists_of_skipValue (ofJson_eq_ok_iff.mp skipped)
    exact ⟨(name,v),_,.mk before quoted between ahead,.other (ofName?_eq_none_iff.mp unknown) value,by simp⟩
  · next field known =>
    split at read
    · cases read
    next new =>
    split at read
    · cases read
    next colon =>
    obtain ⟨b,between,rfl⟩ := Json.readColon_eq_ok_iff.mp (ofJson_eq_ok_iff.mp colon)
    obtain ⟨c,v,s,ahead,holds,rfl,rfl⟩ := exists_of_readField read
    obtain rfl := name_of_ofName? known
    exact ⟨(field.name,v),_,.mk before quoted between ahead,.field (Bool.not_eq_true _ ▸ new) holds,by simp⟩

theorem readMember_complete {m : String × List UInt8} {p : List UInt8} (member : Member m p)
    (takes : seen.Takes m seen') (ends : Ends t) : readMember seen (p ++ t) = .ok (seen',t) := by
  cases member with
  | @mk name a n b c v before quoted between ahead =>
    have key : readKey (a ++ n ++ (b ++ ascii ':' :: (c ++ v ++ t))) = .ok (name,b ++ ascii ':' :: (c ++ v ++ t)) :=
      readKey_eq_ok_iff.mpr ⟨a,n,before,quoted,rfl⟩
    have colon : ofJson (Json.readColon (b ++ ascii ':' :: (c ++ v ++ t))) = .ok (c ++ v ++ t) :=
      ofJson_eq_ok_iff.mpr (Json.readColon_eq_ok_iff.mpr ⟨b,between,rfl⟩)
    rw [show a ++ n ++ b ++ ascii ':' :: c ++ v ++ t = a ++ n ++ (b ++ ascii ':' :: (c ++ v ++ t)) by simp]
    cases takes with
    | other unknown value =>
      have skipped : ofJson (Json.skipValue (c ++ v ++ t)) = .ok t :=
        ofJson_eq_ok_iff.mpr (Json.skipValue_complete ahead value ends)
      simp only [readMember,key,ofName?_eq_none_iff.mpr unknown,colon,skipped,Except.map]
    | field new holds =>
      simp only [readMember,key,ofName?_name,new,colon,Bool.false_eq_true,if_false]
      exact readField_complete ahead holds ends

/-- What members do to what has been seen, up to the snapshot at the end. -/
inductive Seen.Collects : Seen → List (String × List UInt8) → Snapshot → Prop
  | done {seen : Seen} {s : Snapshot} (complete : seen.snapshot = .ok s) : Collects seen [] s
  | take {seen seen' : Seen} {m : String × List UInt8} {ms : List (String × List UInt8)} {s : Snapshot}
      (takes : seen.Takes m seen') (further : seen'.Collects ms s) : Collects seen (m :: ms) s

/-- Members that follow: none, at once where none has come before, or after a comma. -/
inductive Follow : Bool → List (String × List UInt8) → List UInt8 → Prop
  | none {first : Bool} {d : List UInt8} (blank : Blank d) : Follow first [] d
  | first {ms : List (String × List UInt8)} {p : List UInt8} (members : Members ms p) : Follow true ms p
  | next {ms : List (String × List UInt8)} {d p : List UInt8} (blank : Blank d) (members : Members ms p) :
      Follow false ms (d ++ ascii ',' :: p)

theorem Member.blank {m : String × List UInt8} {p : List UInt8} (blank : Blank a) (member : Member m p) :
    Member m (a ++ p) := by
  cases member with
  | @mk name b n c d v before quoted between ahead =>
    have longer : Member (name,v) _ := .mk (Json.blank_append blank before) quoted between ahead
    simpa using longer

theorem Members.of_follow {m : String × List UInt8} {ms : List (String × List UInt8)} {p q : List UInt8}
    (member : Member m p) (follow : Follow false ms q) : Members (m :: ms) (p ++ q) := by
  cases follow with
  | none blank => exact .last member blank
  | next blank members =>
    rw [← List.append_assoc]
    exact .more member blank members

theorem Members.exists_follow {ms : List (String × List UInt8)} {p : List UInt8} (members : Members ms p) :
    ∃ m later q r, ms = m :: later ∧ Member m q ∧ Follow false later r ∧ p = q ++ r := by
  cases members with
  | last member after => exact ⟨_,_,_,_,rfl,member,.none after,rfl⟩
  | more member after further => exact ⟨_,_,_,_,rfl,member,.next after further,by simp⟩

theorem exists_of_readMembers {first : Bool} (read : readMembers first seen u = .ok (s,t)) :
    ∃ ms p, seen.Collects ms s ∧ Follow first ms p ∧ u = p ++ Bracket.closing .object :: t := by
  fun_induction readMembers first seen u with
  | case1 => cases read
  | case2 first seen u rest found =>
    obtain ⟨_,a,blank,rfl⟩ := Json.skipSpace_eq_cons_iff.mp found
    obtain ⟨snapshot,complete,out⟩ := Json.exists_of_map_eq_ok read
    cases out
    exact ⟨[],a,.done complete,.none blank,rfl⟩
  | case3 => cases read
  | case4 seen u b rest found _ seen' u' step ih =>
    obtain ⟨_,a,blank,rfl⟩ := Json.skipSpace_eq_cons_iff.mp found
    obtain ⟨ms,q,collects,follow,rfl⟩ := ih read
    obtain ⟨m,p,member,takes,whole⟩ := exists_of_readMember step
    refine ⟨m :: ms,a ++ p ++ q,.take takes collects,.first (.of_follow (member.blank blank) follow),?_⟩
    rw [whole]
    simp
  | case5 => cases read
  | case6 first seen u rest later seen' u' step found _ ih =>
    obtain rfl : first = false := by simpa using later
    obtain ⟨_,a,blank,rfl⟩ := Json.skipSpace_eq_cons_iff.mp found
    obtain ⟨ms,q,collects,follow,rfl⟩ := ih read
    obtain ⟨m,p,member,takes,rfl⟩ := exists_of_readMember step
    exact ⟨m :: ms,a ++ ascii ',' :: (p ++ q),.take takes collects,.next blank (.of_follow member follow),by simp⟩
  | case7 => cases read

/-- Spaces before a member make no difference. -/
theorem readMember_skipSpace (seen : Seen) (u : List UInt8) : readMember seen (skipSpace u) = readMember seen u := by
  obtain ⟨a,blank,whole⟩ := Json.exists_blank u
  have twice : skipSpace (skipSpace u) = skipSpace u := by rw [← Json.skipSpace_append blank (skipSpace u),← whole]
  simp only [readMember,readKey,twice]

theorem readMembers_closing {first : Bool} {rest : List UInt8}
    (found : skipSpace u = Bracket.closing .object :: rest) :
    readMembers first seen u = seen.snapshot.map (·,rest) := by
  rw [readMembers]
  split
  · next none => rw [found] at none; cases none
  next found' =>
  rw [found] at found'
  cases found'
  rw [if_pos rfl]

/-- Goes on after a member. -/
def readLater (read : Except Fault (Seen × List UInt8)) : Except Fault (Snapshot × List UInt8) :=
  read.bind fun (seen,u) => readMembers false seen u

theorem readMembers_first {b : UInt8} {rest : List UInt8} (found : skipSpace u = b :: rest)
    (further : b ≠ Bracket.closing .object) : readMembers true seen u = readLater (readMember seen u) := by
  rw [← readMember_skipSpace,found,readMembers]
  split
  · next none => rw [found] at none; cases none
  next found' =>
  rw [found] at found'
  cases found'
  rw [if_neg further,if_pos rfl]
  split
  · next failed => rw [failed]; rfl
  · next read => rw [read]; rfl

theorem readMembers_next {rest : List UInt8} (found : skipSpace u = ascii ',' :: rest) :
    readMembers false seen u = readLater (readMember seen rest) := by
  have further : ascii ',' ≠ Bracket.closing .object := by decide
  rw [readMembers]
  split
  · next none => rw [found] at none; cases none
  next found' =>
  rw [found] at found'
  cases found'
  rw [if_neg further,if_neg Bool.false_ne_true,if_pos rfl]
  split
  · next failed => rw [failed]; rfl
  · next read => rw [read]; rfl

theorem Member.exists_head {m : String × List UInt8} {p : List UInt8} (member : Member m p) :
    ∃ a x, Blank a ∧ p = a ++ ascii '"' :: x := by
  cases member with
  | @mk name a n b c v before quoted between ahead =>
    obtain ⟨body,_,rfl⟩ := quoted
    exact ⟨a,body ++ ascii '"' :: (b ++ ascii ':' :: (c ++ v)),before,by simp⟩

theorem Follow.ends {ms : List (String × List UInt8)} {p : List UInt8} (follow : Follow false ms p) :
    Ends (p ++ Bracket.closing .object :: t) := by
  cases follow with
  | none blank => exact Json.ends_blank blank (Json.ends_closing .object t)
  | next blank members =>
    rw [List.append_assoc]
    exact Json.ends_blank blank (Json.ends_comma _)

theorem Follow.read_closing {first : Bool} {p : List UInt8} (follow : Follow first [] p) (seen : Seen) (t : List UInt8) :
    readMembers first seen (p ++ Bracket.closing .object :: t) = seen.snapshot.map (·,t) := by
  cases follow with
  | none blank => exact readMembers_closing (Json.skipSpace_eq_cons_iff.mpr ⟨by decide,p,blank,rfl⟩)
  | first members => cases members
  | next blank members => cases members

/-- The first of the members that follow is read, and then the others. -/
theorem Follow.exists_read {first : Bool} {m : String × List UInt8} {ms : List (String × List UInt8)} {p : List UInt8}
    (follow : Follow first (m :: ms) p) : ∃ q r, Member m q ∧ Follow false ms r ∧ ∀ seen t,
      readMembers first seen (p ++ Bracket.closing .object :: t) =
        readLater (readMember seen (q ++ (r ++ Bracket.closing .object :: t))) := by
  cases follow with
  | first members =>
    obtain ⟨_,_,q,r,whole,member,follow,rfl⟩ := members.exists_follow
    cases whole
    refine ⟨q,r,member,follow,fun seen t => ?_⟩
    obtain ⟨a,x,blank,rfl⟩ := member.exists_head
    have found : skipSpace (a ++ ascii '"' :: x ++ (r ++ Bracket.closing .object :: t)) =
        ascii '"' :: (x ++ (r ++ Bracket.closing .object :: t)) :=
      Json.skipSpace_eq_cons_iff.mpr ⟨by decide,a,blank,by simp⟩
    rw [List.append_assoc,readMembers_first found (by decide)]
  | @next _ d _ blank members =>
    obtain ⟨_,_,q,r,whole,member,follow,rfl⟩ := members.exists_follow
    cases whole
    refine ⟨q,r,member,follow,fun seen t => ?_⟩
    exact readMembers_next (Json.skipSpace_eq_cons_iff.mpr ⟨by decide,d,blank,by simp⟩)

theorem readMembers_complete {first : Bool} {ms : List (String × List UInt8)} {p : List UInt8}
    (follow : Follow first ms p) (collects : seen.Collects ms s) (t : List UInt8) :
    readMembers first seen (p ++ Bracket.closing .object :: t) = .ok (s,t) := by
  -- What has been seen changes from member to member, so the induction goes along with it and not with the text.
  induction collects generalizing first p with
  | done complete =>
    rw [follow.read_closing,complete]
    rfl
  | take takes further ih =>
    obtain ⟨q,r,member,later,read⟩ := follow.exists_read
    rw [read,readMember_complete member takes later.ends]
    exact ih later

/-! ## What has been seen -/

/-- What has been seen of a field is as in a snapshot. -/
def Seen.Agrees (seen : Seen) (s : Snapshot) : Field → Prop
  | .run => seen.run = some s.run
  | .beamMode => seen.beamMode = some s.beamMode
  | .daqState => seen.daqState = some s.daqState

/-- Members that together with what has been seen write a snapshot: each field
has been seen or is among them, never both. -/
structure Seen.Completed (seen : Seen) (s : Snapshot) (ms : List (String × List UInt8)) : Prop where
  each : ∀ field : Field, (seen.Agrees s field ∧ named field ms = []) ∨
    (seen.has field = false ∧ ∃ v, Holds s field v ∧ named field ms = [(field.name,v)])
  others : ∀ m ∈ ms, (∀ field : Field, m.1 ≠ field.name) → Conforms .value m.2

theorem snapshot_eq_ok_iff : seen.snapshot = .ok s ↔ ∀ field, seen.Agrees s field := by
  obtain ⟨run,beamMode,daqState⟩ := seen
  constructor
  · intro complete
    cases run with
    | none => cases complete
    | some run =>
      cases beamMode with
      | none => cases complete
      | some beamMode =>
        cases daqState with
        | none => cases complete
        | some daqState =>
          cases complete
          intro field
          cases field <;> rfl
  · intro agrees
    obtain rfl : run = some s.run := agrees .run
    obtain rfl : beamMode = some s.beamMode := agrees .beamMode
    obtain rfl : daqState = some s.daqState := agrees .daqState
    rfl

theorem has_put (seen : Seen) (snap : Snapshot) (field : Field) : (seen.put snap field).has field = true := by
  cases field <;> rfl

theorem agrees_put (seen : Seen) (s : Snapshot) (field : Field) : (seen.put s field).Agrees s field := by
  cases field <;> rfl

theorem put_other {g : Field} (seen : Seen) (snap s : Snapshot) (apart : g ≠ field) :
    (seen.put snap field).has g = seen.has g ∧ ((seen.put snap field).Agrees s g ↔ seen.Agrees s g) := by
  cases field <;> cases g <;> first | exact absurd rfl apart | exact ⟨rfl,Iff.rfl⟩

theorem holds_of_agrees (holds : Holds snap field v) (agrees : (seen.put snap field).Agrees s field) :
    Holds s field v := by
  cases field with
  | run =>
    have same : snap.run = s.run := Option.some.inj agrees
    exact ⟨holds.1,same ▸ holds.2⟩
  | beamMode =>
    have same : snap.beamMode = s.beamMode := Option.some.inj agrees
    have quoted : Quoted v snap.beamMode := holds
    rw [same] at quoted
    exact quoted
  | daqState =>
    have same : snap.daqState = s.daqState := Option.some.inj agrees
    have quoted : Quoted v snap.daqState := holds
    rw [same] at quoted
    exact quoted

theorem name_inj {f g : Field} (same : f.name = g.name) : f = g := by
  have known := ofName?_name f
  rw [same,ofName?_name] at known
  exact (Option.some.inj known).symm

section
variable {m : String × List UInt8} {ms : List (String × List UInt8)}

theorem named_same (field : Field) (v : List UInt8) (ms : List (String × List UInt8)) :
    named field ((field.name,v) :: ms) = (field.name,v) :: named field ms := by
  simp [named]

theorem named_other (apart : m.1 ≠ field.name) : named field (m :: ms) = named field ms := by
  simp [named,apart]

theorem Seen.Takes.completed (takes : seen.Takes m seen') (completed : seen'.Completed s ms) :
    seen.Completed s (m :: ms) := by
  cases takes with
  | @other name v unknown value =>
    refine ⟨fun g => ?_,?_⟩
    · rw [named_other (unknown g)]
      exact completed.each g
    · exact List.forall_mem_cons.mpr ⟨fun _ => value,completed.others⟩
  | @field f v snap new holds =>
    refine ⟨fun g => ?_,?_⟩
    · by_cases same : g = f
      · subst same
        rw [named_same]
        -- The field has been put, so the later members must not have it again.
        rcases completed.each g with ⟨agrees,none⟩ | ⟨missing,_⟩
        · exact .inr ⟨new,v,holds_of_agrees holds agrees,by rw [none]⟩
        · rw [has_put] at missing
          cases missing
      · obtain ⟨has,agrees⟩ := put_other seen snap s same
        rw [named_other fun name => same (name_inj name).symm,← has,← agrees]
        exact completed.each g
    · exact List.forall_mem_cons.mpr ⟨fun unknown => absurd rfl (unknown f),completed.others⟩

theorem Seen.Completed.exists_takes (completed : seen.Completed s (m :: ms)) :
    ∃ seen', seen.Takes m seen' ∧ seen'.Completed s ms := by
  obtain ⟨head,others⟩ := List.forall_mem_cons.mp completed.others
  obtain ⟨name,value⟩ := m
  by_cases unknown : ∀ field : Field, name ≠ field.name
  · refine ⟨seen,.other unknown (head unknown),fun g => ?_,others⟩
    have each := completed.each g
    rw [named_other (unknown g)] at each
    exact each
  · simp only [not_forall,not_not] at unknown
    obtain ⟨f,rfl⟩ := unknown
    have each := completed.each f
    rw [named_same] at each
    rcases each with ⟨_,none⟩ | ⟨new,v,holds,once⟩
    · cases none
    · obtain ⟨same,none⟩ := List.cons.inj once
      cases same
      refine ⟨seen.put s f,.field new holds,fun g => ?_,others⟩
      by_cases same : g = f
      · subst same
        exact .inl ⟨agrees_put seen s g,none⟩
      · obtain ⟨has,agrees⟩ := put_other seen s s same
        have each := completed.each g
        rw [named_other fun name => same (name_inj name).symm,← has,← agrees] at each
        exact each

theorem collects_iff : seen.Collects ms s ↔ seen.Completed s ms := by
  constructor
  · intro collects
    induction collects with
    | done complete =>
      exact ⟨fun field => .inl ⟨snapshot_eq_ok_iff.mp complete field,rfl⟩,by simp⟩
    | take takes _ ih => exact takes.completed ih
  · intro completed
    induction ms generalizing seen with
    | nil =>
      refine .done (snapshot_eq_ok_iff.mpr fun field => ?_)
      rcases completed.each field with ⟨agrees,_⟩ | ⟨_,v,_,once⟩
      · exact agrees
      · cases once
    | cons m ms ih =>
      obtain ⟨seen',takes,further⟩ := completed.exists_takes
      exact .take takes (ih further)

theorem completed_none_iff : Seen.none.Completed s ms ↔ Writes s ms := by
  constructor
  · intro completed
    refine ⟨fun field => ?_,completed.others⟩
    rcases completed.each field with ⟨agrees,_⟩ | ⟨_,once⟩
    · cases field <;> cases agrees
    · exact once
  · intro writes
    exact ⟨fun field => .inr ⟨by cases field <;> rfl,writes.once field⟩,writes.others⟩

end

/-! ## Lists -/

theorem holds_head (holds : Holds s field v) :
    ∃ b x, v = b :: x ∧ Json.isSpace b = false ∧ b ≠ Bracket.closing .list := by
  have text {w : String} (quoted : Quoted v w) :
      ∃ b x, v = b :: x ∧ Json.isSpace b = false ∧ b ≠ Bracket.closing .list := by
    obtain ⟨body,_,rfl⟩ := quoted
    exact ⟨ascii '"',body ++ [ascii '"'],rfl,by decide,by decide⟩
  cases field with
  | beamMode => exact text holds
  | daqState => exact text holds
  | run =>
    obtain ⟨b,x,rfl,digit⟩ := whole_head holds.1
    exact ⟨b,x,rfl,Json.isSpace_of_number (.inr digit),Json.ne_of_number (.inr digit) (by decide)⟩

/-- The separator before the list's next value: none before the first. -/
inductive Separator : Nat → List UInt8 → Prop
  | first : Separator 0 []
  | comma {n : Nat} {d : List UInt8} (blank : Blank d) : Separator (n + 1) (d ++ [ascii ','])

theorem exists_of_readSeparator {n : Nat} (read : readSeparator n u = .ok (true,t)) :
    ∃ d a, Separator n d ∧ Blank a ∧ u = d ++ (a ++ t) := by
  unfold readSeparator at read
  split at read
  · cases read
  next b rest found =>
  obtain ⟨_,a,blank,rfl⟩ := Json.skipSpace_eq_cons_iff.mp found
  split at read
  · cases read
  split at read
  · next start =>
    cases read
    subst start
    exact ⟨[],a,.first,blank,rfl⟩
  next later =>
  split at read
  · next comma =>
    split at read
    · cases read
    next c rest' found' =>
    obtain ⟨_,a',blank',rfl⟩ := Json.skipSpace_eq_cons_iff.mp found'
    split at read
    · cases read
    cases read
    cases n with
    | zero => exact absurd rfl later
    | succ n => exact ⟨a ++ [ascii ','],a',.comma blank,blank',by rw [comma]; simp⟩
  · cases read

theorem readSeparator_complete {n : Nat} {d : List UInt8} (separator : Separator n d) (blank : Blank a)
    (holds : Holds s field v) (t : List UInt8) : readSeparator n (d ++ (a ++ v ++ t)) = .ok (true,v ++ t) := by
  obtain ⟨b,x,rfl,solid,further⟩ := holds_head holds
  have found : skipSpace (a ++ b :: x ++ t) = b :: x ++ t :=
    Json.skipSpace_eq_cons_iff.mpr ⟨solid,a,blank,by simp⟩
  cases separator with
  | first =>
    rw [List.cons_append] at found ⊢
    simp only [readSeparator,List.nil_append,found,if_neg further,if_true]
  | @comma n d blank =>
    have comma : skipSpace (d ++ [ascii ','] ++ (a ++ b :: x ++ t)) = ascii ',' :: (a ++ b :: x ++ t) :=
      Json.skipSpace_eq_cons_iff.mpr ⟨by decide,d,blank,by simp⟩
    have other : ascii ',' ≠ Bracket.closing .list := by decide
    rw [List.cons_append] at found ⊢
    simp only [readSeparator,comma,if_neg other,if_neg (Nat.succ_ne_zero n),if_true,found,if_neg further]

theorem exists_of_readItem {n : Nat} (read : readItem n seen field u = .ok (seen',t)) :
    ∃ d a v s, Separator n d ∧ Blank a ∧ Holds s field v ∧ seen' = seen.put s field ∧ u = d ++ (a ++ v ++ t) := by
  unfold readItem at read
  split at read
  · cases read
  · cases read
  next rest found =>
  obtain ⟨d,a,separator,blank,rfl⟩ := exists_of_readSeparator found
  obtain ⟨a',v,s,blank',holds,rfl,rfl⟩ := exists_of_readField read
  exact ⟨d,a ++ a',v,s,separator,Json.blank_append blank blank',holds,rfl,by simp⟩

theorem readItem_complete {n : Nat} {d : List UInt8} (separator : Separator n d) (blank : Blank a)
    (holds : Holds s field v) (ends : Ends t) : readItem n seen field (d ++ (a ++ v ++ t)) = .ok (seen.put s field,t) := by
  simp only [readItem,readSeparator_complete separator blank holds t]
  exact readField_complete Json.blank_nil holds ends

theorem readListEnd_eq_ok_iff : readListEnd u = .ok t ↔ ∃ a, Blank a ∧ u = a ++ Bracket.closing .list :: t := by
  constructor
  · intro read
    unfold readListEnd at read
    split at read
    · cases read
    next b rest found =>
    obtain ⟨_,a,blank,rfl⟩ := Json.skipSpace_eq_cons_iff.mp found
    split at read
    · next closing =>
      cases read
      exact ⟨a,blank,by rw [closing]⟩
    split at read
    · split at read
      · cases read
      · split at read <;> cases read
    · cases read
  · rintro ⟨a,blank,rfl⟩
    have found : skipSpace (a ++ Bracket.closing .list :: t) = Bracket.closing .list :: t :=
      Json.skipSpace_eq_cons_iff.mpr ⟨by decide,a,blank,rfl⟩
    simp only [readListEnd,found,if_true]

theorem exists_of_bind {ε α β : Type} {x : Except ε α} {f : α → Except ε β} {y : β} (run : (x >>= f) = .ok y) :
    ∃ a, x = .ok a ∧ f a = .ok y := by
  cases x with
  | error => cases run
  | ok a => exact ⟨a,rfl,run⟩

theorem exists_of_readItems (read : readItems u = .ok (s,t)) : ∃ x y z, Item s .run x ∧ Item s .beamMode y ∧
    Item s .daqState z ∧ u = x ++ ascii ',' :: y ++ ascii ',' :: z ++ Bracket.closing .list :: t := by
  obtain ⟨⟨_,_⟩,first,read⟩ := exists_of_bind read
  obtain ⟨⟨_,_⟩,second,read⟩ := exists_of_bind read
  obtain ⟨⟨_,_⟩,third,read⟩ := exists_of_bind read
  obtain ⟨snapshot,complete,read⟩ := exists_of_bind read
  obtain ⟨rest,finish,read⟩ := exists_of_bind read
  cases read
  obtain ⟨_,a,v,r,_ | _,before,run,rfl,rfl⟩ := exists_of_readItem first
  obtain ⟨_,a',v',m,_ | ⟨after⟩,before',beamMode,rfl,rfl⟩ := exists_of_readItem second
  obtain ⟨_,a'',v'',q,_ | ⟨after'⟩,before'',daqState,rfl,rfl⟩ := exists_of_readItem third
  obtain ⟨b,after'',rfl⟩ := readListEnd_eq_ok_iff.mp finish
  cases complete
  exact ⟨_,_,_,.mk before run after,.mk before' beamMode after',.mk before'' daqState after'',by simp⟩

/-- Reading an item leaves the spaces after it. -/
theorem Item.exists_read {n : Nat} {d x : List UInt8} (seen : Seen) (separator : Separator n d)
    (item : Item s field x) (ends : Ends t) :
    ∃ b, Blank b ∧ readItem n seen field (d ++ (x ++ t)) = .ok (seen.put s field,b ++ t) := by
  cases item with
  | @mk a v b before holds after =>
    refine ⟨b,after,?_⟩
    rw [List.append_assoc (a ++ v)]
    exact readItem_complete separator before holds (Json.ends_blank after ends)

theorem readItems_complete {x y z : List UInt8} (run : Item s .run x) (beamMode : Item s .beamMode y)
    (daqState : Item s .daqState z) (t : List UInt8) :
    readItems (x ++ ascii ',' :: y ++ ascii ',' :: z ++ Bracket.closing .list :: t) = .ok (s,t) := by
  obtain ⟨b,after,first⟩ := run.exists_read .none .first (Json.ends_comma
    (y ++ ascii ',' :: z ++ Bracket.closing .list :: t))
  obtain ⟨b',after',second⟩ := beamMode.exists_read (Seen.none.put s .run) (.comma (n := 0) after)
    (Json.ends_comma (z ++ Bracket.closing .list :: t))
  obtain ⟨b'',after'',third⟩ := daqState.exists_read ((Seen.none.put s .run).put s .beamMode)
    (.comma (n := 1) after') (Json.ends_closing .list t)
  have finish : readListEnd (b'' ++ Bracket.closing .list :: t) = .ok t := readListEnd_eq_ok_iff.mpr ⟨b'',after'',rfl⟩
  simp only [List.append_assoc,List.cons_append,List.nil_append] at first second third ⊢
  simp only [readItems,bind,Except.bind,first,second,third]
  simp only [Seen.put,Seen.snapshot,finish,pure,Except.pure]

/-! ## Payloads -/

theorem skipSpace_eq_nil_iff : skipSpace u = [] ↔ Blank u := by
  constructor
  · intro none
    obtain ⟨a,blank,whole⟩ := Json.exists_blank u
    rw [none,List.append_nil] at whole
    exact whole ▸ blank
  · intro blank
    rw [← List.append_nil u,Json.skipSpace_append blank]
    rfl

theorem exists_of_readSnapshot (read : readSnapshot u = .ok (s,t)) :
    ∃ p, u = p ++ t ∧ ∀ b, Blank b → Payload s (p ++ b) := by
  unfold readSnapshot at read
  split at read
  · cases read
  next c rest found =>
  obtain ⟨_,a,before,rfl⟩ := Json.skipSpace_eq_cons_iff.mp found
  split at read
  · next opening =>
    obtain ⟨x,y,z,run,beamMode,daqState,rfl⟩ := exists_of_readItems read
    refine ⟨a ++ Bracket.opening .list :: x ++ ascii ',' :: y ++ ascii ',' :: z ++ [Bracket.closing .list],
      by rw [opening]; simp,?_⟩
    intro b after
    have payload := Payload.list before run beamMode daqState after
    simpa using payload
  split at read
  · next opening =>
    obtain ⟨ms,text,collects,follow,rfl⟩ := exists_of_readMembers read
    have writes := completed_none_iff.mp (collects_iff.mp collects)
    refine ⟨a ++ Bracket.opening .object :: text ++ [Bracket.closing .object],by rw [opening]; simp,?_⟩
    intro b after
    cases follow with
    | none blank =>
      -- An object without members has no run either.
      obtain ⟨v,_,once⟩ := writes.once .run
      cases once
    | first members =>
      have payload := Payload.object before members writes after
      simpa using payload
  · exact absurd read refuse_ne_ok

/-- A payload is read up to the spaces at its end, whatever comes behind them. -/
theorem Payload.exists_read (payload : Payload s u) :
    ∃ b, Blank b ∧ ∀ t, readSnapshot (u ++ t) = .ok (s,b ++ t) := by
  cases payload with
  | @object a text b ms before members writes after =>
    refine ⟨b,after,fun t => ?_⟩
    have found : skipSpace (a ++ Bracket.opening .object :: text ++ Bracket.closing .object :: b ++ t) =
        Bracket.opening .object :: (text ++ Bracket.closing .object :: (b ++ t)) :=
      Json.skipSpace_eq_cons_iff.mpr ⟨by decide,a,before,by simp⟩
    have other : Bracket.opening .object ≠ Bracket.opening .list := by decide
    simp only [readSnapshot,found,if_neg other,if_true]
    exact readMembers_complete (.first members) (collects_iff.mpr (completed_none_iff.mpr writes)) (b ++ t)
  | @list a x y z b before run beamMode daqState after =>
    refine ⟨b,after,fun t => ?_⟩
    have found : skipSpace (a ++ Bracket.opening .list :: x ++ ascii ',' :: y ++ ascii ',' :: z ++
        Bracket.closing .list :: b ++ t) =
          Bracket.opening .list :: (x ++ ascii ',' :: y ++ ascii ',' :: z ++ Bracket.closing .list :: (b ++ t)) :=
      Json.skipSpace_eq_cons_iff.mpr ⟨by decide,a,before,by simp⟩
    simp only [readSnapshot,found,if_true]
    exact readItems_complete run beamMode daqState (b ++ t)

theorem ofPayload_eq_ok_iff : ofPayload u = .ok s ↔ Payload s u := by
  constructor
  · intro read
    unfold ofPayload at read
    split at read
    · cases read
    next rest found =>
    split at read
    · next finish =>
      cases read
      obtain ⟨p,rfl,payload⟩ := exists_of_readSnapshot found
      exact payload rest (skipSpace_eq_nil_iff.mp (List.isEmpty_iff.mp finish))
    · cases read
  · intro payload
    obtain ⟨b,blank,read⟩ := payload.exists_read
    have whole := read []
    rw [List.append_nil,List.append_nil] at whole
    simp only [ofPayload,whole,skipSpace_eq_nil_iff.mpr blank,List.isEmpty_nil,if_true]

/-- A payload that is not read makes the poll fail that it is the response to. -/
theorem read_malformed {f : Fault} {r : Response} (url : String) (success : r.isSuccess = true)
    (complete : r.complete = true) (refused : ofPayload r.payload = .error f) :
    HttpFeed.read url r = .error (.malformed f.message) := by
  simp only [HttpFeed.read,success,complete,Bool.not_true,Bool.false_eq_true,if_false,refused]

/-- A payload is read as a snapshot exactly where it writes it. Any other body
of a response makes the poll fail with a malformed payload. -/
theorem ofPayload_iff (body : List UInt8) : (∀ s, ofPayload body = .ok s ↔ Payload s body) ∧
    ((∀ s, ¬Payload s body) → ∃ f, ofPayload body = .error f ∧
      ∀ url (r : Response), r.isSuccess = true → r.complete = true → r.payload = body →
        HttpFeed.read url r = .error (.malformed f.message)) := by
  refine ⟨fun s => ofPayload_eq_ok_iff,fun none => ?_⟩
  cases read : ofPayload body with
  | ok s => exact absurd (ofPayload_eq_ok_iff.mp read) (none s)
  | error f =>
    refine ⟨f,rfl,?_⟩
    rintro url r success complete rfl
    exact read_malformed url success complete read

end

end Lockstep.Snapshot
