import Lockstep.Json.Found
import Lockstep.Json.Skip
import Lockstep.Snapshot

/-!
# Reading snapshots

A payload of the status feed is read in one pass from left to right, and the
first thing wrong with it is its fault. It is an object with the members of a
snapshot, each once and among any others, or a list of their values in order.
-/

namespace Lockstep.Snapshot

open Lockstep.Json (ascii skipSpace Bracket)

/-- What a place in a payload asks for. -/
inductive Shape where
  | snapshot
  | word
  | text

/-- The wording of what was asked for. -/
def Shape.describe : Shape → String
  | .snapshot => "struct FacilitySnapshot"
  | .word => "u64"
  | .text => "a string"

/-- What is wrong with a payload: it is no JSON, a member comes twice or is
missing, a value is of another type, the run is negative, or the list is too
short. -/
inductive Fault where
  | malformed (f : Json.Fault)
  | duplicate (f : Field)
  | missing (f : Field)
  | wrongType (found : Json.Found) (expected : Shape)
  | negativeRun (n : Nat)
  | tooShort (n : Nat)

/-- The wording of a fault. -/
def Fault.message : Fault → String
  | .malformed f => f.message
  | .duplicate f => "duplicate field \x60" ++ f.name ++ "\x60"
  | .missing f => "missing field \x60" ++ f.name ++ "\x60"
  | .wrongType found expected =>
    "invalid type: " ++ found.describe ++ ", expected " ++ expected.describe
  | .negativeRun n =>
    "invalid value: " ++ (Json.Number.negative n).describe ++ ", expected " ++ Shape.word.describe
  | .tooShort n =>
    "invalid length " ++ Decimal.text n ++ ", expected " ++ Shape.snapshot.describe ++
      " with 3 elements"

/-- A JSON reader's answer, its fault as one of the payload. -/
def ofJson {α : Type} : Except Json.Fault α → Except Fault α
  | .ok x => .ok x
  | .error f => .error (.malformed f)

theorem ofJson_eq_ok {α : Type} {x : Except Json.Fault α} {y : α} (answered : ofJson x = .ok y) :
    x = .ok y := by
  cases x with
  | error => cases answered
  | ok => cases answered; rfl

/-- The fault of a value that is not of the type asked for. -/
def refuse {α : Type} (expected : Shape) (s : List UInt8) : Except Fault α :=
  match Json.readFound s with
  | .error f => .error (.malformed f)
  | .ok found => .error (.wrongType found expected)

/-! ## Values -/

/-- Reads a run number. -/
def readRun (s : List UInt8) : Except Fault (Run × List UInt8) :=
  match skipSpace s with
  | [] => .error (.malformed .endInValue)
  | b :: t =>
    if b = ascii '-' ∨ Json.isDigit b then
      match Json.readNumber (b :: t) with
      | .error f => .error (.malformed f)
      | .ok (.unsigned n,u) => .ok (UInt64.ofNat n,u)
      | .ok (.negative n,_) => .error (.negativeRun n)
      | .ok (n,_) => .error (.wrongType (.number n) .word)
    else refuse .word (b :: t)

/-- Reads a string. -/
def readText (s : List UInt8) : Except Fault (String × List UInt8) :=
  match skipSpace s with
  | [] => .error (.malformed .endInValue)
  | b :: t => if b = ascii '"' then ofJson (Json.readString t) else refuse .text (b :: t)

/-- The members read so far. -/
structure Seen where
  run : Option Run
  beamMode : Option String
  daqState : Option String

/-- No member read. -/
def Seen.none : Seen := ⟨Option.none,Option.none,Option.none⟩

/-- Whether a member has been read. -/
def Seen.has (seen : Seen) : Field → Bool
  | .run => seen.run.isSome
  | .beamMode => seen.beamMode.isSome
  | .daqState => seen.daqState.isSome

/-- The snapshot of all three members, or the first that is missing. -/
def Seen.snapshot (seen : Seen) : Except Fault Snapshot :=
  match seen with
  | ⟨some run,some beamMode,some daqState⟩ => .ok ⟨run,beamMode,daqState⟩
  | ⟨Option.none,_,_⟩ => .error (.missing .run)
  | ⟨_,Option.none,_⟩ => .error (.missing .beamMode)
  | ⟨_,_,Option.none⟩ => .error (.missing .daqState)

/-- Reads the value of a member. -/
def readField (seen : Seen) (s : List UInt8) : Field → Except Fault (Seen × List UInt8)
  | .run => (readRun s).map fun (run,t) => (⟨some run,seen.beamMode,seen.daqState⟩,t)
  | .beamMode => (readText s).map fun (text,t) => (⟨seen.run,some text,seen.daqState⟩,t)
  | .daqState => (readText s).map fun (text,t) => (⟨seen.run,seen.beamMode,some text⟩,t)

/-! ## Objects -/

/-- Reads the name of a member, at which a comma may have been left over. -/
def readKey (s : List UInt8) : Except Fault (String × List UInt8) :=
  match skipSpace s with
  | [] => .error (.malformed .endInValue)
  | b :: t =>
    if b = ascii '"' then ofJson (Json.readString t)
    else if b = Bracket.closing .object then .error (.malformed .trailingComma)
    else .error (.malformed .keyNotString)

/-- Reads a member. One that is no part of a snapshot is passed over; one that
comes again is refused by its name alone. -/
def readMember (seen : Seen) (s : List UInt8) : Except Fault (Seen × List UInt8) :=
  match readKey s with
  | .error f => .error f
  | .ok (name,s) =>
    match Field.ofName? name with
    | Option.none =>
      match ofJson (Json.readColon s) with
      | .error f => .error f
      | .ok s => (ofJson (Json.skipValue s)).map (seen,·)
    | some field =>
      if seen.has field then .error (.duplicate field)
      else match ofJson (Json.readColon s) with
        | .error f => .error f
        | .ok s => readField seen s field

theorem length_readRun {s t : List UInt8} {run : Run} (read : readRun s = .ok (run,t)) :
    t.length < s.length := by
  have space := Json.length_skipSpace_le s
  unfold readRun at read
  split at read
  · cases read
  · next begun =>
    rw [begun] at space
    split at read
    · split at read
      · cases read
      · next number => cases read; exact Nat.lt_of_lt_of_le (Json.length_readNumber number) space
      · cases read
      · cases read
    · unfold refuse at read; split at read <;> cases read

theorem length_readText {s t text} (read : readText s = .ok (text,t)) : t.length < s.length := by
  have space := Json.length_skipSpace_le s
  unfold readText at read
  split at read
  · cases read
  · next begun =>
    rw [begun,List.length_cons] at space
    split at read
    · have := Json.length_readString (ofJson_eq_ok read); omega
    · unfold refuse at read; split at read <;> cases read

theorem length_readField {seen seen' : Seen} {s t : List UInt8} {field : Field}
    (read : readField seen s field = .ok (seen',t)) : t.length < s.length := by
  cases field <;> obtain ⟨_,part,out⟩ := Json.exists_of_map_eq_ok read <;> cases out
  · exact length_readRun part
  · exact length_readText part
  · exact length_readText part

theorem length_readKey {s t : List UInt8} {name : String} (read : readKey s = .ok (name,t)) :
    t.length < s.length := by
  have space := Json.length_skipSpace_le s
  unfold readKey at read
  split at read
  · cases read
  · next begun =>
    rw [begun,List.length_cons] at space
    split at read
    · have := Json.length_readString (ofJson_eq_ok read); omega
    · split at read <;> cases read

theorem length_readMember {seen seen' : Seen} {s t : List UInt8}
    (read : readMember seen s = .ok (seen',t)) : t.length < s.length := by
  unfold readMember at read
  split at read
  · cases read
  · next key =>
    have := length_readKey key
    split at read
    · split at read
      · cases read
      · next colon =>
        have := Json.length_readColon (ofJson_eq_ok colon)
        obtain ⟨_,part,out⟩ := Json.exists_of_map_eq_ok read
        cases out
        have := Json.length_skipOpen (ofJson_eq_ok part)
        omega
    · split at read
      · cases read
      · split at read
        · cases read
        · next colon =>
          have := Json.length_readColon (ofJson_eq_ok colon)
          have := length_readField read
          omega

/-- Reads the members of an object after its opening brace. `first` says that
none has been read. -/
def readMembers (first : Bool) (seen : Seen) (s : List UInt8) :
    Except Fault (Snapshot × List UInt8) :=
  match _space : skipSpace s with
  | [] => .error (.malformed .endInObject)
  | b :: t =>
    if b = Bracket.closing .object then seen.snapshot.map (·,t)
    else if first then
      match _h : readMember seen (b :: t) with
      | .error f => .error f
      | .ok (seen,u) => readMembers false seen u
    else if b = ascii ',' then
      match _h : readMember seen t with
      | .error f => .error f
      | .ok (seen,u) => readMembers false seen u
    else .error (.malformed .expectedObjectEnd)
termination_by s.length
decreasing_by
  · have bound := Json.length_skipSpace_le s
    rw [_space] at bound
    exact Nat.lt_of_lt_of_le (length_readMember _h) bound
  · have bound := Json.length_skipSpace_le s
    rw [_space] at bound
    exact Nat.lt_of_lt_of_le (Nat.lt_succ_of_lt (length_readMember _h)) bound

/-! ## Lists -/

/-- Passes over what comes before the list's next value; `false` says that the
list ends there. `read` values have been read. -/
def readSeparator (read : Nat) (s : List UInt8) : Except Fault (Bool × List UInt8) :=
  match skipSpace s with
  | [] => .error (.malformed .endInList)
  | b :: t =>
    if b = Bracket.closing .list then .ok (false,b :: t)
    else if read = 0 then .ok (true,b :: t)
    else if b = ascii ',' then
      match skipSpace t with
      | [] => .error (.malformed .endInValue)
      | c :: u =>
        if c = Bracket.closing .list then .error (.malformed .trailingComma)
        else .ok (true,c :: u)
    else .error (.malformed .expectedListEnd)

/-- Reads the list's next value as the given member. -/
def readItem (read : Nat) (seen : Seen) (field : Field) (s : List UInt8) :
    Except Fault (Seen × List UInt8) :=
  match readSeparator read s with
  | .error f => .error f
  | .ok (false,_) => .error (.tooShort read)
  | .ok (true,s) => readField seen s field

/-- Reads the end of the list after its three values. -/
def readListEnd (s : List UInt8) : Except Fault (List UInt8) :=
  match skipSpace s with
  | [] => .error (.malformed .endInList)
  | b :: t =>
    if b = Bracket.closing .list then .ok t
    else if b = ascii ',' then
      match skipSpace t with
      | [] => .error (.malformed .trailingCharacters)
      | c :: _ =>
        if c = Bracket.closing .list then .error (.malformed .trailingComma)
        else .error (.malformed .trailingCharacters)
    else .error (.malformed .trailingCharacters)

/-- Reads the values of a list after its opening bracket. -/
def readItems (s : List UInt8) : Except Fault (Snapshot × List UInt8) := do
  let (seen,s) ← readItem 0 .none .run s
  let (seen,s) ← readItem 1 seen .beamMode s
  let (seen,s) ← readItem 2 seen .daqState s
  let snapshot ← seen.snapshot
  let s ← readListEnd s
  return (snapshot,s)

/-! ## Payloads -/

/-- Reads a snapshot at the front of a payload. -/
def readSnapshot (s : List UInt8) : Except Fault (Snapshot × List UInt8) :=
  match skipSpace s with
  | [] => .error (.malformed .endInValue)
  | b :: t =>
    if b = Bracket.opening .list then readItems t
    else if b = Bracket.opening .object then readMembers true .none t
    else refuse .snapshot (b :: t)

/-- Reads a payload of the status feed. -/
def ofPayload (body : List UInt8) : Except Fault Snapshot :=
  match readSnapshot body with
  | .error f => .error f
  | .ok (snapshot,rest) =>
    if (skipSpace rest).isEmpty then .ok snapshot else .error (.malformed .trailingCharacters)

end Lockstep.Snapshot
