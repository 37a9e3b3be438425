import Lockstep.Duration
import Lockstep.Text.Blank

/-!
# Reading durations

A duration is the word `0` or a list of components, each a number with or
without a fraction and a unit. Components are added up from left to right, in
64-bit seconds and nanoseconds.
-/

namespace Lockstep.Duration

/-- Why a text is no duration: it is refused, or the sum leaves the range of
seconds at the very carry that a whole second of nanoseconds makes. -/
inductive Fault where
  | refused
  | overflow
deriving DecidableEq, Repr

/-- The names of a unit. -/
def TimeUnit.names : TimeUnit → List String
  | .nanosecond => ["nanos","nsec","ns"]
  | .microsecond => ["usec","us","µs"]
  | .millisecond => ["millis","msec","ms"]
  | .second => ["seconds","second","secs","sec","s"]
  | .minute => ["minutes","minute","min","mins","m"]
  | .hour => ["hours","hour","hr","hrs","h"]
  | .day => ["days","day","d"]
  | .week => ["weeks","week","wk","wks","w"]
  | .month => ["months","month","M"]
  | .year => ["years","year","yr","yrs","y"]

/-- The units, the smallest first. -/
def TimeUnit.all : List TimeUnit :=
  [.nanosecond,.microsecond,.millisecond,.second,.minute,.hour,.day,.week,.month,.year]

/-- The unit with a name. -/
def TimeUnit.ofName? (name : String) : Option TimeUnit := all.find? (·.names.contains name)

/-- A number with its unit: the whole part, and the digits of the fraction as a
number with their count. -/
structure Component where
  whole : Nat
  fraction : Option (Nat × Nat)
  unit : TimeUnit

/-- A number of 64 bits, or nothing. -/
def word? (n : Nat) : Option Nat := if n < UInt64.size then some n else none

/-- Seconds and nanoseconds of the whole part. -/
def Component.wholeParts? (c : Component) : Option (Nat × Nat) :=
  match c.unit.measure with
  | .nanos n => (word? (c.whole * n)).map (0,·)
  | .seconds n => (word? (c.whole * n)).map (·,0)

/-- Seconds and nanoseconds of a fraction, which has to be exact: down to the
nanosecond for units up to the minute, to the second above. A nanosecond has
no fraction. -/
def Component.fractionParts? (unit : TimeUnit) (value places : Nat) : Option (Nat × Nat) :=
  let exact (scale : Nat) : Option Nat :=
    (word? (value * scale)).bind fun n =>
      if n % Nat.pow 10 places = 0 then some (n / Nat.pow 10 places) else none
  match unit.measure with
  | .nanos n => if n = 1 then none else (exact n).map (0,·)
  | .seconds n =>
    if n ≤ 60 then (exact (n * 1000000000)).map (0,·) else (exact n).map (·,0)

/-- Adds seconds and any number of nanoseconds to a span. -/
def add (d : Duration) (seconds nanos : Nat) : Except Fault Duration :=
  let sum := d.nanos + nanos
  if UInt64.size ≤ sum then .error .refused
  else if sum = 1000000000 then
    if UInt64.size ≤ d.seconds + seconds then .error .refused
    else if fits : d.seconds + seconds + 1 < UInt64.size then
      .ok ⟨d.seconds + seconds + 1,0,fits,Nat.succ_pos _⟩
    else .error .overflow
  else
    if fits : d.seconds + (seconds + sum / 1000000000) < UInt64.size then
      .ok ⟨d.seconds + (seconds + sum / 1000000000),sum % 1000000000,fits,
        Nat.mod_lt _ (Nat.succ_pos _)⟩
    else .error .refused

/-- Adds what a reading of parts has brought, if it has. -/
def addParts (d : Duration) : Option (Nat × Nat) → Except Fault Duration
  | some (seconds,nanos) => d.add seconds nanos
  | none => .error .refused

/-- Adds a component. -/
def addComponent (d : Duration) (c : Component) : Except Fault Duration :=
  match d.addParts c.wholeParts? with
  | .error f => .error f
  | .ok d =>
    match c.fraction with
    | none => .ok d
    | some (value,places) => d.addParts (Component.fractionParts? c.unit value places)

/-! ## Components -/

/-- The letters of units. -/
def isUnitLetter (c : Char) : Bool := c.isAlpha || c == 'µ'

/-- The digits at the front, with the blanks among and after them left out, and
what follows. -/
def spanNumber (s : List Char) : List Char × List Char :=
  let inside (c : Char) : Bool := c.isDigit || Text.isBlank c
  ((s.takeWhile inside).filter Char.isDigit,s.dropWhile inside)

theorem length_spanNumber_le (s : List Char) : (spanNumber s).2.length ≤ s.length :=
  (List.dropWhile_sublist _).length_le

/-- Reads the fraction after its point. It has 1 to 19 digits. -/
def readFraction? (s : List Char) : Option ((Nat × Nat) × List Char) :=
  let ds := (spanNumber s).1
  if ds.isEmpty ∨ 19 < ds.length then none
  else some ((Decimal.ofDigits ds,ds.length),(spanNumber s).2)

/-- Reads a number, up to its unit. -/
def readNumber? (s : List Char) : Option (Nat × Option (Nat × Nat) × List Char) :=
  match word? (Decimal.ofDigits (spanNumber s).1),(spanNumber s).2 with
  | none,_ => none
  | some whole,'.' :: rest =>
    (readFraction? rest).map fun (fraction,rest) => (whole,some fraction,rest)
  | some whole,rest => some (whole,none,rest)

/-- Whether a unit may end before what is left: a blank, a digit or nothing. -/
def endsUnit : List Char → Bool
  | [] => true
  | c :: _ => c.isDigit || Text.isBlank c

/-- Reads a unit. -/
def readUnit? (s : List Char) : Option (TimeUnit × List Char) :=
  if endsUnit (s.dropWhile isUnitLetter) then
    (TimeUnit.ofName? (String.ofList (s.takeWhile isUnitLetter))).map
      (·,s.dropWhile isUnitLetter)
  else none

/-- Reads one component. -/
def readComponent? (s : List Char) : Option (Component × List Char) :=
  match readNumber? s with
  | none => none
  | some (whole,fraction,rest) =>
    (readUnit? rest).map fun (unit,rest) => (⟨whole,fraction,unit⟩,rest)

theorem length_readNumber_le {s t : List Char} {n : Nat} {f : Option (Nat × Nat)}
    (read : readNumber? s = some (n,f,t)) : t.length ≤ s.length := by
  have bound := length_spanNumber_le s
  unfold readNumber? at read
  split at read
  · cases read
  · next begun =>
    rw [begun,List.length_cons] at bound
    obtain ⟨_,fraction,out⟩ := Option.map_eq_some_iff.1 read
    cases out
    unfold readFraction? at fraction
    simp only at fraction
    split at fraction
    · cases fraction
    · cases fraction
      exact Nat.le_trans (length_spanNumber_le _) (by omega)
  · cases read; exact bound

theorem length_readUnit_lt {s t : List Char} {u : TimeUnit} (read : readUnit? s = some (u,t)) :
    t.length < s.length := by
  unfold readUnit? at read
  split at read
  · obtain ⟨_,name,out⟩ := Option.map_eq_some_iff.1 read
    cases out
    have whole := congrArg List.length (List.takeWhile_append_dropWhile (p := isUnitLetter) (l := s))
    cases letters : s.takeWhile isUnitLetter with
    | nil =>
      rw [letters] at name
      have absent : TimeUnit.ofName? (String.ofList []) = none := by decide
      rw [absent] at name
      cases name
    | cons c cs =>
      rw [letters,List.length_append,List.length_cons] at whole
      omega
  · cases read

theorem length_readComponent_lt {s t : List Char} {c : Component}
    (read : readComponent? s = some (c,t)) : t.length < s.length := by
  unfold readComponent? at read
  split at read
  · cases read
  · next number =>
    obtain ⟨_,tail,out⟩ := Option.map_eq_some_iff.1 read
    cases out
    exact Nat.lt_of_lt_of_le (length_readUnit_lt tail) (length_readNumber_le number)

/-- Adds the components of a text to a span. Each starts with a digit. -/
def readComponents (d : Duration) (s : List Char) : Except Fault Duration :=
  match s.dropWhile Text.isBlank with
  | [] => .ok d
  | c :: _ =>
    if c.isDigit then
      match _h : readComponent? s with
      | none => .error .refused
      | some (component,rest) =>
        match d.addComponent component with
        | .error f => .error f
        | .ok d => readComponents d rest
    else .error .refused
termination_by s.length
decreasing_by exact length_readComponent_lt _h

/-- Reads a duration. Blanks alone are none. -/
def ofText (s : String) : Except Fault Duration :=
  if s = "0" then .ok zero
  else if Text.allBlank s then .error .refused
  else readComponents zero s.toList

end Lockstep.Duration
