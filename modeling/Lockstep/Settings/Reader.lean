import Lockstep.Duration.Reader
import Lockstep.Settings
import Lockstep.Settings.Document

/-!
# Settings from documents

A document is read entry by entry in the order of the keys, on top of the
defaults; entries nobody knows are passed over, and the first that does not fit
is the fault. A section may also be a list of its values in the order of their
declaration.

There are two grades. A strict reading refuses a list with more values than
the section has, and a choice written as a table must have exactly one entry; a
lenient reading takes the first entry and ignores the surplus.
-/

namespace Lockstep.Settings

/-- How far a document may deviate from the settings' shape. -/
inductive Grade where
  | strict
  | lenient
deriving DecidableEq, Repr

/-- What a place in a document asks for. -/
inductive Shape where
  | record (name : String)
  | text
  | texts
  | path
  | duration
  | word16
  | word64
  | choice (name : String)
  | choiceName
  | singleEntry
  | nothing
deriving DecidableEq, Repr

/-- The wording of what was asked for. -/
def Shape.describe : Shape → String
  | .record name => "struct " ++ name
  | .text => "a string"
  | .texts => "a sequence"
  | .path => "path string"
  | .duration => "a duration"
  | .word16 => "u16"
  | .word64 => "u64"
  | .choice name => if name.isEmpty then "enum" else "enum " ++ name
  | .choiceName => "string or map"
  | .singleEntry => "map with a single key"
  | .nothing => "unit"

/-- What is wrong with a value: it is of another type, of the type but not
acceptable, a choice nobody knows, a list that is too long, or a duration whose
sum leaves the range of seconds. -/
inductive Cause where
  | wrongType (found : Document) (expected : Shape)
  | wrongValue (found : Document) (expected : Shape)
  | unknownChoice (name : String) (known : List String)
  | surplus (length : Nat)
  | durationOverflow

/-- A fault with its place: the keys that lead to it and its origin. -/
structure Mismatch where
  path : List String
  origin : Origin
  cause : Cause

/-- The fault of a value. -/
def mismatch {α : Type} (d : Document) (cause : Cause) : Except Mismatch α :=
  .error ⟨[],d.origin,cause⟩

/-- A reading below a key: faults get the key in front of their path. -/
def under {α : Type} (key : String) : Except Mismatch α → Except Mismatch α
  | .ok x => .ok x
  | .error m => .error { m with path := key :: m.path }

/-! ## Values -/

/-- Reads a text. -/
def readText (expected : Shape) (d : Document) : Except Mismatch String :=
  match d with
  | .text _ s => .ok s
  | .char _ c => .ok (String.singleton c)
  | _ => mismatch d (.wrongType d expected)

/-- Reads a whole number below a bound. -/
def readBelow (bound : Nat) (expected : Shape) (d : Document) : Except Mismatch Nat :=
  match d with
  | .unsigned _ n =>
    if n < bound then .ok n else mismatch d (.wrongValue d expected)
  | .signed _ n =>
    if 0 ≤ n ∧ n < bound then .ok n.toNat else mismatch d (.wrongValue d expected)
  | _ => mismatch d (.wrongType d expected)

/-- Reads a duration. -/
def readDuration (d : Document) : Except Mismatch Duration :=
  match readText .duration d with
  | .error m => .error m
  | .ok s =>
    match Duration.ofText s with
    | .ok x => .ok x
    | .error .refused => mismatch d (.wrongValue d .duration)
    | .error .overflow => mismatch d .durationOverflow

/-- Reads the texts of a list from the place `index` on. -/
def readTextsFrom (index : Nat) : List Document → Except Mismatch (List String)
  | [] => .ok []
  | d :: ds =>
    match under (Decimal.text index) (readText .text d) with
    | .error m => .error m
    | .ok s => (readTextsFrom (index + 1) ds).map (s :: ·)

/-- Reads a list of texts. -/
def readTexts (d : Document) : Except Mismatch (List String) :=
  match d with
  | .list _ items => readTextsFrom 0 items
  | _ => mismatch d (.wrongType d .texts)

/-! ## Choices -/

/-- The choice with a name. -/
def choose {α : Type} (d : Document) (choices : List (String × α)) (name : String) :
    Except Mismatch α :=
  match choices.lookup name with
  | some x => .ok x
  | none => mismatch d (.unknownChoice name (choices.map (·.1)))

/-- Accepts a value that holds nothing. -/
def readNothing (d : Document) : Except Mismatch Unit :=
  match d with
  | .null _ => .ok ()
  | _ => mismatch d (.wrongType d .nothing)

/-- Reads one of some choices: its name, or a table with its name as the key of
an entry that holds nothing. -/
def readChoice {α : Type} (grade : Grade) (typeName : String) (choices : List (String × α))
    (d : Document) : Except Mismatch α :=
  match d with
  | .text _ name => choose d choices name
  | .table _ [] =>
    match grade with
    | .strict => mismatch d (.wrongValue d .singleEntry)
    | .lenient => mismatch d (.wrongType d (.choice ""))
  | .table _ ((name,content) :: others) =>
    if grade = .strict ∧ others ≠ [] then mismatch d (.wrongValue d .singleEntry)
    else under name <|
      match choose content choices name with
      | .error m => .error m
      | .ok x => (readNothing content).map fun _ => x
  | _ =>
    match grade with
    | .strict => mismatch d (.wrongType d .choiceName)
    | .lenient => mismatch d (.wrongType d (.choice typeName))

/-! ## Sections -/

/-- A field of a record: its key and how a value for it changes the record. -/
structure Field (σ : Type) where
  key : String
  read : Document → σ → Except Mismatch σ

/-- Reads the entries of a table into a record. -/
def readEntries {σ : Type} (fields : List (Field σ)) (start : σ) :
    List (String × Document) → Except Mismatch σ
  | [] => .ok start
  | (key,d) :: rest =>
    match fields.find? (·.key == key) with
    | none => readEntries fields start rest
    | some field =>
      match under key (field.read d start) with
      | .error m => .error m
      | .ok next => readEntries fields next rest

/-- Reads the values of a list into the fields of a record, from the place
`index` on. -/
def readPlaces {σ : Type} (index : Nat) (start : σ) :
    List (Field σ) → List Document → Except Mismatch σ
  | field :: fields,d :: ds =>
    match under (Decimal.text index) (field.read d start) with
    | .error m => .error m
    | .ok next => readPlaces (index + 1) next fields ds
  | _,_ => .ok start

/-- Reads a record. -/
def readRecord {σ : Type} (grade : Grade) (name : String) (fields : List (Field σ))
    (d : Document) (start : σ) : Except Mismatch σ :=
  match d with
  | .table _ entries => readEntries fields start entries
  | .list _ items =>
    match readPlaces 0 start fields items with
    | .error m => .error m
    | .ok next =>
      if grade = .strict ∧ fields.length < items.length then
        mismatch d (.surplus items.length)
      else .ok next
  | _ => mismatch d (.wrongType d (.record name))

/-- A field that is read by itself. -/
def field {σ α : Type} (key : String) (read : Document → Except Mismatch α)
    (put : σ → α → σ) : Field σ :=
  ⟨key,fun d s => (read d).map (put s)⟩

def StatusFeed.fields : List (Field StatusFeed) :=
  [field "url" (readText .text) fun s x => { s with url := x },
    field "timeout" readDuration fun s x => { s with timeout := x }]

def Peer.fields : List (Field Peer) :=
  [field "host" (readText .text) fun s x => { s with host := x },
    field "port" (readBelow UInt16.size .word16) fun s x => { s with port := UInt16.ofNat x },
    field "connect_timeout" readDuration fun s x => { s with connectTimeout := x },
    field "read_timeout" readDuration fun s x => { s with readTimeout := x }]

def Sync.fields (grade : Grade) : List (Field Sync) :=
  [field "polling_delay_secs" (readBelow UInt64.size .word64) fun s x =>
      { s with pollingDelay := UInt64.ofNat x },
    field "allowed_beam_modes" readTexts fun s x => { s with beamModes := x },
    field "allowed_daq_states" readTexts fun s x => { s with daqStates := x },
    field "resend_policy"
      (readChoice grade "ResendPolicy"
        ([ResendPolicy.onTransition,.everyCycle].map fun p => (resendName p,p)))
      fun s x => { s with resend := x }]

def FileMover.fields : List (Field FileMover) :=
  [field "source_dir" (readText .path) fun s x => { s with sourceDir := x },
    field "dest_dir" (readText .path) fun s x => { s with destDir := x },
    field "suffix" (readText .text) fun s x => { s with suffix := x },
    field "codec" (readText .text) fun s x => { s with codec := x },
    field "compressed_extension" (readText .text) fun s x => { s with extension := x },
    field "idle_wait" readDuration fun s x => { s with idleWait := x },
    field "error_backoff" readDuration fun s x => { s with errorBackoff := x }]

def Log.fields (grade : Grade) : List (Field Log) :=
  [field "level" (readText .text) fun s x => { s with level := x },
    field "format"
      (readChoice grade "LogFormat" ([LogFormat.text,.json].map fun f => (formatName f,f)))
      fun s x => { s with format := x }]

def StatusFeed.read (grade : Grade) : Document → StatusFeed → Except Mismatch StatusFeed :=
  readRecord grade "StatusFeedConfig" fields

def Peer.read (grade : Grade) : Document → Peer → Except Mismatch Peer :=
  readRecord grade "PeerConfig" fields

def Sync.read (grade : Grade) : Document → Sync → Except Mismatch Sync :=
  readRecord grade "SyncConfig" (fields grade)

def FileMover.read (grade : Grade) : Document → FileMover → Except Mismatch FileMover :=
  readRecord grade "FileMoverConfig" fields

def Log.read (grade : Grade) : Document → Log → Except Mismatch Log :=
  readRecord grade "LogConfig" (fields grade)

/-- The sections. One that is present starts from its defaults again. -/
def sections (grade : Grade) : List (Field Settings) :=
  [field "status_feed" (StatusFeed.read grade · {}) fun s x => { s with statusFeed := x },
    field "peer" (Peer.read grade · {}) fun s x => { s with peer := x },
    field "sync" (Sync.read grade · {}) fun s x => { s with sync := x },
    field "file_mover" (FileMover.read grade · {}) fun s x => { s with fileMover := x },
    field "log" (Log.read grade · {}) fun s x => { s with log := x }]

/-- Reads settings on top of the defaults. -/
def ofDocument (grade : Grade) (d : Document) : Except Mismatch Settings :=
  readRecord grade "Settings" (sections grade) d {}

/-- Reads settings from a JSON value. -/
def ofValue (v : Json.Value) : Except Mismatch Settings := ofDocument .strict (.ofValue .json v)

/-! ## Wording -/

/-- Names between accents, with the last two joined by `or`. -/
def oneOf : List String → String
  | [] => ""
  | [name] => "\x60" ++ name ++ "\x60"
  | [name,last] => "\x60" ++ name ++ "\x60 or \x60" ++ last ++ "\x60"
  | names => "one of " ++ ", ".intercalate (names.map fun name => "\x60" ++ name ++ "\x60")

/-- The wording of a fault in a JSON value, which leaves its place out. -/
def Mismatch.message (m : Mismatch) : String :=
  match m.cause with
  | .wrongType found expected =>
    "invalid type: " ++ found.found.describe ++ ", expected " ++ expected.describe
  | .wrongValue found expected =>
    "invalid value: " ++ found.found.describe ++ ", expected " ++ expected.describe
  | .unknownChoice name known => "unknown variant \x60" ++ name ++ "\x60, expected " ++ oneOf known
  | .surplus length =>
    "invalid length " ++ Decimal.text length ++ ", expected fewer elements in array"
  | .durationOverflow => "overflow in Duration::new"

end Lockstep.Settings
