import Lockstep.AllowList
import Lockstep.Duration
import Lockstep.Error
import Lockstep.Json.Value

/-!
# Settings

Everything that can be configured, in five sections. Each value has a default
that fits the production site, so `{}` is a complete configuration.
-/

namespace Lockstep

/-- When commands are sent: only where they change the state, or on every
cycle, whatever the state. -/
inductive ResendPolicy where
  | onTransition
  | everyCycle
deriving DecidableEq, Repr

/-- The form of the log. -/
inductive LogFormat where
  | text
  | json
deriving DecidableEq, Repr

namespace Settings

/-- Where snapshots come from. -/
structure StatusFeed where
  url : String := "http://daq-expert.cms:8081/DAQSnapshotService/getsnapshot?setup=cdaq"
  timeout : Duration := .ofSeconds 10
deriving DecidableEq

/-- Who gets the commands. -/
structure Peer where
  host : String := "localhost"
  port : UInt16 := 8000
  connectTimeout : Duration := .ofSeconds 5
  readTimeout : Duration := .ofSeconds 5
deriving DecidableEq

/-- How the control loop runs; the delay is in seconds. -/
structure Sync where
  pollingDelay : UInt64 := 30
  beamModes : List String := ["STABLE BEAMS"]
  daqStates : List String := ["RUNNING"]
  resend : ResendPolicy := .onTransition
deriving DecidableEq

/-- What is moved where, and by which compressor. -/
structure FileMover where
  sourceDir : String := "/fff/ramdisk/scdaq"
  destDir : String := "/fff/output/scdaq"
  suffix : String := ".dat"
  codec : String := "lbzip2"
  extension : String := ".bz2"
  idleWait : Duration := .ofSeconds 30
  errorBackoff : Duration := .ofSeconds 600
deriving DecidableEq

/-- What is logged. -/
structure Log where
  level : String := "info"
  format : LogFormat := .text
deriving DecidableEq

end Settings

/-- The whole configuration. -/
structure Settings where
  statusFeed : Settings.StatusFeed := {}
  peer : Settings.Peer := {}
  sync : Settings.Sync := {}
  fileMover : Settings.FileMover := {}
  log : Settings.Log := {}
deriving DecidableEq

namespace Settings

/-- The address of a peer. -/
def address (host : String) (port : UInt16) : String := host ++ ":" ++ Decimal.text port.toNat

/-- The address of the configured peer. -/
def Peer.address (p : Peer) : String := Settings.address p.host p.port

/-- The delay between two polls. -/
def Sync.delay (s : Sync) : Duration := .ofSeconds s.pollingDelay

/-- What must hold for scouting to be wanted. -/
def Sync.conditions (s : Sync) : Conditions := ⟨.ofList s.beamModes,.ofList s.daqStates⟩

/-! ## Names -/

/-- The name of a resend policy. -/
def resendName : ResendPolicy → String
  | .onTransition => "on-transition"
  | .everyCycle => "every-cycle"

/-- The name of a log format. -/
def formatName : LogFormat → String
  | .text => "text"
  | .json => "json"

/-! ## Writing -/

/-- A duration as a JSON value. -/
def durationValue (d : Duration) : Json.Value := .string d.text

/-- Texts as a JSON value. -/
def textsValue (texts : List String) : Json.Value := .array (texts.map .string)

def StatusFeed.toValue (s : StatusFeed) : Json.Value :=
  .object [("url",.string s.url),("timeout",durationValue s.timeout)]

def Peer.toValue (p : Peer) : Json.Value :=
  .object [("host",.string p.host),("port",.nat p.port.toNat),
    ("connect_timeout",durationValue p.connectTimeout),
    ("read_timeout",durationValue p.readTimeout)]

def Sync.toValue (s : Sync) : Json.Value :=
  .object [("polling_delay_secs",.nat s.pollingDelay.toNat),
    ("allowed_beam_modes",textsValue s.beamModes),
    ("allowed_daq_states",textsValue s.daqStates),
    ("resend_policy",.string (resendName s.resend))]

def FileMover.toValue (m : FileMover) : Json.Value :=
  .object [("source_dir",.string m.sourceDir),("dest_dir",.string m.destDir),
    ("suffix",.string m.suffix),("codec",.string m.codec),
    ("compressed_extension",.string m.extension),("idle_wait",durationValue m.idleWait),
    ("error_backoff",durationValue m.errorBackoff)]

def Log.toValue (l : Log) : Json.Value :=
  .object [("level",.string l.level),("format",.string (formatName l.format))]

/-- The settings as a JSON value, sections and fields in the order of their
declaration. -/
def toValue (s : Settings) : Json.Value :=
  .object [("status_feed",s.statusFeed.toValue),("peer",s.peer.toValue),
    ("sync",s.sync.toValue),("file_mover",s.fileMover.toValue),("log",s.log.toValue)]

/-! ## Validation -/

/-- What makes settings unacceptable. -/
inductive Defect where
  | emptyUrl
  | zeroFeedTimeout
  | emptyHost
  | zeroPort
  | zeroPeerTimeout
  | zeroPollingDelay
  | noBeamMode
  | noDaqState
  | emptyCodec
  | emptySuffix
  | unknownLevel (level : String)
deriving DecidableEq, Repr

/-- The levels of the log. -/
def levels : List String := ["trace","debug","info","warn","error"]

/-- The wording of a defect. -/
def Defect.message : Defect → String
  | .emptyUrl => "status_feed.url cannot be empty"
  | .zeroFeedTimeout => "status_feed.timeout must be > 0"
  | .emptyHost => "peer.host cannot be empty"
  | .zeroPort => "peer.port must be > 0"
  | .zeroPeerTimeout => "peer timeouts must be > 0"
  | .zeroPollingDelay => "sync.polling_delay_secs must be > 0"
  | .noBeamMode => "sync.allowed_beam_modes must contain a non-blank entry"
  | .noDaqState => "sync.allowed_daq_states must contain a non-blank entry"
  | .emptyCodec => "file_mover.codec cannot be empty"
  | .emptySuffix => "file_mover.suffix cannot be empty"
  | .unknownLevel level =>
    "Invalid log level '" ++ level ++ "'. Must be one of: " ++ ", ".intercalate levels

/-- The defects that settings can have, each with whether these have it, in the
order in which they are looked for. -/
def checks (s : Settings) : List (Bool × Defect) :=
  [(Text.allBlank s.statusFeed.url,.emptyUrl),
    (s.statusFeed.timeout.isZero,.zeroFeedTimeout),
    (Text.allBlank s.peer.host,.emptyHost),
    (s.peer.port == 0,.zeroPort),
    (s.peer.connectTimeout.isZero || s.peer.readTimeout.isZero,.zeroPeerTimeout),
    (s.sync.pollingDelay == 0,.zeroPollingDelay),
    (s.sync.beamModes.all Text.allBlank,.noBeamMode),
    (s.sync.daqStates.all Text.allBlank,.noDaqState),
    (Text.allBlank s.fileMover.codec,.emptyCodec),
    (s.fileMover.suffix.isEmpty,.emptySuffix),
    (!levels.contains s.log.level,.unknownLevel s.log.level)]

/-- The first defect of settings, if they have one. -/
def defect? (s : Settings) : Option Defect := (s.checks.find? (·.1)).map (·.2)

/-- Accepts settings without a defect. -/
def validate (s : Settings) : Except ConfigError Unit :=
  match s.defect? with
  | none => .ok ()
  | some d => .error (.validation d.message)

theorem validate_eq_ok_iff {s : Settings} : s.validate = .ok () ↔ s.defect? = none := by
  unfold validate
  cases s.defect? with
  | none => simp only
  | some d => simp only [reduceCtorEq]

/-- Accepted settings have none of the defects. -/
theorem checks_of_validate {s : Settings} (valid : s.validate = .ok ()) : ∀ check ∈ s.checks, check.1 = false := by
  have sound := validate_eq_ok_iff.mp valid
  rw [defect?,Option.map_eq_none_iff,List.find?_eq_none] at sound
  exact fun check member => Bool.eq_false_iff.mpr (sound check member)

end Settings

end Lockstep
