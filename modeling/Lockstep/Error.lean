import Lockstep.Decimal
import Lockstep.Text.Quoted

/-!
# Errors

What can go wrong, by cause, and the one place where causes become words.
-/

namespace Lockstep

/-- What the operating system, or somebody in its name, refuses. -/
inductive SystemError where
  | noSuchFile
  | permissionDenied
  | fileExists
  | notADirectory
  | isADirectory
  | nameTooLong
  | tooManyLinks
  | zeroInPath
  | zeroInArgument
  | networkUnreachable
  | connectionReset
  | connectionRefused
  | told (text : String)
deriving DecidableEq, Repr

/-- The wording, with the system's number where it has one. -/
def SystemError.message : SystemError → String
  | .noSuchFile => "No such file or directory (os error 2)"
  | .permissionDenied => "Permission denied (os error 13)"
  | .fileExists => "File exists (os error 17)"
  | .notADirectory => "Not a directory (os error 20)"
  | .isADirectory => "Is a directory (os error 21)"
  | .nameTooLong => "File name too long (os error 36)"
  | .tooManyLinks => "Too many levels of symbolic links (os error 40)"
  | .zeroInPath => "file name contained an unexpected NUL byte"
  | .zeroInArgument => "nul byte found in provided data"
  | .networkUnreachable => "Network is unreachable (os error 101)"
  | .connectionReset => "Connection reset by peer (os error 104)"
  | .connectionRefused => "Connection refused (os error 111)"
  | .told text => text

/-- Why a poll brought no snapshot: no answer came, the answer had a status
other than success, or its body is no snapshot. -/
inductive FeedError where
  | request (reason : String)
  | status (code : Nat)
  | malformed (reason : String)
deriving DecidableEq, Repr

def FeedError.message : FeedError → String
  | .request reason => "status feed request failed: " ++ reason
  | .status code => "status feed returned HTTP " ++ Decimal.text code
  | .malformed reason => "malformed status payload: " ++ reason

/-- Why a command did not take effect: the peer could not be spoken to, or its
reply does not acknowledge. -/
inductive LinkError where
  | unreachable (address : String) (cause : SystemError)
  | notAcknowledged (response : String)
deriving DecidableEq, Repr

def LinkError.message : LinkError → String
  | .unreachable address cause =>
    "scouting peer " ++ address ++ " unreachable: " ++ cause.message
  | .notAcknowledged response =>
    "scouting peer did not acknowledge (response: " ++ Text.quoted response ++ ")"

/-- The wording of the cause, where there is one. -/
def LinkError.cause? : LinkError → Option String
  | .unreachable _ cause => some cause.message
  | .notAcknowledged _ => none

/-- Why there are no settings: a source cannot be read into them, or a value is
not acceptable. -/
inductive ConfigError where
  | load (reason : String)
  | validation (reason : String)
deriving DecidableEq, Repr

def ConfigError.message : ConfigError → String
  | .load reason => "Configuration load error: " ++ reason
  | .validation reason => "Configuration validation error: " ++ reason

/-- The wording of the cause, where there is one. -/
def ConfigError.cause? : ConfigError → Option String
  | .load reason => some reason
  | .validation _ => none

/-- What can stop the program or a pass over the files. -/
inductive Error where
  | feed (e : FeedError)
  | config (e : ConfigError)
  | system (e : SystemError)
  | logging (reason : String)
deriving DecidableEq, Repr

def Error.message : Error → String
  | .feed e => e.message
  | .config e => e.message
  | .system e => "I/O error: " ++ e.message
  | .logging reason => "Logging setup failed: " ++ reason

/-- The wording of the cause, where there is one. -/
def Error.cause? : Error → Option String
  | .feed _ => none
  | .config e => e.cause?
  | .system e => some e.message
  | .logging _ => none

end Lockstep
