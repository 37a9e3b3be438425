import Lockstep.FileTree
import Lockstep.Settings.Environment
import Lockstep.Settings.Reader
import Lockstep.Toml.Reader
import Lockstep.Utf8

/-!
# Settings from layers

Settings are laid together from the defaults, a TOML file and the environment.
Tables are merged entry by entry; any other value of a later layer takes the
place of the earlier one.
-/

namespace Lockstep.Settings

namespace Document

mutual

/-- Lays a value over another. A merged table has the origin of the upper. -/
def overlay (lower upper : Document) : Document :=
  match lower,upper with
  | .table _ below,.table o above => .table o (overlayEntries below above)
  | _,d => d

/-- Lays the entries of a table over those of another, in the order of keys. -/
def overlayEntries (below : List (String × Document)) :
    List (String × Document) → List (String × Document)
  | [] => below
  | (key,d) :: rest =>
    overlayEntries
      (insertEntry key (match below.lookup key with
        | some lower => overlay lower d
        | none => d) below) rest

end

mutual

/-- A TOML value as a document. A date is a table with one entry. -/
def ofToml (o : Origin) : Toml.Value → Document
  | .text s => .text o s
  | .integer n => .signed o n
  | .float x => .float o x
  | .bool b => .bool o b
  | .moment s => .table o [("$__toml_private_datetime",.text o s)]
  | .list items => .list o (ofTomlItems o items)
  | .table entries => .table o (ofTomlEntries o entries [])

/-- The elements of a list as documents. -/
def ofTomlItems (o : Origin) : List Toml.Value → List Document
  | [] => []
  | v :: vs => ofToml o v :: ofTomlItems o vs

/-- The entries of a table, put into order. -/
def ofTomlEntries (o : Origin) :
    List (String × Toml.Value) → List (String × Document) → List (String × Document)
  | [],built => built
  | (key,v) :: rest,built => ofTomlEntries o rest (insertEntry key (ofToml o v) built)

end

end Document

/-- The layer of the defaults. -/
def defaultsLayer : Document := .ofValue .defaults ({} : Settings).toValue

/-- The layer of some variables, a later one over an earlier. -/
def environmentLayer (vars : List (String × String)) : Document :=
  vars.foldl
    (fun layer (name,text) =>
      match Environment.keys? name with
      | some keys => layer.overlay (Environment.nest (Environment.value text) keys)
      | none => layer)
    (.table .environment [])

/-- Why layers give no settings: the file is no text or no TOML, a value does
not fit, or the settings have a defect. -/
inductive LoadFault where
  | notText (file : String)
  | notToml
  | mismatch (m : Mismatch)
  | defect (d : Defect)

/-- The layer of a file with its name and content; no file is an empty one. -/
def fileLayer : Option (String × List UInt8) → Except LoadFault Document
  | none => .ok (.table .defaults [])
  | some (name,content) =>
    match Utf8.strict? content with
    | none => .error (.notText name)
    | some text =>
      match Toml.ofChars text with
      | none => .error .notToml
      | some entries => .ok (.ofToml (.file name) (.table entries))

/-- The settings of a file and some variables over the defaults, validated. -/
def ofLayers (file : Option (String × List UInt8)) (vars : List (String × String)) :
    Except LoadFault Settings :=
  match fileLayer file with
  | .error f => .error f
  | .ok layer =>
    match ofDocument .lenient ((defaultsLayer.overlay layer).overlay (environmentLayer vars)) with
    | .error m => .error (.mismatch m)
    | .ok s =>
      match s.defect? with
      | some d => .error (.defect d)
      | none => .ok s

/-! ## Wording -/

/-- The place of a value as its source names it. -/
def Origin.key (o : Origin) (path : List String) : String :=
  match o with
  | .environment => ".".intercalate (path.map fun key => key.map Char.toUpper)
  | _ => ".".intercalate ("default" :: path)

/-- The name of a source. -/
def Origin.describe : Origin → String
  | .json => "JSON"
  | .defaults => "defaults"
  | .file name => name ++ " TOML file"
  | .environment => "\x60" ++ Environment.namePrefix ++ "\x60 environment variable(s)"

/-- The wording of a fault among layers, with its place. -/
def Mismatch.inLayers (m : Mismatch) : String :=
  let what := match m.cause with
    | .wrongType found expected =>
      "invalid type: found " ++ found.describe ++ ", expected " ++ expected.describe
    | .wrongValue found expected =>
      "invalid value " ++ found.describe ++ ", expected " ++ expected.describe
    | .unknownChoice name known =>
      "unknown variant: found \x60" ++ name ++ "\x60, expected \x60" ++ oneOf known ++ "\x60"
    | .surplus _ => m.message
    | .durationOverflow => m.message
  what ++ " for key " ++ Text.quoted (m.origin.key m.path) ++ " in " ++ m.origin.describe

/-- A fault as an error of the configuration. -/
def LoadFault.error : LoadFault → ConfigError
  | .notText file => .load ("stream did not contain valid UTF-8\n in " ++ (Origin.file file).describe)
  | .notToml => .load "TOML parse error"
  | .mismatch m => .load m.inLayers
  | .defect d => .validation d.message

/-! ## Files -/

/-- The path from the root of what a path means in a directory. -/
def pathIn (dir : Place) (path : List UInt8) : List UInt8 :=
  FileTree.join (FileTree.pathTo dir) path

/-- The file of a relative path: in the working directory or the nearest
directory above it. The answer is the place of that directory, the path being
taken from there. -/
def locate? (t : FileTree) (path : List UInt8) : Nat → Place → Option Place
  | 0,dir => if t.isFile [] (pathIn dir path) then some dir else none
  | steps + 1,dir =>
    if t.isFile [] (pathIn dir path) then some dir
    else if dir.isEmpty then none
    else locate? t path steps dir.dropLast

/-- A path below a place as it is seen from a working directory. -/
def fromDirectory : Place → List Name → List Name
  | c :: cwd,n :: path =>
    if c = n then fromDirectory cwd path
    else List.replicate (cwd.length + 1) FileTree.above ++ n :: path
  | [],path => path
  | cwd,[] => List.replicate cwd.length FileTree.above

/-- The name of a file in messages: its path from the working directory if that
has fewer steps than the one from the root. -/
def displayPath (cwd dir : Place) (path : List UInt8) : String :=
  let whole := dir ++ (FileTree.names path).filter (· != FileTree.here)
  let relative := fromDirectory cwd whole
  let shown := if relative.length < whole.length + 1 then relative.foldl FileTree.join []
    else FileTree.pathTo whole
  Utf8.toLossyString shown

/-- The file that a path means, with its name and content, if there is one. -/
def configFile? (t : FileTree) (cwd : Place) (path : List UInt8) :
    Option (String × List UInt8) :=
  let found? : Option (Place × List UInt8) :=
    if FileTree.isAbsolute path then (if t.isFile [] path then some ([],path) else none)
    else (locate? t path cwd.length cwd).map fun dir => (dir,pathIn dir path)
  found?.bind fun (dir,whole) =>
    match t.readFile [] whole with
    | .ok content => some (displayPath cwd dir path,content)
    | .error _ => none

/-- The path of the configuration where none is given. -/
def defaultPath : String := "config/scout_sync.toml"

/-- Loads settings from a file and variables. -/
def load (t : FileTree) (cwd : Place) (path : String) (vars : List (String × String)) :
    Except LoadFault Settings :=
  ofLayers (configFile? t cwd (Utf8.ofString path)) vars

end Lockstep.Settings
