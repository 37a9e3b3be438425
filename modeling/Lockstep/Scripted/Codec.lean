import Lockstep.Mover
import Lockstep.Text.Occurs

/-!
# Stand-in codecs

Small programs in place of compressors, found by their names, and what comes of
starting anything else.
-/

namespace Lockstep.Scripted.Codec

/-- What a stand-in does: nothing, succeeding or not; copy the file; write its
arguments; copy and fail; write a part and die; fail on some files; copy and
remove the file; remove all outputs and fail. -/
inductive Program where
  | succeed
  | fail
  | copy
  | arguments
  | copyAndFail
  | die
  | failOnBad
  | steal
  | removeOutputs
deriving DecidableEq, Repr

/-- The names of the stand-ins. -/
def programs : List (String × Program) :=
  [("true",.succeed),("false",.fail),("/bin/true",.succeed),("/bin/false",.fail),
    ("/usr/bin/true",.succeed),("/usr/bin/false",.fail),("codec-copy",.copy),
    ("codec-args",.arguments),("codec-fail3",.copyAndFail),("codec-kill",.die),
    ("codec-bad",.failOnBad),("codec-steal",.steal),("codec-rmout",.removeOutputs)]

/-- Whether a name is hidden from patterns: it starts with a point. -/
def isHidden (name : Name) : Bool := name.head? == some 0x2E

/-- A tree without the files directly in the directory `out`, hidden ones
apart. -/
def withoutOutputs (cwd : Place) (t : FileTree) : FileTree :=
  match t.find .content cwd (Utf8.ofString "out") with
  | .ok (dir,some .dir) =>
    if t.isGuarded dir then t
    else ⟨t.entries.filter fun (p,entry) =>
      entry.node == .dir || (FileTree.nameIn? dir p).all isHidden⟩
  | _ => t

/-- What a stand-in does with a file. One that copies fails if it cannot read
it. -/
def Program.run (cwd : Place) (program : Program) (t : FileTree) (file : List UInt8) : CodecRun :=
  let (content,copied) := match t.readFile cwd file with
    | .ok content => (content,Exit.code 0)
    | .error _ => ([],.code 1)
  match program with
  | .succeed => ⟨[],.code 0,t⟩
  | .fail => ⟨[],.code 1,t⟩
  | .copy => ⟨content,copied,t⟩
  | .arguments => ⟨Utf8.ofString "2|" ++ file ++ Utf8.ofString "|-c",.code 0,t⟩
  | .copyAndFail => ⟨content,.code 3,t⟩
  | .die => ⟨Utf8.ofString "partial",.signal 9 "SIGKILL",t⟩
  | .failOnBad =>
    if Text.occurs (Utf8.ofString "bad") file then ⟨[],.code 1,t⟩ else ⟨content,copied,t⟩
  | .steal =>
    match t.remove cwd file with
    | .ok u => ⟨content,copied,u⟩
    | .error _ => ⟨content,.code 1,t⟩
  | .removeOutputs => ⟨[],.code 1,withoutOutputs cwd t⟩

/-- Why a name that is no stand-in cannot be started. A path may lead to
something, but nothing in the tree is a program; a name alone is looked for
among programs, where the only directories are `.` and `..`. -/
def startError (cwd : Place) (t : FileTree) (name : String) : SystemError :=
  let path := Utf8.ofString name
  if path.contains 0 then .zeroInArgument
  else if !path.contains FileTree.slash then
    if path = FileTree.here ∨ path = FileTree.above then .permissionDenied
    else if FileTree.nameLimit < path.length then .nameTooLong
    else .noSuchFile
  else match t.find .content cwd path with
    | .error e => e
    | .ok (_,some _) => .permissionDenied
    | .ok (_,none) => .noSuchFile

/-- The codec with a name. -/
def ofName (cwd : Place) (name : String) : Codec := fun t file =>
  match programs.lookup name with
  | some program => .ok (program.run cwd t file)
  | none => .error (startError cwd t name)

end Lockstep.Scripted.Codec
