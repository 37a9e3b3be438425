import Lockstep.FileTree
import Lockstep.Log
import Lockstep.Settings
import Lockstep.Utf8

/-!
# The file mover

Completed files are compressed out of one directory into another by an outside
program, the codec, and a source is removed only once the codec has succeeded.
The codec is a function: it is called with the tree as it is at that moment and
answers with what it wrote, how it ended and the tree it left behind.

`pass` is one walk over the source directory, `turn` a pass with the wait that
follows it, and `watch` the endless loop over a tree that others change while
the mover waits.
-/

namespace Lockstep

/-- How a program ended. -/
inductive Exit where
  | code (n : Nat)
  | signal (n : Nat) (name : String)
deriving DecidableEq, Repr

/-- The wording of an end. -/
def Exit.message : Exit → String
  | .code n => "exit status: " ++ Decimal.text n
  | .signal n name => "signal: " ++ Decimal.text n ++ " (" ++ name ++ ")"

/-- What a codec that was started did. -/
structure CodecRun where
  output : List UInt8
  exit : Exit
  tree : FileTree

/-- What comes of calling a codec with a file. -/
abbrev Codec := FileTree → List UInt8 → Except SystemError CodecRun

/-- A mover: its settings and the directory it works in. -/
structure Mover where
  settings : Settings.FileMover
  cwd : Place

namespace Mover

/-! ## Events -/

/-- What the mover tells the log. Paths are bytes. -/
inductive Event where
  | launched (source dest codec : String)
  | compressing (file dest : List UInt8)
  | partialKept (dest : List UInt8) (error : SystemError)
  | deleted (file : List UInt8)
  | failed (file : List UInt8) (error : SystemError)
  | waiting
  | passed (moved kept : Nat)
  | unreadable (source : String) (error : Error) (backoff : Duration)

/-- The part of the program that speaks. -/
def target : String := "scout_sync::file_mover"

/-- A path as a value in the log. -/
def pathField (path : List UInt8) : Log.Field := .text (Utf8.toLossyString path)

/-- The record of an event. -/
def Event.record : Event → Log.Record
  | .launched source dest codec =>
    ⟨.info,target,"File mover started",
      [("source",.text source),("dest",.text dest),("codec",.text codec)]⟩
  | .compressing file dest =>
    ⟨.info,target,"Compressing",[("file",pathField file),("dest",pathField dest)]⟩
  | .partialKept dest error =>
    ⟨.debug,target,"Could not remove partial output",
      [("dest",pathField dest),("error",.text error.message)]⟩
  | .deleted file =>
    ⟨.info,target,"Deleted source after compression",[("file",pathField file)]⟩
  | .failed file error =>
    ⟨.warn,target,"Compression failed, keeping source",
      [("file",pathField file),("error",.text error.message)]⟩
  | .waiting => ⟨.debug,target,"Waiting for new files",[]⟩
  | .passed moved kept =>
    ⟨.info,target,"File mover pass complete",
      [("moved",.number moved),("failed",.number kept)]⟩
  | .unreadable source error backoff =>
    ⟨.warn,target,"Cannot read source directory",
      [("source",.text source),("error",.text error.message),
        ("backoff",.text backoff.plainText)]⟩

/-! ## Candidates -/

/-- The source directory as a path. -/
def sourceDir (m : Mover) : List UInt8 := Utf8.ofString m.settings.sourceDir

/-- The destination directory as a path. -/
def destDir (m : Mover) : List UInt8 := Utf8.ofString m.settings.destDir

/-- Whether a directory entry is to be moved: a file, no link, whose name is
text and ends in the suffix. -/
def isCandidate (m : Mover) (name : Name) (node : Node) : Bool :=
  match node with
  | .file _ => (Utf8.strict? name).isSome && (Utf8.ofString m.settings.suffix).isSuffixOf name
  | _ => false

/-- The names of the files to move, in ascending order. -/
def pending (m : Mover) (t : FileTree) : Except SystemError (List Name) :=
  (t.list m.cwd m.sourceDir).map fun entries =>
    ((entries.filter fun (name,node) => m.isCandidate name node).map (·.1)).mergeSort
      FileTree.leBytes

/-- The path of a file to move. -/
def sourcePath (m : Mover) (name : Name) : List UInt8 := FileTree.join m.sourceDir name

/-- The path that a file is compressed to. -/
def destPath (m : Mover) (name : Name) : List UInt8 :=
  FileTree.join m.destDir (name ++ Utf8.ofString m.settings.extension)

/-! ## One file -/

/-- How trying a file ends, if it does: opening its output may take for ever. -/
inductive Verdict where
  | moved
  | failed (error : SystemError)
  | stuck
deriving DecidableEq, Repr

/-- What came of compressing a file. -/
structure Attempt where
  tree : FileTree
  events : List Event
  verdict : Verdict

/-- Removes an output that is not complete. -/
def discard (m : Mover) (t : FileTree) (dest : List UInt8) : FileTree × List Event :=
  match t.remove m.cwd dest with
  | .ok t => (t,[])
  | .error e => (t,[.partialKept dest e])

/-- The error of a codec that did not succeed. -/
def codecFailure (m : Mover) (exit : Exit) : SystemError :=
  .told (m.settings.codec ++ " exited with " ++ exit.message)

/-- Compresses one file and removes it. The output is opened, and emptied,
before the codec starts. -/
def compress (m : Mover) (codec : Codec) (t : FileTree) (name : Name) : Attempt :=
  let file := m.sourcePath name
  let dest := m.destPath name
  match t.create m.cwd dest with
  | .refused error => ⟨t,[],.failed error⟩
  | .stuck => ⟨t,[],.stuck⟩
  | .opened place t =>
    let begun := Event.compressing file dest
    match codec t file with
    | .error error =>
      let (t,events) := m.discard t dest
      ⟨t,begun :: events,.failed error⟩
    | .ok run =>
      let t := run.tree.written place run.output
      if run.exit = .code 0 then
        match t.remove m.cwd file with
        | .ok t => ⟨t,[begun,.deleted file],.moved⟩
        | .error error => ⟨t,[begun],.failed error⟩
      else
        let (t,events) := m.discard t dest
        ⟨t,begun :: events,.failed (m.codecFailure run.exit)⟩

/-! ## Passes -/

/-- What a pass has done with the files it found. -/
structure Report where
  moved : List (List UInt8)
  failed : List (List UInt8)
deriving DecidableEq, Repr

/-- Whether a pass found no file. -/
def Report.isEmpty (r : Report) : Bool := r.moved.isEmpty && r.failed.isEmpty

/-- A pass so far. One that is stuck goes on for ever with the file it tries. -/
structure Progress where
  tree : FileTree
  report : Report
  events : List Event
  isStuck : Bool := false

/-- A pass that has not done anything. -/
def Progress.start (t : FileTree) : Progress := ⟨t,⟨[],[]⟩,[],false⟩

/-- Goes on with one file. -/
def advance (m : Mover) (codec : Codec) (p : Progress) (name : Name) : Progress :=
  if p.isStuck then p
  else
    let file := m.sourcePath name
    let attempt := m.compress codec p.tree name
    let events := p.events ++ attempt.events
    match attempt.verdict with
    | .moved => ⟨attempt.tree,{ p.report with moved := p.report.moved ++ [file] },events,false⟩
    | .failed error =>
      ⟨attempt.tree,{ p.report with failed := p.report.failed ++ [file] },
        events ++ [.failed file error],false⟩
    | .stuck => ⟨attempt.tree,p.report,events,true⟩

/-- One pass over the source directory, which has to be readable. -/
def pass (m : Mover) (codec : Codec) (t : FileTree) : Except SystemError Progress :=
  (m.pending t).map fun names => names.foldl (m.advance codec) (.start t)

/-! ## The loop -/

/-- How the loop goes on after a pass: with the next at once, or after a wait, or
not at all, the pass being stuck. -/
inductive Pause where
  | atOnce
  | wait (d : Duration)
  | stuck
deriving DecidableEq

/-- The milliseconds of a pause, unless it lasts for ever. -/
def Pause.millis? : Pause → Option Nat
  | .atOnce => some 0
  | .wait d => some d.waitMillis
  | .stuck => none

/-- A pass of the loop: the tree after it, its events, and how the loop goes on. -/
structure Turn where
  tree : FileTree
  events : List Event
  pause : Pause

/-- One pass of the loop. A pass that moved files and failed with none is
followed by the next at once. -/
def turn (m : Mover) (codec : Codec) (t : FileTree) : Turn :=
  match m.pass codec t with
  | .error error =>
    ⟨t,[.unreadable m.settings.sourceDir (.system error) m.settings.errorBackoff],
      .wait m.settings.errorBackoff⟩
  | .ok p =>
    if p.isStuck then ⟨p.tree,p.events,.stuck⟩
    else if p.report.isEmpty then ⟨p.tree,p.events ++ [.waiting],.wait m.settings.idleWait⟩
    else
      ⟨p.tree,p.events ++ [.passed p.report.moved.length p.report.failed.length],
        if p.report.failed.isEmpty then .atOnce else .wait m.settings.idleWait⟩

/-- Turns up to the first that is not followed by another at once, `turns` at
most. A codec that leaves files alone gives each moved file a longer name or
none, so the limit on names is one on the turns. -/
def untilWait (m : Mover) (codec : Codec) : Nat → FileTree → Turn
  | 0,t => ⟨t,[],.atOnce⟩
  | turns + 1,t =>
    let first := m.turn codec t
    match first.pause with
    | .atOnce =>
      let rest := m.untilWait codec turns first.tree
      { rest with events := first.events ++ rest.events }
    | _ => first

/-- How many turns are made without a wait. -/
def turnLimit : Nat := FileTree.nameLimit + 2

/-- Watches a tree from a time on, in milliseconds. Each change happens while
the mover waits, and when no change is left the watch ends. The events come
with their times. A mover that is stuck sees nothing of the changes. -/
def watch (m : Mover) (codec : Codec) (time : Nat) (t : FileTree) :
    List (FileTree → FileTree) → List (Nat × Event) × FileTree
  | [] =>
    let done := m.untilWait codec turnLimit t
    (done.events.map (time,·),done.tree)
  | change :: changes =>
    let done := m.untilWait codec turnLimit t
    let told := done.events.map (time,·)
    match done.pause.millis? with
    | none => (told,changes.foldl (fun t change => change t) (change done.tree))
    | some millis =>
      let (events,last) := m.watch codec (time + millis) (change done.tree) changes
      (told ++ events,last)

/-- The event of a loop that starts. -/
def launch (m : Mover) : Event :=
  .launched m.settings.sourceDir m.settings.destDir m.settings.codec

end Mover

end Lockstep
