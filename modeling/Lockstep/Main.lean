import Lockstep.Program

/-!
# The executable

The program in a real directory with a real environment. Of the outside it has
the files that a configuration may be in, standard output and the clock. It has
no sockets, so a poll fails as it does without a network, and it can start no
codec.
-/

namespace Lockstep.Executable

/-- The content of a file, if it can be read. -/
def content? (path : List UInt8) : IO (Option (List UInt8)) := do
  try
    return some (← IO.FS.readBinFile (Utf8.toLossyString path)).toList
  catch _ =>
    return none

/-- The variables of the environment. -/
def environment : IO (List (String × String)) := do
  let block ← content? (Utf8.ofString "/proc/self/environ")
  let texts := (Text.split (· == 0) (block.getD [])).map Utf8.lossy
  return texts.filterMap fun text =>
    match text.span (· != '=') with
    | (name,'=' :: value) => some (String.ofList name,String.ofList value)
    | _ => none

/-- The files that a configuration may be in, from the root down to the working
directory. -/
def gather (cwd : Place) (config : List UInt8) : IO FileTree := do
  let dirs :=
    if FileTree.isAbsolute config then [[]]
    else (List.range (cwd.length + 1)).map cwd.take
  let known := FileTree.empty.makeDirs [] (cwd.foldl FileTree.join [FileTree.slash])
  dirs.foldlM
    (fun t dir => do
      let path :=
        if FileTree.isAbsolute config then config
        else FileTree.join (dir.foldl FileTree.join [FileTree.slash]) config
      match ← content? path with
      | some content => return t.writeFile [] path content
      | none => return t)
    known

/-- Prints the records of which the sink makes lines. -/
def tell (sink : Log.Sink) (records : List Log.Record) : IO Unit := do
  let out ← IO.getStdout
  (sink.lines records).forM out.putStrLn
  out.flush

/-- Goes round in a loop for ever. -/
partial def goRound {ω : Type} (loop : Program.Loop ω) (sink : Log.Sink) (world : ω) : IO Unit := do
  let (stretch,after) := loop.next world
  tell sink stretch.records
  IO.sleep (UInt32.ofNat (min (stretch.wait.getD UInt32.size) (UInt32.size - 1)))
  goRound loop sink after

/-- Prints how the program ends and answers with its code. -/
def finish (ending : Program.Ending) : IO UInt32 := do
  ending.output.forM (IO.println ·)
  IO.eprint ending.errors
  return UInt32.ofNat ending.code

end Lockstep.Executable

open Lockstep Lockstep.Executable in
/-- Runs the program with its arguments. -/
def main (args : List String) : IO UInt32 := do
  let vars ← environment
  let cwd := FileTree.names (Utf8.ofString ((vars.lookup "PWD").getD "/"))
  let tree ← match Request.ofArguments? args with
    | some (.run config _) => gather cwd (Utf8.ofString config)
    | _ => pure FileTree.empty
  match Program.launch tree cwd vars args with
  | .ended ending => finish ending
  | .synchronizing s sink =>
    let loop := Program.synchronizing s (HttpFeed.mk s.statusFeed.url).feed
      (TcpLink.ofSettings s.peer).link
    tell sink loop.opening
    goRound loop sink (.new (.ofTransfers [.unread]) (.ofContacts [.unroutable]))
    return 0
  | .moving s _ =>
    finish (.failed ("Failed to start " ++ s.fileMover.codec) ["No codec can be started from here"])
