import Lockstep.CommandLine
import Lockstep.HttpFeed
import Lockstep.Log.Sink
import Lockstep.Mover
import Lockstep.Synchronizer
import Lockstep.TcpLink
import Lockstep.Text.Occurs

/-!
# The program

What the program does with its arguments. Some it answers at once; otherwise it
loads its settings, installs its sink and goes round in a loop until somebody
interrupts it. A loop is told in stretches, each up to the wait at its end.
-/

namespace Lockstep.Program

/-- The program's name. -/
def name : String := "scout_sync"

/-- The program's version. -/
def version : String := name ++ " 0.1.0"

/-- What to write on the command line. -/
def usage : String :=
  "Usage: " ++ name ++ " [--config <CONFIG>] <COMMAND>\n\nCommands: " ++
    ", ".intercalate (Task.all.map Task.name) ++ "\n"

/-! ## Ends -/

/-- How the program ends: its code, the lines of its output, and what it says
of errors. -/
structure Ending where
  code : Nat
  output : List String := []
  errors : String := ""
deriving DecidableEq, Repr

/-- One cause in a report, with its number where there are several. Further
lines stand below the first. -/
def causeLines (number : Option Nat) (cause : String) : String :=
  let (mark,margin) := match number with
    | some n => ("    " ++ Decimal.text n ++ ": ","       ")
    | none => ("    ","    ")
  let lines := (Text.split (· == '\n') cause.toList).map String.ofList
  mark ++ ("\n" ++ margin).intercalate lines

/-- The report of an error: what was tried, and the causes from the outer to the
inner. -/
def report (tried : String) (causes : List String) : String :=
  let shown := match causes with
    | [cause] => [causeLines none cause]
    | causes => causes.mapIdx fun n cause => causeLines (some n) cause
  let below := if causes.isEmpty then [] else ["","Caused by:"] ++ shown
  "\n".intercalate (("Error: " ++ tried) :: below) ++ "\n"

/-- The end after an error. -/
def Ending.failed (tried : String) (causes : List String) : Ending :=
  { code := 1, errors := report tried causes }

/-- The end if there are no settings. A duration too long to count is no error
but a crash. -/
def Ending.unloaded (config : String) (fault : Settings.LoadFault) : Ending :=
  let reported := .failed ("Failed to load configuration from " ++ config)
    (fault.error.message :: fault.error.cause?.toList)
  match fault with
  | .mismatch m =>
    match m.cause with
    | .durationOverflow => { code := 101, errors := m.message }
    | _ => reported
  | _ => reported

/-! ## The start -/

/-- What comes of starting the program: it ends at once, or a loop begins. -/
inductive Launch where
  | ended (ending : Ending)
  | synchronizing (settings : Settings) (sink : Log.Sink)
  | moving (settings : Settings) (sink : Log.Sink)

/-- Starts a task that loops. -/
def enter (settings : Settings) (override? : Option String)
    (go : Settings → Log.Sink → Launch) : Launch :=
  match Log.Sink.install none settings.log override? with
  | .ok sink => go settings sink
  | .error e => .ended (.failed "Failed to initialize logging" [e.message])

/-- Starts the program in a working directory, with the variables of its
environment. -/
def launch (t : FileTree) (cwd : Place) (vars : List (String × String))
    (args : List String) : Launch :=
  match Request.ofArguments? args with
  | none => .ended { code := 2, errors := usage }
  | some .version => .ended { code := 0, output := [version] }
  | some .help => .ended { code := 0, output := [usage] }
  | some (.run config task) =>
    match Settings.load t cwd config vars with
    | .error fault => .ended (.unloaded config fault)
    | .ok settings =>
      let override? := vars.lookup Log.Sink.overrideVariable
      match task with
      | .checkConfig =>
        let text := (Text.split (· == '\n') settings.toValue.pretty.toList).map String.ofList
        .ended { code := 0, output := text }
      | .sync => enter settings override? .synchronizing
      | .moveFiles => enter settings override? .moving

/-! ## Loops -/

/-- What a loop tells up to a wait, and how long it then waits, in milliseconds,
if not for ever. -/
structure Stretch where
  records : List Log.Record
  wait : Option Nat

/-- A loop in a world: what it tells before anything else, and how it goes on. -/
structure Loop (ω : Type) where
  opening : List Log.Record
  next : ω → Stretch × ω

/-- The record of a control loop that is about to start. -/
def connecting (s : Settings) : Log.Record :=
  ⟨.info,name,"Synchronizing scouting run state",
    [("feed",.text s.statusFeed.url),("peer",.text s.peer.address)]⟩

/-- The control loop. -/
def synchronizing {φ σ : Type} (s : Settings) (feed : Feed φ) (link : Link σ) :
    Loop (Synchronizer.Session φ σ) :=
  let plan := Synchronizer.Plan.ofSettings s.sync
  { opening := [connecting s,(Synchronizer.Event.launched plan.delay plan.resend).record]
    next := fun session =>
      let run := Synchronizer.step plan feed link session
      (⟨run.events.map (·.record),some plan.delay.waitMillis⟩,
        Synchronizer.wait plan run.session) }

/-- The loop of the file mover. -/
def moving (m : Mover) (codec : Codec) : Loop FileTree :=
  { opening := [m.launch.record]
    next := fun t =>
      let done := m.untilWait codec Mover.turnLimit t
      (⟨done.events.map (·.record),done.pause.millis?⟩,done.tree) }

/-- The record of an interruption. -/
def interruption : Log.Record := ⟨.info,name,"Shutdown requested",[]⟩

/-- Goes on until records come that somebody has been waiting for, for at most
some time and some stretches. `pending` are records of which nobody has seen
anything yet. The answer is all that was told, and the world at the wait that
follows. -/
def Loop.goOn {ω : Type} (loop : Loop ω) (awaited : List Log.Record → Bool) :
    Nat → Nat → List Log.Record → ω → Option (List Log.Record × ω)
  | 0,_,_,_ => none
  | stretches + 1,time,pending,world =>
    let (stretch,after) := loop.next world
    let told := pending ++ stretch.records
    if awaited told then some (told,after)
    else match stretch.wait with
      | none => none
      | some wait =>
        if time < wait then none
        else
          (loop.goOn awaited stretches (time - wait) [] after).map fun (records,last) =>
            (told ++ records,last)

/-- Lets a loop go on until a line holds a text and interrupts it then, in its
wait. Who waits for the line gives up after a time. -/
def Loop.interrupt {ω : Type} (loop : Loop ω) (sink : Log.Sink) (text : String) (patience : Nat)
    (world : ω) : Option (Ending × ω) :=
  let awaited (records : List Log.Record) : Bool :=
    (sink.lines records).any fun line => Text.occurs text.toList line.toList
  (loop.goOn awaited (patience + 1) patience loop.opening world).map fun (records,last) =>
    ({ code := 0, output := sink.lines (records ++ [interruption]) },last)

/-! ## The whole -/

/-- The world outside: the transfers of the feed, the connections to the peer,
and what comes of calling a codec in a directory. -/
structure Outside where
  transfers : List Transfer
  contacts : List Contact
  codec : Place → String → Codec

/-- What is to be seen of the program: how it ends, what the feed was asked for
and what the peer was sent. -/
structure Observation where
  ending : Ending
  asked : List String := []
  heard : List String := []
deriving DecidableEq, Repr

/-- Starts the program and, if it loops, interrupts it as soon as a line holds a
text. There is no observation of a program that goes on for ever. -/
def observe (t : FileTree) (cwd : Place) (vars : List (String × String)) (outside : Outside)
    (args : List String) (text : Option String) (patience : Nat) : Option Observation :=
  match launch t cwd vars args with
  | .ended ending => some { ending }
  | .synchronizing s sink =>
    let loop := synchronizing s (HttpFeed.mk s.statusFeed.url).feed (TcpLink.ofSettings s.peer).link
    let world := .new (.ofTransfers outside.transfers) (.ofContacts outside.contacts)
    text.bind fun text =>
      (loop.interrupt sink text patience world).map fun (ending,last) =>
        { ending, asked := last.feed.asked, heard := last.link.heard }
  | .moving s sink =>
    let loop := moving ⟨s.fileMover,cwd⟩ (outside.codec cwd s.fileMover.codec)
    text.bind fun text =>
      (loop.interrupt sink text patience t).map fun (ending,_) => { ending }

end Lockstep.Program
