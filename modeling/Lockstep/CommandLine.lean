import Lockstep.Settings.Layers

/-!
# The command line

What the program can be asked for by its arguments. They are read from left to
right, and the first that does not fit ends the reading.
-/

namespace Lockstep

/-- What the program can do. -/
inductive Task where
  | sync
  | moveFiles
  | checkConfig
deriving DecidableEq, Repr

/-- The name of a task. -/
def Task.name : Task → String
  | .sync => "sync"
  | .moveFiles => "move-files"
  | .checkConfig => "check-config"

/-- The tasks. -/
def Task.all : List Task := [.sync,.moveFiles,.checkConfig]

/-- The task with a name. -/
def Task.ofName? (name : String) : Option Task := all.find? (·.name == name)

/-- What the arguments ask for: a task with a configuration, or to be told
something. -/
inductive Request where
  | run (config : String) (task : Task)
  | version
  | help
deriving DecidableEq, Repr

namespace Request

/-- One argument: a task, the option for the configuration with its value if
that is attached, a question as an option or as a word, or none of these. -/
inductive Argument where
  | task (task : Task)
  | config (attached : Option String)
  | version
  | help
  | explain
  | unknown
deriving DecidableEq, Repr

/-- What follows a one-letter option in the same argument; an equals sign in
between does not count. -/
def attached? : List Char → Option String
  | [] => none
  | '=' :: value => some (String.ofList value)
  | value => some (String.ofList value)

/-- The word that asks what the program or one of its tasks does. -/
def explainName : String := "help"

/-- Reads an argument that stands where no value is owed. -/
def Argument.ofText (text : String) : Argument :=
  match text.toList with
  | '-' :: '-' :: option =>
    let (name,value) := option.span (· != '=')
    match String.ofList name,value with
    | "config",[] => .config none
    | "config",_ :: value => .config (some (String.ofList value))
    | "version",[] => .version
    | "help",[] => .help
    | _,_ => .unknown
  | '-' :: 'c' :: value => .config (attached? value)
  | '-' :: 'V' :: _ => .version
  | '-' :: 'h' :: _ => .help
  | _ =>
    if text = explainName then .explain
    else match Task.ofName? text with
      | some t => .task t
      | none => .unknown

/-- Whether an argument can be the value of an option before it: it is not empty
and, a lone dash apart, starts with none. -/
def isValue (text : String) : Bool :=
  match text.toList with
  | [] => false
  | ['-'] => true
  | c :: _ => c != '-'

/-- Reads what follows a task: nothing but a question. -/
def afterTask? (config : String) (task : Task) : List String → Option Request
  | [] => some (.run config task)
  | arg :: rest =>
    if arg = "--" then (if rest.isEmpty then some (.run config task) else none)
    else if Argument.ofText arg = .help then some .help
    else none

/-- Whether something can be told about what follows the word for it: nothing,
a task, or the word itself. -/
def isTopic : List String → Bool
  | [] => true
  | [word] => word == explainName || (Task.ofName? word).isSome
  | _ => false

/-- Reads arguments; `config` is the configuration if it has been named. It can
be named once only. -/
def read? (config : Option String) : List String → Option Request
  | [] => none
  | arg :: rest =>
    match Argument.ofText arg with
    | .task task => afterTask? (config.getD Settings.defaultPath) task rest
    | .version => some .version
    | .help => some .help
    | .explain => if isTopic rest then some .help else none
    | .unknown => none
    | .config value =>
      if config.isSome then none
      else match value,rest with
        | some value,rest => if value.isEmpty then none else read? (some value) rest
        | none,value :: rest => if isValue value then read? (some value) rest else none
        | none,[] => none

/-- What some arguments ask for, if they fit. -/
def ofArguments? (args : List String) : Option Request := read? none args

end Request

end Lockstep
