import Lockstep.Log.Filter
import Lockstep.Settings

/-!
# The sink of the log

Where records go: those that a filter lets through become lines of one of two
forms. A program has one sink for all its time.
-/

namespace Lockstep.Log

/-- Where records go. -/
structure Sink where
  filter : Filter
  format : LogFormat
deriving DecidableEq, Repr

namespace Sink

/-- The variable that takes the place of the configured level. -/
def overrideVariable : String := "RUST_LOG"

/-- The sink that settings ask for. A filter in the variable goes before the
configured level, unless it cannot be read. -/
def ofSettings (s : Settings.Log) (override? : Option String) : Except Error Sink :=
  let fromLevel : Except Error Sink :=
    match Filter.ofText s.level with
    | .ok filter => .ok ⟨filter,s.format⟩
    | .error fault => .error (.logging ("invalid level '" ++ s.level ++ "': " ++ fault.message))
  match override?.map Filter.ofText with
  | some (.ok filter) => .ok ⟨filter,s.format⟩
  | _ => fromLevel

/-- Installs the sink of a program, which must not have one yet. -/
def install (present : Option Sink) (s : Settings.Log) (override? : Option String) :
    Except Error Sink :=
  match ofSettings s override?,present with
  | .error e,_ => .error e
  | .ok _,some _ => .error (.logging "a global default trace dispatcher has already been set")
  | .ok sink,none => .ok sink

/-- What is written for a record, without the time. -/
def render (k : Sink) (r : Record) : String :=
  match k.format with
  | .text => r.line
  | .json => r.toValue.compact

/-- The lines that a record takes: one, unless its values hold line ends that are
written as they are. -/
def linesOf (k : Sink) (r : Record) : List String :=
  (Text.split (· == '\n') (k.render r).toList).map String.ofList

/-- The lines of some records. -/
def lines (k : Sink) (records : List Record) : List String :=
  (records.filter k.filter.passes).flatMap k.linesOf

end Sink

end Lockstep.Log
