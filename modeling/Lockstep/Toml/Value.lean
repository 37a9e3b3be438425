import Lockstep.Decimal.Binary64

/-!
# TOML documents

The values of TOML 1.0 and the rules by which the parts of a document, headers
and dotted keys, come together as one table.
-/

namespace Lockstep.Toml

open Lockstep.Decimal (Binary64)

/-- A TOML value. A date, a time or both are kept as they are written. -/
inductive Value where
  | text (s : String)
  | integer (n : Int)
  | float (x : Binary64)
  | bool (b : Bool)
  | moment (s : String)
  | list (items : List Value)
  | table (entries : List (String × Value))

/-- A table under construction, or what it holds. A table that only came about
because something below it was named is `implicit`; one that a dotted key made
is `dotted`. `value` is closed: nothing can be added to it. -/
inductive Item where
  | value (v : Value)
  | table (implicit dotted : Bool) (entries : List (String × Item))
  | tables (elements : List (List (String × Item)))

/-- The entries of a table under construction. -/
abbrev Entries := List (String × Item)

/-- Puts an item under a key, in place of the one that is there. -/
def setEntry (key : String) (item : Item) : Entries → Entries
  | [] => [(key,item)]
  | (k,v) :: rest =>
    if k = key then (key,item) :: rest else (k,v) :: setEntry key item rest

/-- Changes the last element of a list. -/
def alterLast? {α : Type} (f : α → Option α) : List α → Option (List α)
  | [] => none
  | [x] => (f x).map ([·])
  | x :: xs => (alterLast? f xs).map (x :: ·)

/-- Adds a value under a dotted key. Only tables that came about in passing can
be added to, and the innermost must be of the key's own making. -/
def addValue (key : String) (value : Value) : List String → Entries → Option Entries
  | [],entries =>
    match entries.lookup key with
    | none => some (setEntry key (.value value) entries)
    | some _ => none
  | step :: path,entries =>
    match entries.lookup step with
    | none =>
      (addValue key value path []).map fun inner =>
        setEntry step (.table true true inner) entries
    | some (.table implicit dotted inner) =>
      if !implicit ∨ (path.isEmpty ∧ !dotted) then none
      else (addValue key value path inner).map fun inner =>
        setEntry step (.table implicit dotted inner) entries
    | some (.tables elements) =>
      if path.isEmpty then none
      else (alterLast? (addValue key value path) elements).map fun elements =>
        setEntry step (.tables elements) entries
    | some (.value _) => none

/-- Changes the table that a header's path leads to; tables on the way come
about in passing. -/
def alterTable (f : Entries → Option Entries) : List String → Entries → Option Entries
  | [],entries => f entries
  | step :: path,entries =>
    match entries.lookup step with
    | none =>
      (alterTable f path []).map fun inner => setEntry step (.table true false inner) entries
    | some (.table implicit dotted inner) =>
      (alterTable f path inner).map fun inner =>
        setEntry step (.table implicit dotted inner) entries
    | some (.tables elements) =>
      (alterLast? (alterTable f path) elements).map fun elements =>
        setEntry step (.tables elements) entries
    | some (.value _) => none

/-- Opens the table of a header: a new one, or one that came about in passing
by a header. -/
def openTable (key : String) (entries : Entries) : Option Entries :=
  match entries.lookup key with
  | none => some (setEntry key (.table false false []) entries)
  | some (.table true false inner) => some (setEntry key (.table false false inner) entries)
  | some _ => none

/-- Opens the next element of a list of tables. -/
def openElement (key : String) (entries : Entries) : Option Entries :=
  match entries.lookup key with
  | none => some (setEntry key (.tables [[]]) entries)
  | some (.tables elements) => some (setEntry key (.tables (elements ++ [[]])) entries)
  | some _ => none

/-- Adds a value to the table that the last header has opened. -/
def addBelow (header : List String) (path : List String) (key : String) (value : Value)
    (root : Entries) : Option Entries :=
  alterTable (addValue key value path) header root

mutual

/-- What an item has become when nothing is added any more. -/
def Item.close : Item → Value
  | .value v => v
  | .table _ _ entries => .table (closeEntries entries)
  | .tables elements => .list (closeElements elements)

/-- The entries of a table when nothing is added any more. -/
def closeEntries : Entries → List (String × Value)
  | [] => []
  | (key,item) :: rest => (key,item.close) :: closeEntries rest

/-- The tables of a list when nothing is added any more. -/
def closeElements : List Entries → List Value
  | [] => []
  | entries :: rest => .table (closeEntries entries) :: closeElements rest

end

end Lockstep.Toml
