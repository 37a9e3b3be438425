import Lockstep.Toml.Token

/-!
# Reading TOML

Lists and inline tables, then the lines of a document: values under dotted
keys, headers of tables and of lists of tables.
-/

namespace Lockstep.Toml

/-- Reads the elements of a list after its bracket or after a comma. -/
def readElements (element : Reader Value) : Nat → Reader (List Value)
  | 0,_ => none
  | steps + 1,s =>
    (skipLines s.length s).bind fun s =>
      match s with
      | ']' :: s => some ([],s)
      | s =>
        (element s).bind fun (v,s) =>
          (skipLines s.length s).bind fun s =>
            match s with
            | ',' :: s => (readElements element steps s).map fun (vs,s) => (v :: vs,s)
            | ']' :: s => some ([v],s)
            | _ => none

/-- Reads the entries of an inline table after its brace or after a comma; the
ones before it are in `entries`. -/
def readInline (element : Reader Value) : Nat → Entries → Reader Entries
  | 0,_,_ => none
  | steps + 1,entries,s =>
    (readKey s).bind fun ((path,key),s) =>
      (expect? '=' s).bind fun s =>
        (element (skipSpace s)).bind fun (v,s) =>
          (addValue key v path entries).bind fun entries =>
            match skipSpace s with
            | ',' :: s => readInline element steps entries s
            | '\x7d' :: s => some (entries,s)
            | _ => none

/-- Reads a value that may hold others, `depth` deep at most. -/
def readValue : Nat → Reader Value
  | 0,s =>
    match s with
    | '[' :: _ => none
    | '\x7b' :: _ => none
    | s => readScalar s
  | depth + 1,s =>
    match s with
    | '[' :: s => (readElements (readValue depth) (s.length + 1) s).map fun (vs,s) => (.list vs,s)
    | '\x7b' :: s =>
      match skipSpace s with
      | '\x7d' :: s => some (.table [],s)
      | _ =>
        (readInline (readValue depth) (s.length + 1) [] s).map fun (entries,s) =>
          (.table (closeEntries entries),s)
    | s => readScalar s

/-- Reads a key and its value, to the end of the line. -/
def readPair (s : List Char) : Option ((List String × String × Value) × List Char) :=
  (readKey s).bind fun ((path,key),s) =>
    (expect? '=' s).bind fun s =>
      (readValue (depthLimit - 1) (skipSpace s)).bind fun (v,s) =>
        (endLine? s).map fun s => ((path,key,v),s)

/-- Reads the rest of a header that closes with `closing`. -/
def readHeader (closing : List Char) (s : List Char) :
    Option ((List String × String) × List Char) :=
  (readKey s).bind fun (key,s) =>
    if closing.isPrefixOf s then (endLine? (s.drop closing.length)).map (key,·) else none

/-- Reads the lines of a document; `header` leads to the table that is open. -/
def readLines : Nat → List String → Entries → List Char → Option Entries
  | 0,_,_,_ => none
  | steps + 1,header,root,s =>
    match skipLines s.length s with
    | none => none
    | some [] => some root
    | some ('[' :: '[' :: s) =>
      (readHeader [']',']'] s).bind fun ((path,key),s) =>
        (alterTable (openElement key) path root).bind fun root =>
          readLines steps (path ++ [key]) root s
    | some ('[' :: s) =>
      (readHeader [']'] s).bind fun ((path,key),s) =>
        (alterTable (openTable key) path root).bind fun root =>
          readLines steps (path ++ [key]) root s
    | some s =>
      (readPair s).bind fun ((path,key,v),s) =>
        (addBelow header path key v root).bind fun root => readLines steps header root s

/-- Reads a document; a byte order mark in front of it is passed over. -/
def ofChars (s : List Char) : Option (List (String × Value)) :=
  let s := match s with
    | '\ufeff' :: s => s
    | s => s
  (readLines (s.length + 1) [] [] s).map closeEntries

end Lockstep.Toml
