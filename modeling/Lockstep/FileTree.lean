import Lockstep.Error
import Lockstep.Text.Split

/-!
# File trees

Directories, files, symbolic links and special files as one table from places to
what is there. A place is the list of names that leads to it from the root; names
are bytes. `find` follows a written path to its place as the operating system
does, and the operations below it are those of the file system with its errors.

A file may have several names, and files and directories may be guarded against
writing. Reading and searching are always allowed.
-/

namespace Lockstep

/-- The name of an entry in a directory. -/
abbrev Name := List UInt8

/-- Where something is: the names from the root on. -/
abbrev Place := List Name

/-- How a special file takes being opened for writing: the opening does not end,
as with a pipe that nobody reads; what is written is gone, as with a device; or
it cannot be opened. -/
inductive Special where
  | stalls
  | swallows
  | refuses (error : SystemError)
deriving DecidableEq, Repr

/-- What is at a place. -/
inductive Node where
  | file (content : List UInt8)
  | dir
  | link (target : List UInt8)
  | special (kind : Special)
deriving DecidableEq, Repr

/-- What is at a place, with its marks: a guarded file may not be written, and in
a guarded directory nothing may be made or removed; a file of several names has
a number, the same under each. -/
structure Entry where
  node : Node
  isGuarded : Bool := false
  number : Option Nat := none
deriving DecidableEq, Repr

namespace Entry

/-- A file without marks. -/
def file (content : List UInt8) : Entry := { node := .file content }

/-- A directory without marks. -/
def dir : Entry := { node := .dir }

/-- A link. -/
def link (target : List UInt8) : Entry := { node := .link target }

/-- A special file without marks. -/
def special (kind : Special) : Entry := { node := .special kind }

/-- Something in the place of an entry, if there is one, with its marks. -/
def after : Option Entry → Node → Entry
  | some entry,n => { entry with node := n }
  | none,n => { node := n }

/-- A file with another content. -/
def rewritten (content : List UInt8) (entry : Entry) : Entry :=
  match entry.node with
  | .file _ => { entry with node := .file content }
  | _ => entry

end Entry

/-- A file tree. The root is a directory and has no entry. -/
structure FileTree where
  entries : List (Place × Entry)
deriving DecidableEq, Repr

namespace FileTree

/-- A tree with nothing but its root. -/
def empty : FileTree := ⟨[]⟩

/-! ## Places -/

/-- What is at a place. -/
def get? (t : FileTree) (p : Place) : Option Node :=
  if p = [] then some .dir else (t.entries.lookup p).map (·.node)

/-- Whether what is at a place is guarded. -/
def isGuarded (t : FileTree) (p : Place) : Bool := (t.entries.lookup p).any (·.isGuarded)

/-- The number of the file at a place. -/
def number? (t : FileTree) (p : Place) : Option Nat := (t.entries.lookup p).bind (·.number)

/-- Whether two places are different names of one file. -/
def isTwin (t : FileTree) (p q : Place) : Bool :=
  p != q && (t.number? p).isSome && t.number? q == t.number? p

/-- Takes away what is at a place. -/
def erase (t : FileTree) (p : Place) : FileTree := ⟨t.entries.filter (·.1 != p)⟩

/-- Puts something at a place; marks stay. -/
def put (t : FileTree) (p : Place) (n : Node) : FileTree :=
  ⟨(t.erase p).entries ++ [(p,.after (t.entries.lookup p) n)]⟩

/-- Puts a file with a content at a place and under the other names of the file
that was there. -/
def fill (t : FileTree) (p : Place) (content : List UInt8) : FileTree :=
  ⟨(t.put p (.file content)).entries.map fun (q,entry) =>
    (q,if t.isTwin p q then entry.rewritten content else entry)⟩

/-- Takes away everything below a place, but not what is there. -/
def eraseBelow (t : FileTree) (p : Place) : FileTree :=
  ⟨t.entries.filter fun (q,_) => !p.isPrefixOf q || q == p⟩

/-- The name of an entry that lies directly in a directory. -/
def nameIn? (dir : Place) (p : Place) : Option Name :=
  match p.getLast? with
  | some name => if p.dropLast = dir then some name else none
  | none => none

/-- The entries of a directory. -/
def children (t : FileTree) (dir : Place) : List (Name × Node) :=
  t.entries.filterMap fun (p,entry) => (nameIn? dir p).map (·,entry.node)

/-! ## Paths -/

/-- The byte between the names of a path. -/
def slash : UInt8 := 0x2F

/-- The names of a path; empty ones do not count. -/
def names (path : List UInt8) : List Name :=
  (Text.split (· == slash) path).filter (!·.isEmpty)

/-- Whether a path ends in a slash. -/
def endsInSlash (path : List UInt8) : Bool := path.getLast? == some slash

/-- Whether a path starts at the root. -/
def isAbsolute (path : List UInt8) : Bool := path.head? == some slash

/-- The name of a directory in itself. -/
def here : Name := [0x2E]

/-- The name of the directory above. -/
def above : Name := [0x2E,0x2E]

/-- The step that a slash at the end of a path is: it stays where it is and asks
for a directory. -/
def slashStep : Name := []

/-- The steps that a path takes. -/
def steps (path : List UInt8) : List Name :=
  names path ++ if endsInSlash path then [slashStep] else []

/-- How long a name may be. -/
def nameLimit : Nat := 255

/-- How long a path may be, and what a link leads to. -/
def pathLimit : Nat := 4095

/-- How many links are followed on one path. -/
def linkLimit : Nat := 40

/-- What a path is taken for: the entry it names, be it a link; what it leads to,
a link at its end being followed; or a file to be written, which cannot be named
with a slash behind it, not by a link on the way either. -/
inductive Aim where
  | entry
  | content
  | writing
deriving DecidableEq, Repr

/-- Takes the steps of a path, at most `links` links among them. The answer is
the place and what is there; nothing need be there after the last step. -/
def walk (t : FileTree) (aim : Aim) (links : Nat) (place : Place) :
    List Name → Except SystemError (Place × Option Node)
  | [] => .ok (place,t.get? place)
  | name :: rest =>
    if t.get? place ≠ some .dir then .error .notADirectory
    else if name = here ∨ name = slashStep then walk t aim links place rest
    else if name = above then walk t aim links place.dropLast rest
    else if aim = .writing ∧ rest = [slashStep] then .error .isADirectory
    else if nameLimit < name.length then .error .nameTooLong
    else match t.get? (place ++ [name]) with
      | none => if rest.isEmpty then .ok (place ++ [name],none) else .error .noSuchFile
      | some (.link target) =>
        if rest.isEmpty ∧ aim = .entry then .ok (place ++ [name],some (.link target))
        else match links with
          | 0 => .error .tooManyLinks
          | links + 1 =>
            walk t aim links (if isAbsolute target then [] else place) (steps target ++ rest)
      | some _ => walk t aim links (place ++ [name]) rest
termination_by s => (links,s.length)

/-- Where a path starts, taken from a working directory. -/
def origin (cwd : Place) (path : List UInt8) : Place := if isAbsolute path then [] else cwd

/-- What is wrong with a path whatever the tree: it has a zero byte, is too long,
or empty. -/
def defect? (path : List UInt8) : Option SystemError :=
  if path.contains 0 then some .zeroInPath
  else if pathLimit < path.length then some .nameTooLong
  else if path.isEmpty then some .noSuchFile
  else none

/-- The place of a path, taken from a working directory. -/
def find (t : FileTree) (aim : Aim) (cwd : Place) (path : List UInt8) :
    Except SystemError (Place × Option Node) :=
  match defect? path with
  | some e => .error e
  | none => walk t aim linkLimit (origin cwd path) (steps path)

/-- A path to something inside a directory. -/
def join (dir name : List UInt8) : List UInt8 :=
  if dir.isEmpty ∨ endsInSlash dir then dir ++ name else dir ++ slash :: name

/-- The path from the root to a place. -/
def pathTo (p : Place) : List UInt8 := p.foldl join [slash]

/-- Whether a piece between slashes adds nothing to a path. -/
def isIdle (piece : Name) : Bool := piece.isEmpty || piece == here

/-- The path of the directory above what a path names: without its last name and
the idle pieces around it. A relative path ends at the empty one; above that and
above the root there is nothing. -/
def parent? (path : List UInt8) : Option (List UInt8) :=
  match Text.split (· == slash) path with
  | [] => none
  | first :: rest =>
    match rest.reverse.dropWhile isIdle with
    | [] => if first.isEmpty then none else some []
    | _ :: before =>
      let kept := (before.dropWhile isIdle).reverse
      some (if first.isEmpty ∧ kept.isEmpty then [slash]
        else List.intercalate [slash] (first :: kept))

/-! ## Operations -/

/-- The content of a file. -/
def readFile (t : FileTree) (cwd : Place) (path : List UInt8) : Except SystemError (List UInt8) :=
  match t.find .content cwd path with
  | .error e => .error e
  | .ok (_,some (.file content)) => .ok content
  | .ok (_,some .dir) => .error .isADirectory
  | .ok _ => .error .noSuchFile

/-- Whether a path leads to a file. -/
def isFile (t : FileTree) (cwd : Place) (path : List UInt8) : Bool :=
  match t.find .content cwd path with
  | .ok (_,some (.file _)) => true
  | _ => false

/-- Whether a path leads to a directory. -/
def isDir (t : FileTree) (cwd : Place) (path : List UInt8) : Bool :=
  match t.find .content cwd path with
  | .ok (_,some .dir) => true
  | _ => false

/-- The place at which opening a path for writing finds or puts a file, or why
there can be none. -/
def target (t : FileTree) (cwd : Place) (path : List UInt8) : Except SystemError Place :=
  match t.find .writing cwd path with
  | .error e => .error e
  | .ok (_,some .dir) => .error .isADirectory
  | .ok (p,_) => .ok p

/-- What comes of opening a path for writing: it is refused, or does not end, or
there is an open file, be it one that keeps nothing, and the tree with it. -/
inductive Opening where
  | refused (error : SystemError)
  | stuck
  | opened (place : Place) (tree : FileTree)

/-- Whether a file may be opened at a place, or made there. -/
def mayOpen (t : FileTree) (p : Place) : Bool :=
  !t.isGuarded (if (t.get? p).isSome then p else p.dropLast)

/-- Opens a file at a place for writing: what it held is gone. -/
def openAt (t : FileTree) (p : Place) : Opening :=
  if t.mayOpen p then
    match t.get? p with
    | some (.special .stalls) => .stuck
    | some (.special .swallows) => .opened p t
    | some (.special (.refuses error)) => .refused error
    | _ => .opened p (t.fill p [])
  else .refused .permissionDenied

/-- Opens a path for writing. -/
def create (t : FileTree) (cwd : Place) (path : List UInt8) : Opening :=
  match t.target cwd path with
  | .error error => .refused error
  | .ok p => t.openAt p

/-- What becomes of the tree when something is written to the file that was opened
at a place, which may be gone by now. -/
def written (t : FileTree) (p : Place) (content : List UInt8) : FileTree :=
  match t.get? p with
  | some (.file _) => t.fill p content
  | _ => t

/-- Removes a file or a link. -/
def remove (t : FileTree) (cwd : Place) (path : List UInt8) : Except SystemError FileTree :=
  match t.find .entry cwd path with
  | .error error => .error error
  | .ok (_,none) => .error .noSuchFile
  | .ok (p,some n) =>
    if t.isGuarded p.dropLast then .error .permissionDenied
    else if n = .dir then .error .isADirectory
    else .ok (t.erase p)

/-- The entries of the directory at a path. -/
def list (t : FileTree) (cwd : Place) (path : List UInt8) :
    Except SystemError (List (Name × Node)) :=
  match t.find .content cwd path with
  | .error e => .error e
  | .ok (p,some .dir) => .ok (t.children p)
  | .ok (_,none) => .error .noSuchFile
  | .ok (_,some _) => .error .notADirectory

/-- Makes one directory, if there is none yet. Slashes may follow its name. -/
def makeDir (t : FileTree) (cwd : Place) (path : List UInt8) : Except SystemError FileTree :=
  match defect? path with
  | some e => .error e
  | none =>
    match t.walk .entry linkLimit (origin cwd path) (names path) with
    | .error e => .error e
    | .ok (p,none) =>
      if t.isGuarded p.dropLast then .error .permissionDenied else .ok (t.put p .dir)
    | .ok (_,some _) => if t.isDir cwd path then .ok t else .error .fileExists

/-- Makes a directory and, where it is for want of them, those above it, at most
`levels` in all. The answer is the tree and whether there is the directory now;
what has been made stays. -/
def makeLevels (cwd : Place) : Nat → FileTree → List UInt8 → FileTree × Bool
  | 0,t,_ => (t,false)
  | levels + 1,t,path =>
    if path.isEmpty then (t,true)
    else match t.makeDir cwd path with
      | .ok t => (t,true)
      | .error .noSuchFile =>
        match parent? path with
        | none => (t,false)
        | some above =>
          let (t,done) := makeLevels cwd levels t above
          if done then
            match t.makeDir cwd path with
            | .ok t => (t,true)
            | .error _ => (t,false)
          else (t,false)
      | .error _ => (t,false)

/-- Makes a directory and those above it, as far as that is possible. A path has
fewer levels than bytes. -/
def makeDirs (t : FileTree) (cwd : Place) (path : List UInt8) : FileTree :=
  (makeLevels cwd (path.length + 1) t path).1

/-- Writes a file, with the directories above it, as far as that is possible. -/
def writeFile (t : FileTree) (cwd : Place) (path content : List UInt8) : FileTree :=
  let t := ((parent? path).map fun above => t.makeDirs cwd above).getD t
  match t.create cwd path with
  | .opened p t => t.written p content
  | _ => t

/-- Makes a link. -/
def makeLink (t : FileTree) (cwd : Place) (path target : List UInt8) :
    Except SystemError FileTree :=
  match defect? target with
  | some e => .error e
  | none =>
    match t.find .entry cwd path with
    | .error e => .error e
    | .ok (p,none) =>
      if t.isGuarded p.dropLast then .error .permissionDenied else .ok (t.put p (.link target))
    | .ok (_,some _) => .error .fileExists

/-- The place that a path names by its last name, which is a name of its own. -/
def ownPlace? (t : FileTree) (cwd : Place) (path : List UInt8) : Option Place :=
  match (names path).getLast? with
  | none => none
  | some name =>
    if name = here ∨ name = above then none
    else match t.walk .content linkLimit (origin cwd path) (names path).dropLast with
      | .ok (dir,some .dir) => some (dir ++ [name])
      | _ => none

/-- Removes a directory with everything in it, as far as that is possible; of a
link only the link. A directory that the path does not call by its name stays,
empty. Guards are not asked. -/
def removeDirs (t : FileTree) (cwd : Place) (path : List UInt8) : FileTree :=
  match t.find .entry cwd path with
  | .ok (p,some (.link _)) => t.erase p
  | .ok (p,some .dir) =>
    let t := t.eraseBelow p
    if t.ownPlace? cwd path = some p then t.erase p else t
  | _ => t

/-- Whether one byte string comes before another or is the same. -/
def leBytes (a b : List UInt8) : Bool := !decide (b < a)

/-- What a listing shows of an entry. -/
inductive Listed where
  | file (content : List UInt8)
  | dir
  | link (target : List UInt8)
deriving DecidableEq, Repr

/-- What a listing shows of a node. Special files are left out. -/
def listed? : Node → Option Listed
  | .file content => some (.file content)
  | .dir => some .dir
  | .link target => some (.link target)
  | .special _ => none

/-- Everything below a directory with its path from there, in the order of the
paths' bytes. -/
def listing (t : FileTree) (dir : Place) : List (List UInt8 × Listed) :=
  let below := t.entries.filterMap fun (p,entry) =>
    if dir.isPrefixOf p ∧ p ≠ dir then
      (listed? entry.node).map fun shown => ((p.drop dir.length).foldl join [],shown)
    else none
  below.mergeSort fun a b => leBytes a.1 b.1

end FileTree

end Lockstep
