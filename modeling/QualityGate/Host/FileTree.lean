import QualityGate.Host.Errno
import QualityGate.Host.Path
import QualityGate.Failure
/-!
The files of a host, as one process finds them: what stands at each location, how a path leads to a
location, and reading and writing of whole files. A path is walked component by component from the root
or from a working directory; every component before the last has to be a directory that is there and may
be searched.

What the system decides by itself is part of the tree: which accesses it refuses to the process, and how
many bytes of a write it takes before the write breaks off. There are no links, neither symbolic ones nor
second names of a file, and no special files but devices like the null device; no path is too long for the
system, and from a directory that was removed only absolute paths lead anywhere.

What stands at a location after a write is given by one lemma (`at?_put`).
-/

namespace QualityGate.Host

/-! ### Locations and entries -/

/-- **A location**: the names on the way down from the root. -/
abbrev Location := List Bytes

/-- The absolute path of a location. -/
def Location.path (l : Location) : Bytes :=
  if l = [] then [Path.slash] else l.flatMap fun name => Path.slash :: name

/-- **What can stand at a location.** -/
inductive Entry where
  | directory
  /-- A file and whether it may be executed. -/
  | file (data : Bytes) (executable : Bool)
  /-- A program of the system, known by its name. -/
  | utility (name : String)
  /-- A device that loses what is written to it, and from which nothing can be read. -/
  | device
  deriving DecidableEq, Repr

namespace Entry

/-- What a program of the system holds: machine code, of which only the start is told. -/
def machineCode : Bytes := [0x7F, 0x45, 0x4C, 0x46, 0xFF]

/-- What can be read of an entry. -/
def content : Entry → Except Errno Bytes
  | file data _ => .ok data
  | utility _ => .ok machineCode
  | device => .ok []
  | directory => .error .isDirectory

/-- What stands there after data were put in the place of an entry. The permission of a file stays, and a
device keeps nothing. -/
def filled (data : Bytes) : Option Entry → Entry
  | some (file _ x) => file data x
  | some (utility _) => file data true
  | some device => device
  | _ => file data false

end Entry

/-- **What a process can do at a location**, if it is not refused. -/
inductive Access where
  /-- Looking up a name in a directory. -/
  | search
  | read
  /-- Changing a file, or what a directory holds. -/
  | write
  deriving DecidableEq, Repr

/-- **An access that the system refuses**, with its reason. -/
structure Refusal where
  location : Location
  access : Access
  errno : Errno
  deriving DecidableEq, Repr

/-- **A write that breaks off** after so many bytes. -/
structure Shortfall where
  kept : Nat
  errno : Errno
  deriving DecidableEq, Repr

/-- **All files of a host**, and how it answers a process that reads and writes them. The root is a
directory without being listed. -/
structure FileTree where
  entries : List (Location × Entry)
  refusals : List Refusal := []
  /-- How each of the coming writes ends, with none for one that is finished; later ones are finished. -/
  endings : List (Option Shortfall) := []
  deriving DecidableEq, Repr

namespace FileTree

/-- A host with no file. -/
def empty : FileTree := { entries := [] }

instance : Inhabited FileTree := ⟨empty⟩

/-- The entry of the first pair with a location. -/
def find (l : Location) : List (Location × Entry) → Option Entry
  | [] => none
  | (k, e) :: r => if k = l then some e else find l r

/-- What stands at a location. -/
def at? (t : FileTree) (l : Location) : Option Entry :=
  if l = [] then some .directory else find l t.entries

/-- A list of pairs with one changed or added. -/
def replace (l : Location) (e : Entry) : List (Location × Entry) → List (Location × Entry)
  | [] => [(l, e)]
  | (k, f) :: r => if k = l then (l, e) :: r else (k, f) :: replace l e r

/-- Puts an entry at a location. -/
def put (t : FileTree) (l : Location) (e : Entry) : FileTree :=
  { t with entries := replace l e t.entries }

/-- Takes away what stands at a location. -/
def erase (t : FileTree) (l : Location) : FileTree :=
  { t with entries := t.entries.filter fun p => p.1 ≠ l }

theorem find_replace (l q : Location) (e : Entry) (ps : List (Location × Entry)) :
    find q (replace l e ps) = if q = l then some e else find q ps := by
  induction ps with
  | nil => grind [find, replace]
  | cons p r ih => grind [find, replace]

/-- **After a write only the written location differs.** -/
theorem at?_put (t : FileTree) (l q : Location) (e : Entry) (h : q ≠ []) :
    (t.put l e).at? q = if q = l then some e else t.at? q := by
  simp [at?, put, h, find_replace]

/-- Makes a directory and those above it where nothing stands. -/
def makeDirectories (t : FileTree) (l : Location) : FileTree :=
  (List.range l.length).foldl
    (fun t n =>
      let above := l.take (n + 1)
      if (t.at? above).isSome then t else t.put above .directory) t

/-- The names directly under a location. -/
def children (t : FileTree) (l : Location) : List Bytes :=
  t.entries.filterMap fun p =>
    if p.1.length = l.length + 1 ∧ p.1.take l.length = l then p.1.getLast? else none

/-- Why an access is refused, if it is. -/
def refusal? (t : FileTree) (l : Location) (a : Access) : Option Errno :=
  (t.refusals.find? fun r => r.location = l ∧ r.access = a).map Refusal.errno

/-! ### Walking a path -/

/-- The longest name that a component may have. -/
def maxName : Nat := 255

/-- **One piece of a path from a location.** Every piece, an empty one too, needs a directory to be
walked in, and one that is not empty looks something up there. -/
def step (t : FileTree) (at_ : Location) (piece : Bytes) : Except Errno Location :=
  match t.at? at_ with
  | none => .error .noEntry
  | some .directory =>
    if piece = [] then .ok at_
    else
      match t.refusal? at_ .search with
      | some e => .error e
      | none =>
        if piece = [Path.dot] then .ok at_
        else if piece = [Path.dot, Path.dot] then .ok at_.dropLast
        else if maxName < piece.length then .error ⟨36⟩
        else if (0 : UInt8) ∈ piece then .error .noEntry
        else .ok (at_ ++ [piece])
  | some _ => .error .notDirectory

/-- **Walks pieces of a path from a location.** Where the last one leads nothing has to stand. -/
def walk (t : FileTree) (at_ : Location) : List Bytes → Except Errno Location
  | [] => .ok at_
  | piece :: rest =>
    match t.step at_ piece with
    | .error e => .error e
    | .ok next => walk t next rest

/-- **Where a path leads** from a working directory. -/
def locate (t : FileTree) (cwd : Location) (path : Bytes) : Except Errno Location :=
  if path = [] then .error .noEntry
  else t.walk (if Path.isAbsolute path then [] else cwd) (Text.splitBytes Path.slash path)

/-- **What stands where a path leads.** -/
def stat (t : FileTree) (cwd : Location) (path : Bytes) : Except Errno (Location × Entry) :=
  match t.locate cwd path with
  | .error e => .error e
  | .ok l =>
    match t.at? l with
    | some e => .ok (l, e)
    | none => .error .noEntry

/-- Whether anything stands where a path leads. -/
def exists? (t : FileTree) (cwd : Location) (path : Bytes) : Bool :=
  match t.stat cwd path with
  | .ok _ => true
  | .error _ => false

/-- Whether a path leads to a directory. -/
def isDirectory (t : FileTree) (cwd : Location) (path : Bytes) : Bool :=
  match t.stat cwd path with
  | .ok (_, .directory) => true
  | _ => false

/-- Whether a path leads to a file. -/
def isFile (t : FileTree) (cwd : Location) (path : Bytes) : Bool :=
  match t.stat cwd path with
  | .ok (_, .file _ _) => true
  | .ok (_, .utility _) => true
  | _ => false

/-- Whether a path leads to a file that may be executed. -/
def isExecutable (t : FileTree) (cwd : Location) (path : Bytes) : Bool :=
  match t.stat cwd path with
  | .ok (_, .file _ x) => x
  | .ok (_, .utility _) => true
  | _ => false

/-- **The path of a working directory.** One that was removed while a process stood in it has none: it is
found neither at its location nor by its path. -/
def directoryPath (t : FileTree) (cwd : Location) : Except Errno Bytes :=
  if t.at? cwd = some .directory ∨ t.isDirectory cwd cwd.path then .ok cwd.path
  else .error .noEntry

/-! ### Whole files -/

/-- **The content of a file.** -/
def read (t : FileTree) (cwd : Location) (path : Bytes) : Except Errno Bytes :=
  match t.stat cwd path with
  | .error e => .error e
  | .ok (l, entry) =>
    match t.refusal? l .read with
    | some e => .error e
    | none => entry.content

/-- Whether a path that leads nowhere asks for a directory by a slash at its end. -/
def asksForDirectory (t : FileTree) (cwd : Location) (path : Bytes) : Bool :=
  let bare := (path.reverse.dropWhile (· = Path.slash)).reverse
  bare ≠ path && bare ≠ [] &&
    (match t.locate cwd bare with
     | .ok l => (t.at? l).isNone
     | .error _ => false)

/-- **Where a whole file is written** to, if it may be: over an old one, or into the directory of a new
one. -/
def target (t : FileTree) (cwd : Location) (path : Bytes) : Except Errno Location :=
  if t.asksForDirectory cwd path then .error .isDirectory
  else
    match t.locate cwd path with
    | .error e => .error e
    | .ok l =>
      match t.at? l with
      | some .directory => .error .isDirectory
      | old =>
        match t.refusal? (if old.isNone then l.dropLast else l) .write with
        | some e => .error e
        | none => .ok l

/-- Puts data in the place of what stands at a location. -/
def fill (t : FileTree) (l : Location) (data : Bytes) : FileTree :=
  t.put l (Entry.filled data (t.at? l))

/-- How the next write breaks off, if it does before all of the data is written. -/
def shortfall? (t : FileTree) (data : Bytes) : Option Shortfall :=
  t.endings.head?.join.filter fun short => short.kept < data.length

/-- **Writes a whole file.** What stood there goes as soon as the file is open, so a write that breaks
off leaves a part of the new data only. -/
def write (t : FileTree) (cwd : Location) (path data : Bytes) : Except Errno Unit × FileTree :=
  match t.target cwd path with
  | .error e => (.error e, t)
  | .ok l =>
    let later := { t with endings := t.endings.tail }
    match t.shortfall? data with
    | some short => (.error short.errno, later.fill l (data.take short.kept))
    | none => (.ok (), later.fill l data)

end FileTree
end QualityGate.Host
