import QualityGate.Host.FileTree
import QualityGate.Environment.Venv
/-!
Finding a program before it is started. A program of more than one path component is looked for in
one place, seen from the directory that the program is to run in; any other is looked for along the
search path, whose relative entries are seen from the directory of the looking process. The first
candidate that is an executable file is the one found.
-/

namespace QualityGate.Host

/-- **What a look-up sees of the world**: the files, the looking process's own directory, and the
home directory that `~` stands for. -/
structure Viewpoint where
  files : FileTree
  cwd : Location
  home : Option Bytes

namespace Viewpoint

/-- A relative path as seen from a directory: leading `.` go, and every component is written once. -/
def absolute (dir path : Bytes) : Bytes :=
  if Path.isAbsolute path then path
  else Path.extend dir ((Path.components path).dropWhile (· = .current))

/-- A search-path entry whose first component is `~` starts at the home directory. -/
def expandHome (v : Viewpoint) (entry : Bytes) : Bytes :=
  match Path.components entry, v.home with
  | .name [0x7E] :: rest, some home => Path.extend home rest
  | _, _ => entry

/-- The entries of a search path. -/
def searchEntries (path : Bytes) : List Bytes :=
  Text.splitBytes Environment.colon path

/-- **Where a program is looked for**, in order. -/
def candidates (v : Viewpoint) (program dir : Bytes) (path : Option Bytes) : List Bytes :=
  if 1 < (Path.components program).length then [absolute dir program]
  else
    match path with
    | none => []
    | some p => (searchEntries p).map fun entry => Path.join (v.expandHome entry) program

/-- **The program that is found**: the first candidate that may be executed. -/
def find? (v : Viewpoint) (program dir : Bytes) (path : Option Bytes) : Option Bytes :=
  (v.candidates program dir path).find? fun c => v.files.isExecutable v.cwd c

end Viewpoint
end QualityGate.Host
