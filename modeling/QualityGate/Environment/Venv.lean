import QualityGate.Environment.Basic
import QualityGate.Host.Path
/-!
What activating a virtual environment does to a process environment by the standard layout: its
`bin` directory comes first on the search path, `VIRTUAL_ENV` names it, and `PYTHONHOME` goes. A search
path is cut into its entries and put together again.
-/

namespace QualityGate.Environment

/-- The byte between the entries of a search path. -/
def colon : UInt8 := 0x3A

/-- The variable that holds the search path. -/
def pathKey : Bytes := Text.bytes "PATH"

/-- The variable that names the active virtual environment. -/
def venvKey : Bytes := Text.bytes "VIRTUAL_ENV"

/-- The variable that an active virtual environment must not see. -/
def homeKey : Bytes := Text.bytes "PYTHONHOME"

/-- **The search path of some entries.** An entry that holds a colon would be read as several, so with
one there is none. -/
def searchPath? (entries : List Bytes) : Option Bytes :=
  if entries.any (·.contains colon) then none else some (Text.joinBytes colon entries)

/-- **Search path with a directory put in front** of the entries of another one, if there is one. -/
def putFirst (dir : Bytes) (path : Option Bytes) : Option Bytes :=
  searchPath? (dir :: (path.map (Text.splitBytes colon)).getD [])

/-- **The environment inside a virtual environment** that has the standard layout. Where its directory
cannot be put in front, the search path stays as it is. -/
def inVenv (base : Environment) (venv : Bytes) : Environment :=
  let bin := Host.Path.join venv (Text.bytes "bin")
  let withPath :=
    match putFirst bin (base.get? pathKey) with
    | some p => base.set pathKey p
    | none => base
  (withPath.set venvKey venv).remove homeKey

end QualityGate.Environment
