import QualityGate.Console.Timestamp
import QualityGate.Environment.NulSeparated
import QualityGate.Host.System
import QualityGate.Session.Commands
/-!
The command line. The files below the working directory are read, a session runs on them, what it shows
goes to the two streams, and the files that it has changed are written.
-/

namespace QualityGate.CommandLine

open Host (FileTree Location)

/-- How far below the working directory files are read. -/
def depthLimit : Nat := 16

/-- A file is taken for a program if it names its interpreter. -/
def looksExecutable (data : Bytes) : Bool :=
  [0x23, 0x21].isPrefixOf data

/-- Adds what stands at an entry of a directory to some files. A directory whose name starts with a dot
is left alone, and so is what cannot be read. -/
def gather (l : Location) : Nat → IO.FS.DirEntry → FileTree → IO FileTree
  | 0, _, t => return t
  | depth + 1, e, t =>
    try
      let here := l ++ [Text.bytes e.fileName]
      match (← e.path.metadata).type with
      | .dir =>
        if e.fileName.startsWith "." then return t
        let mut t := t.put here .directory
        for below in ← e.path.readDir do
          t ← gather here depth below t
        return t
      | .file =>
        let data := (← IO.FS.readBinFile e.path).toList
        return t.put here (.file data (looksExecutable data))
      | _ => return t
    catch _ => return t

/-- The directory in which the system keeps what it knows of this process. -/
def selfDirectory : String := "/proc/self"

/-- The surroundings of this process. -/
def surroundings : IO Surroundings := do
  let directory ← IO.currentDir
  let cwd := Location.ofPath (Text.bytes directory.toString)
  let mut files := FileTree.system.makeDirectories cwd
  for e in ← directory.readDir do
    files ← gather cwd depthLimit e files
  let env := Environment.parse? (← IO.FS.readBinFile (selfDirectory ++ "/environ")).toList
  return ⟨files, cwd, env.getD Environment.empty⟩

/-- Writes the files that differ from what they were. -/
def save (before after : FileTree) : IO Unit := do
  for (l, e) in after.entries do
    match e with
    | .file data _ =>
      if before.at? l ≠ some e then
        IO.FS.writeBinFile (Text.lossy l.path) ⟨data.toArray⟩
    | _ => pure ()

/-- The time at which this process began to be looked at. -/
def startTime : IO Console.Timestamp := do
  let entries ← (← IO.FS.realPath selfDirectory).readDir
  match entries[0]? with
  | some e =>
    let t := (← e.path.metadata).modified
    return ⟨t.sec.toNat, t.nsec.toNat⟩
  | none => return ⟨0, 0⟩

end QualityGate.CommandLine

open QualityGate in
/-- **Runs a session** with the arguments of the command line. -/
def main (args : List String) : IO UInt32 := do
  let s ← CommandLine.surroundings
  let args := args.map Text.bytes
  let r := Session.start .real args s
  let display := Session.display args s.env (← CommandLine.startTime).render
  (← IO.getStdout).write ⟨(display.stdout r.events).toArray⟩
  (← IO.getStderr).write ⟨(display.stderr r.events).toArray⟩
  CommandLine.save s.files r.surroundings.files
  return r.status.toUInt32
