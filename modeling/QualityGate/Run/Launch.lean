import QualityGate.Duration.Basic
import QualityGate.Failure
import QualityGate.Shell.Eval
/-!
Starting a program and waiting for its end. A program is found by the search path that it will have
itself if its environment is replaced, and by that of the starting process if not. It reads nothing,
and what it writes is gathered. It may have a limit, at which it is killed.
-/

namespace QualityGate

open Host (FileTree Location Errno)

/-! ### Where programs start -/

/-- **What a process finds around it**: the files, its working directory and its environment. -/
structure Surroundings where
  files : FileTree
  cwd : Location
  env : Environment
  deriving Inhabited

/-- The path of the working directory, if it is still there. -/
def Surroundings.directory (s : Surroundings) : Except Errno Bytes :=
  s.files.directoryPath s.cwd

/-- **What is to be started.** -/
structure Launch where
  /-- Name or path of the program. -/
  program : Bytes
  args : List Bytes := []
  /-- Directory to start in; unset means that of the starting process. -/
  cwd : Option Bytes := none
  /-- Environment in place of that of the starting process. -/
  env : Option Environment := none
  limit : Option Duration := none

/-- **How a launched program ended**, and what it wrote. -/
structure Landing where
  /-- None if it was killed at its limit. -/
  ending : Option Shell.Ending
  /-- What was written to standard output while it was waited for. -/
  stdout : Bytes
  /-- What was written to standard error while it was waited for. -/
  stderr : Bytes
  elapsed : Duration
  /-- Whether something that it started went on writing for longer than is waited for. -/
  held : Bool
  files : FileTree

namespace Launch

/-- How long output is waited for after a program was killed at its limit. -/
def grace : Nat := 500000000

/-- The shell process in which a launched program starts. -/
def process (cwd : Location) (limit : Option Nat) : Shell.State :=
  { pid := 999, mainPid := 999, cwd := cwd
    streams := [(0, .nowhere), (1, .sink 0), (2, .sink 1)]
    deadline := limit, laterDeadline := limit.map (· + grace) }

/-- Whether anything that is handed to the system holds a zero byte. -/
def holdsZero (l : Launch) : Bool :=
  (l.program :: l.args ++ l.cwd.toList).any (·.contains 0) ||
    ((l.env.map (·.entries)).getD []).any fun e => e.1.contains 0 || e.2.contains 0

/-- The directory in which a program starts. -/
def directory (l : Launch) (s : Surroundings) : Except Errno Location :=
  match l.cwd with
  | none => .ok s.cwd
  | some path =>
    match s.files.stat s.cwd path with
    | .error e => .error e
    | .ok (d, .directory) => .ok d
    | .ok _ => .error .notDirectory

/-- The image of a launched program. -/
def image (l : Launch) (s : Surroundings) (cwd : Location) : Except Errno Host.Image :=
  let argv := l.program :: l.args
  match l.env with
  | some env =>
    s.files.imageByName cwd (!l.program.contains Host.Path.slash) (env.get? Environment.pathKey)
      l.program argv
  | none =>
    s.files.imageByName cwd false (s.env.get? Environment.pathKey) l.program argv

/-- Nanoseconds as a duration. -/
def elapsedOf (nanos : Nat) : Duration :=
  (Duration.ofParts? (nanos / 1000000000) (nanos % 1000000000)).getD .zero

/-- **Starts a program and waits for its end**, or tells why it does not start. -/
def run (l : Launch) (s : Surroundings) : Except IoFault Landing :=
  if l.holdsZero then .error (.described "nul byte found in provided data")
  else
    match l.directory s with
    | .error e => .error (.system e)
    | .ok cwd =>
      match l.image s cwd with
      | .error e => .error (.system e)
      | .ok image =>
        let act : Shell.Act Unit := do
          Shell.spend Shell.startTime
          Shell.become (Shell.eval Shell.evalBudget) Shell.becomingBudget image (l.env.getD s.env)
        let scene : Shell.Scene :=
          { shell := process cwd (l.limit.map (·.toNanos))
            machine := { files := s.files, sinks := #[[], []] } }
        let (result, scene) := act.run scene
        -- only what the limit cut off has no ending of its own
        let ending : Option Shell.Ending := match result with
          | .error .late => none
          | .error (.killed g) => some (.killed g)
          | .error (.exit n) => some (.exited (n % 256))
          | _ => some (.exited (scene.shell.status % 256))
        let m := scene.machine
        .ok
          { ending := ending, stdout := m.gathered 0, stderr := m.gathered 1
            elapsed := elapsedOf m.clock, held := ending.isNone && m.held, files := m.files }

end Launch

/-- **What starts programs** and waits for their ends. Only the start can fail. -/
abbrev Launcher := Launch → Surroundings → Except IoFault Landing

/-- The launcher of a host with its shells and its programs. -/
def Launcher.real : Launcher := Launch.run

end QualityGate
