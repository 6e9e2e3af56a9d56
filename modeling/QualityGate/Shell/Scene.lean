import QualityGate.Shell.Parser
import QualityGate.Host.FileTree
import QualityGate.Environment.Venv
import QualityGate.Run.Signal
/-!
Where scripts run: the machine that all processes share, with its files and its clock, and the
process that is running, with its variables and descriptors. Scripts act on both; an act that leaves
its script early says how.

Time is virtual. Every command takes a little of it and sleeping takes what was asked for, so that a
process that has a deadline ends when its deadline comes.
-/

namespace QualityGate.Shell

open Host (FileTree Location Errno)

/-! ### The machine -/

/-- **Where a descriptor leads.** -/
inductive Stream where
  /-- Bytes gathered for whoever reads them. -/
  | sink (index : Nat)
  /-- Bytes to be read. -/
  | source (index : Nat)
  /-- The end of a file. -/
  | file (location : Location)
  /-- Nothing: what is written is lost and there is nothing to read. -/
  | nowhere
  deriving DecidableEq, Repr

/-- **A piece of what is gathered**: when it was written, and by which process. -/
structure Piece where
  time : Nat
  writer : Nat
  bytes : Bytes

/-- **What all processes share.** -/
structure Machine where
  files : FileTree
  /-- Nanoseconds since the start. -/
  clock : Nat := 0
  /-- What has been gathered, in pieces, the last of which comes first. -/
  sinks : Array (List Piece) := #[]
  /-- What is left to be read. -/
  sources : Array Bytes := #[]
  nextPid : Nat := 1000
  /-- Signals that were sent and not yet felt, by process. -/
  sent : List (Nat × Nat) := []
  /-- Whether a process outlived the wait for what it writes. -/
  held : Bool := false
  deriving Inhabited

/-- All bytes gathered by a sink, in the order of time. -/
def Machine.gathered (m : Machine) (index : Nat) : Bytes :=
  let pieces := ((m.sinks[index]?).getD []).reverse
  (pieces.mergeSort fun p q => p.time ≤ q.time).flatMap (·.bytes)

/-- What is gathered without what a process writes later. -/
def Machine.silenced (m : Machine) (pid : Nat) : Machine :=
  { m with sinks := m.sinks.map (·.filter fun p => p.writer ≠ pid ∨ p.time ≤ m.clock) }

/-! ### The process -/

/-- **A variable of a shell.** -/
structure Variable where
  /-- Its value; a variable may be marked before it has one. -/
  value : Option Bytes
  exported : Bool := false
  locked : Bool := false
  deriving DecidableEq, Repr

/-- **How a process ended.** -/
inductive Ending where
  | exited (status : Nat)
  | killed (signal : Nat)
  deriving DecidableEq, Repr

/-- The status by which a shell knows an ending. -/
def Ending.status : Ending → Nat
  | exited n => n
  | killed s => 128 + s

/-- **A process in the background**: when it ends, and how, unless it outlives the wait for it. -/
structure Job where
  pid : Nat
  finish : Nat
  ending : Option Ending
  /-- Whether its end was seen while another one was waited for. -/
  seen : Bool := false
  deriving DecidableEq, Repr

/-- The two families of shells. -/
inductive Dialect where
  | posix | bash
  deriving DecidableEq, Repr

/-- **A process that runs scripts.** -/
structure State where
  pid : Nat
  /-- The process that scripts call their own. -/
  mainPid : Nat
  /-- The processes above this one that still run. -/
  ancestors : List Nat := []
  dialect : Dialect := .posix
  /-- The name by which it was called. -/
  name : Bytes := []
  /-- The command at work, where complaints name it. -/
  label : Option Bytes := none
  line : Nat := 1
  args : List Bytes := []
  vars : List (Bytes × Variable) := []
  functions : List (Bytes × Script) := []
  cwd : Location
  streams : List (Nat × Stream) := []
  status : Nat := 0
  /-- The status of the last script whose output was taken. -/
  takenStatus : Nat := 0
  stopOnFailure : Bool := false
  unsetIsError : Bool := false
  /-- Whether commands are written to standard error before they run. -/
  traces : Bool := false
  /-- Whether patterns stand for themselves. -/
  keepsPatterns : Bool := false
  /-- Signals without effect. -/
  ignored : List Nat := []
  /-- Scripts to run on signals; number 0 stands for the end. -/
  handlers : List (Nat × Bytes) := []
  deadline : Option Nat := none
  /-- The deadline of the processes that this one starts. -/
  laterDeadline : Option Nat := none
  lastJob : Option Nat := none
  jobs : List Job := []
  /-- The loops around the command at work. -/
  loops : Nat := 0
  /-- The functions around the command at work. -/
  calls : Nat := 0
  /-- What the variables held that a function has made its own. -/
  covered : List (Bytes × Option Variable) := []

/-- **A process on its machine.** -/
structure Scene where
  shell : State
  machine : Machine

/-! ### Acts -/

/-- **How a script is left early.** -/
inductive Departure where
  /-- The process ends. -/
  | exit (status : Nat)
  /-- A function, or a script that was read in, ends. -/
  | leave (status : Nat)
  /-- So many loops end. -/
  | breakOut (loops : Nat)
  /-- So many loops but one end, and that one goes on. -/
  | goOn (loops : Nat)
  /-- The process dies of a signal. -/
  | killed (signal : Nat)
  /-- The deadline has come. -/
  | late
  deriving DecidableEq, Repr

/-- **What scripts are made of**: it changes the scene, and may leave early. -/
abbrev Act := ExceptT Departure (StateM Scene)

/-- What the process knows. -/
def theShell : Act State :=
  return (← get).shell

/-- What all share. -/
def theMachine : Act Machine :=
  return (← get).machine

/-- Changes the process. -/
def changeShell (f : State → State) : Act Unit :=
  modify fun s => { s with shell := f s.shell }

/-- Changes the machine. -/
def changeMachine (f : Machine → Machine) : Act Unit :=
  modify fun s => { s with machine := f s.machine }

/-- Sets the status of the last command. -/
def setStatus (n : Nat) : Act Unit :=
  changeShell fun sh => { sh with status := n }

/-! ### Time -/

/-- The time that a command of the shell itself takes. -/
def quickTime : Nat := 1000

/-- The time that it takes to start a process. -/
def startTime : Nat := 1000000

/-- **Lets time pass**, up to the deadline at most. -/
def spend (nanos : Nat) : Act Unit := do
  let s ← get
  let now := s.machine.clock + nanos
  match s.shell.deadline with
  | none => changeMachine fun m => { m with clock := now }
  | some d =>
    if now < d then changeMachine fun m => { m with clock := now }
    else
      changeMachine fun m => { m with clock := max m.clock d }
      throw .late

/-! ### Descriptors -/

/-- Where a descriptor leads, if it is open. -/
def stream? (fd : Nat) : Act (Option Stream) :=
  return (← theShell).streams.lookup fd

/-- Lets a process write to a stream. -/
def Machine.write (m : Machine) (writer : Nat) (bs : Bytes) : Stream → Machine
  | .sink i => { m with sinks := m.sinks.modify i (⟨m.clock, writer, bs⟩ :: ·) }
  | .file l =>
    match m.files.at? l with
    | some (.file data x) => { m with files := m.files.put l (.file (data ++ bs) x) }
    | _ => { m with files := m.files.put l (.file bs false) }
  | .source _ => m
  | .nowhere => m

/-- **Writes to a descriptor**; tells whether it is open. -/
def write (fd : Nat) (bs : Bytes) : Act Bool := do
  match ← stream? fd with
  | none => return false
  | some s =>
    let pid := (← theShell).pid
    changeMachine (·.write pid bs s)
    return true

/-- All that is left to be read from a descriptor; none if it is closed. -/
def readAll (fd : Nat) : Act (Option Bytes) := do
  match ← stream? fd with
  | none => return none
  | some (.source i) =>
    let bs := ((← theMachine).sources[i]?).getD []
    changeMachine fun m => { m with sources := m.sources.modify i fun _ => [] }
    return some bs
  | some _ => return some []

/-- The next line of a descriptor without its end, and whether it had one. -/
def readLineOf (fd : Nat) : Act (Bytes × Bool) := do
  match ← stream? fd with
  | some (.source i) =>
    let bs := ((← theMachine).sources[i]?).getD []
    let rest := bs.dropWhile (· ≠ lineFeed)
    changeMachine fun m => { m with sources := m.sources.modify i fun _ => rest.drop 1 }
    return (bs.takeWhile (· ≠ lineFeed), rest ≠ [])
  | _ => return ([], false)

/-! ### Complaints -/

/-- **Writes a complaint**, with the shell's name, the line, and the command at work in front. -/
def complain (message : Bytes) : Act Unit := do
  let sh ← theShell
  let line := match sh.dialect with
    | .posix => ": " ++ toString sh.line ++ ": "
    | .bash => ": line " ++ toString sh.line ++ ": "
  let label := match sh.label with
    | some l => l ++ Text.bytes ": "
    | none => []
  let _ ← write 2 (sh.name ++ Text.bytes line ++ label ++ message ++ [lineFeed])

/-- Writes a complaint after which the shell ends. -/
def giveUp {α : Type} (message : Bytes) : Act α := do
  complain message
  throw (.exit 2)

/-! ### Variables -/

/-- The entry of a variable changed, or added. -/
def changeVar (name : Bytes) (f : Option Variable → Variable) :
    List (Bytes × Variable) → List (Bytes × Variable)
  | [] => [(name, f none)]
  | (k, v) :: r => if k = name then (k, f (some v)) :: r else (k, v) :: changeVar name f r

/-- The value of a variable. -/
def State.value? (sh : State) (name : Bytes) : Option Bytes :=
  (sh.vars.lookup name).bind (·.value)

/-- **Assigns to a variable**, whose marks stay. -/
def assign (name value : Bytes) : Act Unit := do
  match (← theShell).vars.lookup name with
  | some ⟨_, _, true⟩ => giveUp (name ++ Text.bytes ": is read only")
  | _ =>
    let written := fun (v : Option Variable) =>
      ({ value := some value, exported := (v.map (·.exported)).getD false } : Variable)
    changeShell fun sh => { sh with vars := changeVar name written sh.vars }

/-- Marks a variable for export. -/
def markExported (name : Bytes) : Act Unit :=
  let marked := fun (v : Option Variable) => { v.getD ⟨none, true, false⟩ with exported := true }
  changeShell fun sh => { sh with vars := changeVar name marked sh.vars }

/-- Takes a variable away. -/
def unset (name : Bytes) : Act Unit := do
  match (← theShell).vars.lookup name with
  | some ⟨_, _, true⟩ => giveUp (name ++ Text.bytes ": is read only")
  | _ => changeShell fun sh => { sh with vars := sh.vars.filter fun p => p.1 ≠ name }

/-- **The environment of the programs that a shell starts.** -/
def State.environment (sh : State) : Environment :=
  Environment.ofPairs (sh.vars.filterMap fun p =>
    if p.2.exported then p.2.value.map fun v => (p.1, v) else none)

/-- The path of the working directory. -/
def State.workingPath (sh : State) : Bytes :=
  sh.cwd.path

/-! ### Processes -/

/-- **Runs an act in a process of its own**: what it does to the process is lost, what it does to
the machine stays. Signals without effect stay so, and handlers go. There is no ending if the
process outlives its deadline. -/
def fork? (act : Act Unit) : Act (Option Ending) := do
  spend startTime
  let before ← theShell
  changeMachine fun m => { m with nextPid := m.nextPid + 1 }
  let pid := (← theMachine).nextPid
  changeShell fun sh =>
    { sh with
      pid := pid, ancestors := sh.pid :: sh.ancestors, deadline := sh.laterDeadline
      handlers := [], jobs := [] }
  let s ← get
  let (result, s) := act.run s
  set { s with shell := before }
  match result with
  | .error .late =>
    changeMachine fun m => { m with held := true }
    return none
  | .error (.exit n) => return some (.exited (n % 256))
  | .error (.leave n) => return some (.exited (n % 256))
  | .error (.killed g) => return some (.killed g)
  | _ => return some (.exited (s.shell.status % 256))

/-- Runs an act in a process of its own and waits for its ending. -/
def fork (act : Act Unit) : Act Ending := do
  match ← fork? act with
  | none => throw .late
  | some e => spend 0; return e

/-! ### Signals -/

/-- Signals that have no effect unless one is asked for. -/
def harmless : List Nat := [17, 18, 23, 28]

/-- Signals that stop a process until it is woken. -/
def stopping : List Nat := [19, 20, 21, 22]

/-- Whether a process still runs. -/
def isAlive (pid : Nat) : Act Bool := do
  let sh ← theShell
  return pid = sh.pid ∨ pid ∈ sh.ancestors

/-- **Sends a signal** to a process that runs. -/
def send (pid signal : Nat) : Act Unit :=
  changeMachine fun m => { m with sent := m.sent ++ [(pid, signal)] }

/-- The job that a process is, while it runs. -/
def runningJob? (pid : Nat) : Act (Option Job) := do
  let s ← get
  return s.shell.jobs.find? fun j => j.pid = pid ∧ s.machine.clock < j.finish

/-- Sends a signal to a job, which ends unless the signal has no effect. -/
def endJob (pid signal : Nat) : Act Unit := do
  if signal ≠ 0 ∧ signal ∉ harmless ∧ signal ∉ stopping ∧ signal ∉ (← theShell).ignored then
    let now := (← theMachine).clock
    changeShell fun sh =>
      { sh with jobs := sh.jobs.map fun j =>
          if j.pid = pid then { j with finish := now, ending := some (.killed signal) } else j }
    changeMachine (·.silenced pid)

/-- The next signal for this process, taken from those sent. -/
def nextSignal : Act (Option Nat) := do
  let s ← get
  if s.machine.sent = [] then return none
  else
    match s.machine.sent.find? (·.1 = s.shell.pid) with
    | none => return none
    | some (pid, g) =>
      changeMachine fun m => { m with sent := m.sent.erase (pid, g) }
      return some g

end QualityGate.Shell
