import QualityGate.Shell.Utility
/-!
What running a script leans on: a runner for smaller scripts, the conditions under which one runs,
the signals that a process feels, and the notes that a shell takes of endings.
-/

namespace QualityGate.Shell

/-! ### Runners -/

/-- **Under what conditions a script runs**: whether its failure is being tested for, and whether
nothing follows it in its process. -/
structure Setting where
  tested : Bool := false
  last : Bool := false

/-- **What runs scripts.** -/
abbrev Runner := Setting → Script → Act Unit

/-- Runs an act and then another one, however the first one is left. -/
def ensure {α : Type} (body : Act α) (after : Act Unit) : Act α := do
  let s ← get
  let (result, s) := body.run s
  set s
  after
  match result with
  | .ok a => return a
  | .error d => throw d

/-- Waits until the deadline. -/
def hang : Act Unit := do
  spend Utility.forever
  throw .late

/-! ### Signals and endings -/

/-- What is said of a process that a signal has killed. -/
def deathNotices : List String :=
  ["Hangup", "Interrupt", "Quit", "Illegal instruction", "Trace/breakpoint trap", "Aborted",
   "Bus error", "Floating point exception", "Killed", "User defined signal 1",
   "Segmentation fault", "User defined signal 2", "Broken pipe", "Alarm clock", "Terminated",
   "Stack fault", "Child exited", "Continued", "Stopped (signal)", "Stopped", "Stopped (tty input)",
   "Stopped (tty output)", "Urgent I/O condition", "CPU time limit exceeded",
   "File size limit exceeded", "Virtual timer expired", "Profiling timer expired",
   "Window changed", "I/O possible", "Power failure", "Bad system call"]

/-- The notice for a signal. -/
def deathNotice (signal : Nat) : String :=
  match deathNotices[signal - 1]? with
  | some s => s
  | none => if 34 ≤ signal then "Real-time signal " ++ toString (signal - 34) else "Unknown signal"

/-- Says that a process was killed, if it was. -/
def notice (e : Ending) : Act Unit := do
  match e with
  | .killed g =>
    if (← theShell).dialect = .posix ∧ g ≠ 2 ∧ g ≠ 13 then
      let _ ← write 2 (Text.bytes (deathNotice g ++ "\n"))
  | .exited _ => return ()

/-- Takes note of how a process ended. -/
def settle (e : Ending) : Act Unit := do
  setStatus e.status
  notice e

/-- **Feels the signals sent to this process**: some have no effect, some run a handler, others kill. -/
def feel (run : Runner) : Nat → Act Unit
  | 0 => return ()
  | n + 1 => do
    match ← nextSignal with
    | none => return ()
    | some g =>
      let sh ← theShell
      if g = 9 then throw (.killed g)
      else if g = 0 ∨ g ∈ sh.ignored then feel run n
      else
        match sh.handlers.lookup g with
        | some text =>
          run {} (Script.ofBytes text)
          -- a handler leaves the status it found
          setStatus sh.status
          feel run n
        | none =>
          if g ∈ harmless then feel run n
          else if g ∈ stopping then hang
          else throw (.killed g)

/-- How many signals can be felt at once. -/
def signalBudget : Nat := 1000

/-- Leaves the shell after a failure that nothing tests for, if it is set to. -/
def stopIfFailed (st : Setting) : Act Unit := do
  let sh ← theShell
  if sh.status ≠ 0 ∧ sh.stopOnFailure ∧ !st.tested then throw (.exit sh.status)

/-! ### Ends -/

/-- Runs a shell's script to its end, and then the handler for the end. -/
def runToEnd (run : Runner) (body : Act Unit) : Act Unit := do
  let s ← get
  let (result, s) := body.run s
  set s
  match result with
  -- who is killed, or stopped at the end of its time, runs no handler
  | .error (.killed g) => throw (.killed g)
  | .error .late => throw .late
  | result =>
    let status := match result with
      | .error (.exit n) => n
      | .error (.leave n) => n
      | _ => s.shell.status
    match s.shell.handlers.lookup 0 with
    | none => throw (.exit status)
    | some text =>
      changeShell fun sh =>
        -- the handler is taken out first, so that it cannot start itself again
        { sh with status := status, handlers := sh.handlers.filter fun p => p.1 ≠ 0 }
      run {} (Script.ofBytes text)
      throw (.exit status)

/-- **Runs a script as a process of its own**, up to its end and the handler for it. -/
def forkScript (run : Runner) (st : Setting) (prepare : Act Unit) (s : Script) : Act (Option Ending) :=
  fork? do
    prepare
    runToEnd run (run { st with last := true } s)

/-- The ending of a process that was waited for. -/
def awaited (e : Option Ending) : Act Ending := do
  match e with
  | none => throw .late
  | some e => spend 0; return e

end QualityGate.Shell
