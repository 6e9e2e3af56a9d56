import QualityGate.Host.Lookup
import QualityGate.Run.Capture
import QualityGate.Run.Launch
import QualityGate.Run.Sequence
/-!
Performing steps by processes: a program is looked for from where the session stands, and a command
line is launched there. What happens on the way is logged.
-/

namespace QualityGate

open Console (Event Record Level)

/-! ### Outcomes -/

/-- Whether a process was killed, and by which signal. -/
def Shell.Ending.signal? : Shell.Ending → Option Int
  | .exited _ => none
  | .killed g => some g

/-- The exit code by which an ending is known. -/
def Shell.Ending.exitCode : Shell.Ending → Int
  | .exited n => n
  | .killed g => Signal.exitCode g

/-- **The outcome of a launched tool** whose streams were read as far as `c`. -/
def Landing.outcomeOf (l : Landing) (c : Capture) : Outcome :=
  let stdout := c.stdout.reader.text
  let stderr := c.stderr.reader.text
  match l.ending with
  | some e =>
    { exitCode := e.exitCode, signal := e.signal?, stdout, stderr, elapsed := l.elapsed }
  | none => { exitCode := codeTimedOut, stdout, stderr, timedOut := true, elapsed := l.elapsed }

/-- **The outcome of a launched tool**; what it wrote counts only if it was captured. -/
def Landing.outcome (l : Landing) (capture : Bool) : Outcome :=
  l.outcomeOf (Capture.drained capture l.stdout l.stderr)

/-! ### Log records -/

namespace Launched

/-- The part of the program that speaks about processes. -/
def target : String := "lint_pipeline::core::executor"

/-- A record about a command line. -/
def record (level : Level) (message : String) (c : CommandLine) (fields : List (String × String)) :
    Event :=
  .log { level, target, message, fields := ("command", c.render) :: fields }

/-- An optional value in a record. -/
def optional {α : Type} (f : α → String) : Option α → String
  | some a => "Some(" ++ f a ++ ")"
  | none => "None"

/-- The record about a text that was kept back, unless it is empty. -/
def kept (name : String) (c : CommandLine) (text : String) : List Event :=
  if text = "" then [] else [record .debug ("Captured " ++ name) c [(name, text)]]

/-- The records after a tool has ended. -/
def endRecords (c : CommandLine) (cond : Conditions) (l : Landing) (o : Outcome) : List Event :=
  if o.timedOut then
    record .warn "Command timed out" c [("timeout", optional Duration.compact cond.limit)] ::
      (if l.held ∧ cond.capture then [record .debug "Gave up draining output" c []] else [])
  else
    record .debug "Command finished" c
        [("exit_code", toString o.exitCode), ("signal", optional toString o.signal)] ::
      (kept "stdout" c o.stdout ++ kept "stderr" c o.stderr)

/-! ### Performing -/

/-- The launch of a command line under some conditions. -/
def launch (c : CommandLine) (cond : Conditions) : Launch :=
  { program := Text.bytes c.program, args := c.args.map fun a => Text.bytes a
    cwd := cond.cwd, env := cond.env, limit := cond.limit }

/-- What a look-up sees from where a process stands. -/
def viewpoint (s : Surroundings) : Host.Viewpoint :=
  ⟨s.files, s.cwd, s.env.get? (Text.bytes "HOME")⟩

/-- The directory in which a tool is to run, or else the working directory, if that is still there. -/
def origin? (s : Surroundings) (cond : Conditions) : Option Bytes :=
  cond.cwd <|> s.directory.toOption

/-- **The program that a tool would run as**, if there is one. -/
def locate (s : Surroundings) (program : Bytes) (cond : Conditions) : Option Bytes :=
  (origin? s cond).bind fun dir =>
    (viewpoint s).find? program dir ((cond.env.getD s.env).get? Environment.pathKey)

/-- **Runs a command line as a process.** -/
def execute (launcher : Launcher) (c : CommandLine) (cond : Conditions) (s : Surroundings) :
    Except Failure Outcome × List Event × Surroundings :=
  let started := record .debug "Running command" c []
  match launcher (launch c cond) s with
  | .error fault => (.error (.io ("spawn " ++ c.program) fault), [started], s)
  | .ok l =>
    let o := l.outcome cond.capture
    let written := if cond.capture then [] else [Event.toolOut l.stdout, Event.toolErr l.stderr]
    (.ok o, started :: written ++ endRecords c cond l o, { s with files := l.files })

/-- **What performs steps as processes.** -/
def performer (launcher : Launcher) : Performer Surroundings where
  available program cond s := ((locate s (Text.bytes program) cond).isSome, s)
  execute := execute launcher

end Launched
end QualityGate
