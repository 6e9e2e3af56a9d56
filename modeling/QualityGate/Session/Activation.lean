import QualityGate.Run.Launched
import QualityGate.Text.Blank
/-!
Activation of a virtual environment. Its script only makes sense inside a shell, so a shell reads it
in and then lists its environment, which becomes that of the tools. A script that is missing is
normal; one that cannot be read in is replaced by the standard layout of virtual environments.
-/

namespace QualityGate

open Console (Event)

namespace Activation

/-! ### Asking a shell -/

/-- What the shell runs: it reads the script in, whose output goes to standard error, and then lists
its environment. -/
def request : String := ". \x22$1\x22 1>&2 && exec env -0"

/-- The launch of the shell in a directory. -/
def launch (root script : Bytes) (shell : String) : Launch :=
  { program := Text.bytes shell
    args := [Text.bytes "-c", Text.bytes request, Text.bytes shell, script]
    cwd := some root }

/-- How a shell ended, in words. -/
def endingText : Shell.Ending → String
  | .exited n => "exit status: " ++ toString n
  | .killed g =>
    "signal: " ++ toString g ++ ((Signal.name? g).map fun n => " (" ++ n ++ ")").getD ""

/-- **What a shell answers**: the environment that it listed, or why there is none. -/
def answer (shell : String) : Except IoFault Landing → Except String Environment
  | .error fault => .error ("failed to run " ++ shell ++ ": " ++ fault.text)
  | .ok l =>
    let ending := l.ending.getD (.killed 9)
    if ending = .exited 0 then
      match Environment.parse? l.stdout with
      | some env => .ok env
      | none => .error "activation produced no environment"
    else
      .error (shell ++ " exited with " ++ endingText ending ++ ": " ++
        String.ofList (Text.trim (Text.lossy l.stderr).toList))

/-! ### The standard layout -/

/-- The directory of the virtual environment that a script belongs to: two levels up. -/
def venvOf (script : Bytes) : Bytes :=
  ((Host.Path.parent? script).bind Host.Path.parent?).getD script

/-! ### Activating -/

/-- The part of the program that speaks about activation. -/
def target : String := "lint_pipeline::core::activation"

/-- The record about a script that is not there. -/
def missingEvent (script : Bytes) : Event :=
  .log { level := .debug, target, message := "No activation script, using current environment"
         fields := [("path", Text.lossy script)] }

/-- The record about a script that was read in. -/
def sourcedEvent (script : Bytes) (env : Environment) : Event :=
  .log { level := .debug, target, message := "Sourced activation script"
         fields := [("path", Text.lossy script), ("vars", toString env.entries.length)] }

/-- The record about a script that could not be read in. -/
def fallbackEvent (script venv : Bytes) (reason : String) : Event :=
  .log { level := .warn, target
         message := "Could not source activation script, falling back to venv layout"
         fields := [("path", Text.lossy script), ("venv", Text.lossy venv), ("reason", reason)] }

end Activation

/-- **What activation comes to**: the environment of the tools, if there was anything to activate. -/
structure Activated where
  env : Option Environment
  events : List Event
  /-- The files after the shell has run. -/
  files : Host.FileTree

/-- **Activates the virtual environment** whose script stands at a path seen from a root. -/
def activate (launcher : Launcher) (s : Surroundings) (root relative : Bytes) (shell : String) :
    Activated :=
  let script := Host.Path.join root relative
  if s.files.isFile s.cwd script then
    let landed := launcher (Activation.launch root script shell) s
    let files := match landed with
      | .ok l => l.files
      | .error _ => s.files
    match Activation.answer shell landed with
    | .ok env => ⟨some env, [Activation.sourcedEvent script env], files⟩
    | .error reason =>
      let venv := Activation.venvOf script
      ⟨some (s.env.inVenv venv), [Activation.fallbackEvent script venv reason], files⟩
  else ⟨none, [Activation.missingEvent script], s.files⟩

end QualityGate
