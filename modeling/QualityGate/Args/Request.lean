import QualityGate.Plan.Mode
import QualityGate.Text.Utf8
/-!
What a command line asks for. Without a command the pipeline is run. A run looks at its first argument
only, which selects the mode; whatever follows has no effect.
-/

namespace QualityGate

/-- **When colours are used.** -/
inductive ColourChoice where
  | auto | always | never
  deriving DecidableEq, Repr, Inhabited

/-- The choices in the order in which a message lists them. -/
def ColourChoice.listed : List ColourChoice := [always, auto, never]

/-- The word for a choice. -/
def ColourChoice.word : ColourChoice → String
  | auto => "auto"
  | always => "always"
  | never => "never"

/-- **The shells that completions exist for.** -/
inductive CompletionShell where
  | bash | elvish | fish | powershell | zsh
  deriving DecidableEq, Repr, Inhabited

/-- The shells in the order in which a message lists them. -/
def CompletionShell.listed : List CompletionShell := [bash, elvish, fish, powershell, zsh]

/-- The word for a shell. -/
def CompletionShell.word : CompletionShell → String
  | bash => "bash"
  | elvish => "elvish"
  | fish => "fish"
  | powershell => "powershell"
  | zsh => "zsh"

/-- **The arguments of a run.** -/
structure RunArgs where
  args : List String := []
  deriving DecidableEq, Repr, Inhabited

namespace RunArgs

/-- The mode that the first argument selects. -/
def mode (r : RunArgs) : Mode :=
  Mode.ofFirstArg r.args.head?

/-- The arguments without effect. -/
def ignored (r : RunArgs) : List String :=
  r.args.drop 1

end RunArgs

/-- **A command.** -/
inductive Command where
  | run (args : RunArgs)
  | list (check : Bool)
  | init (force : Bool)
  | validate
  | completions (shell : CompletionShell)
  deriving DecidableEq, Repr

/-- **What a command line asks for.** -/
structure Request where
  /-- The command; none runs the pipeline with `run`. -/
  command : Option Command := none
  /-- Arguments of the run when there is no command. -/
  run : RunArgs := {}
  verbose : Bool := false
  quiet : Bool := false
  colour : ColourChoice := .auto
  /-- Settings file to use. -/
  config : Option Bytes := none
  deriving DecidableEq, Repr, Inhabited

/-- The command with the default filled in. -/
def Request.effective (r : Request) : Command :=
  r.command.getD (.run r.run)

end QualityGate
