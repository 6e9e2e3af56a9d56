/-!
The settings of the pipeline: one table for the run as a whole and one for each tool. Every setting
has a default, and the defaults describe the standard pipeline.
-/

namespace QualityGate

/-- **Settings of the run as a whole.** -/
structure PipelineTable where
  /-- Activation script, relative to the project root. -/
  activate : String := "venv/bin/activate"
  /-- Shell that sources the activation script. -/
  shell : String := "sh"
  /-- Time limit of one tool; unset waits without end. -/
  timeout : Option String := none
  /-- Whether tool output is kept back and shown only on failure. -/
  captureOutput : Bool := false
  deriving DecidableEq, Repr, Inhabited

/-- **What every tool's table may override.** -/
structure Overrides where
  /-- Program to run in place of the tool's own name. -/
  program : Option String := none
  /-- Arguments placed before the target. -/
  extraArgs : List String := []
  deriving DecidableEq, Repr, Inhabited

/-- The program to run when the tool's own name is `name`. -/
def Overrides.programOr (o : Overrides) (name : String) : String :=
  o.program.getD name

/-- **Settings of the import sorter.** -/
structure IsortTable where
  settingsPath : String := ".isort.cfg"
  target : String := "."
  overrides : Overrides := {}
  deriving DecidableEq, Repr, Inhabited

/-- **Settings of the formatter.** -/
structure BlackTable where
  lineLength : UInt32 := 120
  skipStringNormalization : Bool := true
  target : String := "."
  overrides : Overrides := {}
  deriving DecidableEq, Repr, Inhabited

/-- **Settings of the style checker.** -/
structure Flake8Table where
  config : String := ".flake8"
  overrides : Overrides := {}
  deriving DecidableEq, Repr, Inhabited

/-- **Settings of the type checker.** -/
structure MypyTable where
  target : String := "."
  overrides : Overrides := {}
  deriving DecidableEq, Repr, Inhabited

/-- **All settings.** -/
structure Settings where
  pipeline : PipelineTable := {}
  isort : IsortTable := {}
  black : BlackTable := {}
  flake8 : Flake8Table := {}
  mypy : MypyTable := {}
  deriving DecidableEq, Repr, Inhabited

end QualityGate
