import QualityGate.Plan.Mode
import QualityGate.Plan.CommandLine
import QualityGate.Settings.Basic
/-!
The four tools and the command line of each. Their order is fixed: imports are sorted before the
formatter sees them, and the two checkers read formatted code. Only the formatter's command line
depends on the mode.
-/

namespace QualityGate

/-- **A step of the pipeline.** -/
inductive Tool where
  /-- Import sorter. -/
  | isort
  /-- Code formatter. -/
  | black
  /-- Style checker. -/
  | flake8
  /-- Static type checker. -/
  | mypy
  deriving DecidableEq, Repr, Inhabited

namespace Tool

/-- **The tools in the order in which they run.** -/
def all : List Tool := [isort, black, flake8, mypy]

theorem mem_all (t : Tool) : t ∈ all := by cases t <;> decide

/-- A tool's name, which is also its program unless the settings name another. -/
def name : Tool → String
  | isort => "isort"
  | black => "black"
  | flake8 => "flake8"
  | mypy => "mypy"

/-- What the step does. -/
def description : Tool → String
  | isort => "Sort imports"
  | black => "Format code"
  | flake8 => "Check style"
  | mypy => "Check types"

/-! ### Command lines -/

/-- The import sorter's command line. -/
def isortLine (t : IsortTable) : CommandLine :=
  (((CommandLine.mk (t.overrides.programOr isort.name) []).push "--settings-path").push
    t.settingsPath).append t.overrides.extraArgs |>.push t.target

/-- The formatter's arguments before the extra ones. -/
def blackFlags (t : BlackTable) (mode : Mode) : List String :=
  ["--line-length", toString t.lineLength.toNat] ++
  (if t.skipStringNormalization then ["--skip-string-normalization"] else []) ++
  (if mode.isCheck then [Mode.checkFlag] else [])

/-- The formatter's command line. -/
def blackLine (t : BlackTable) (mode : Mode) : CommandLine :=
  ((CommandLine.mk (t.overrides.programOr black.name) []).append (blackFlags t mode)).append
    t.overrides.extraArgs |>.push t.target

/-- The style checker's command line. -/
def flake8Line (t : Flake8Table) : CommandLine :=
  (((CommandLine.mk (t.overrides.programOr flake8.name) []).push "--config").push t.config).append
    t.overrides.extraArgs

/-- The type checker's command line. -/
def mypyLine (t : MypyTable) : CommandLine :=
  ((CommandLine.mk (t.overrides.programOr mypy.name) []).append t.overrides.extraArgs).push t.target

/-- **The command line of a tool.** -/
def commandLine (t : Tool) (s : Settings) (mode : Mode) : CommandLine :=
  match t with
  | isort => isortLine s.isort
  | black => blackLine s.black mode
  | flake8 => flake8Line s.flake8
  | mypy => mypyLine s.mypy

end Tool

/-- **The steps that a run performs**, each tool with its command line. -/
def Settings.plan (s : Settings) (mode : Mode) : List (Tool × CommandLine) :=
  Tool.all.map fun t => (t, t.commandLine s mode)

/-- Modes differ in the formatter's command line only. -/
theorem Tool.commandLine_mode (t : Tool) (h : t ≠ .black) (s : Settings) (m n : Mode) :
    t.commandLine s m = t.commandLine s n := by
  cases t <;> first | rfl | exact absurd rfl h

end QualityGate
