import QualityGate.Plan.Tool
import QualityGate.Run.Outcome
/-!
The result of a run: the steps that were performed, and what they come to. The first step that did
not pass decides the exit code of the run.
-/

namespace QualityGate

/-- **A performed step.** -/
structure Step where
  tool : Tool
  commandLine : CommandLine
  outcome : Outcome
  deriving DecidableEq, Repr, Inhabited

/-- Whether the step's tool passed. -/
def Step.passed (s : Step) : Bool :=
  s.outcome.passed

/-- **The result of a run.** -/
structure Summary where
  mode : Mode
  /-- The performed steps in order; those after a failure are missing. -/
  steps : List Step
  /-- Whether a virtual environment was activated. -/
  activated : Bool
  elapsed : Duration := .zero
  deriving DecidableEq, Repr, Inhabited

namespace Summary

/-- The first step that did not pass. -/
def failedStep? (s : Summary) : Option Step :=
  s.steps.find? fun step => !step.passed

theorem failedStep?_eq_none_iff {s : Summary} :
    s.failedStep? = none ↔ ∀ step ∈ s.steps, step.passed = true := by
  simp [failedStep?, List.find?_eq_none]

/-- The number of steps that passed. -/
def passedCount (s : Summary) : Nat :=
  s.steps.countP Step.passed

/-- **The exit code of a run**: zero if every step passed, else that of the first one that did not,
or 1 where that step's own code is zero. -/
def exitCode (s : Summary) : Int :=
  match s.failedStep? with
  | some step => if step.outcome.exitCode ≠ 0 then step.outcome.exitCode else 1
  | none => 0

/-- **The exit code is zero exactly when every step passed.** -/
theorem exitCode_eq_zero_iff (s : Summary) :
    s.exitCode = 0 ↔ ∀ step ∈ s.steps, step.passed = true := by
  rw [← failedStep?_eq_none_iff]
  unfold exitCode
  cases s.failedStep? with
  | none => simp
  | some step =>
    by_cases h : step.outcome.exitCode = 0
    · simp [h]
    · simp [h]

/-- Whether no step failed. -/
def succeeded (s : Summary) : Bool :=
  s.exitCode = 0

end Summary

/-- **The status byte of a process** that ends with an exit code; codes that fit no byte become 1. -/
def statusByte (code : Int) : Nat :=
  if 0 ≤ code ∧ code ≤ 255 then code.toNat else 1

end QualityGate
