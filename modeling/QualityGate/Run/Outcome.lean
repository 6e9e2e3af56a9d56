import QualityGate.Plan.CommandLine
import QualityGate.Duration.Printer
import QualityGate.Run.Signal
/-!
How a tool ended: its exit code, the signal that killed it if one did, whether it ran out of time,
and what it wrote. A tool passed when it exited with zero of its own accord.
-/

namespace QualityGate

/-- The exit code of a tool that ran out of time. -/
def codeTimedOut : Int := 124

/-- **How a tool ended.** -/
structure Outcome where
  /-- Exit code; for a death by signal, 128 more than the signal. -/
  exitCode : Int := 0
  /-- The signal that killed the tool. -/
  signal : Option Int := none
  /-- What was kept back of its standard output. -/
  stdout : String := ""
  /-- What was kept back of its standard error. -/
  stderr : String := ""
  /-- Whether it was killed for running out of time. -/
  timedOut : Bool := false
  /-- How long it ran. -/
  elapsed : Duration := .zero
  deriving DecidableEq, Repr, Inhabited

namespace Outcome

/-- **Whether the tool passed.** -/
def passed (o : Outcome) : Bool :=
  o.exitCode = 0 && o.signal.isNone && !o.timedOut

/-- Both streams as one text, with a line feed between when neither is empty. -/
def combined (o : Outcome) : String :=
  if o.stderr = "" then o.stdout
  else if o.stdout = "" then o.stderr
  else o.stdout ++ "\n" ++ o.stderr

/-- **How the tool ended, in a sentence** for the report of a failure. -/
def describe (o : Outcome) (c : CommandLine) : String :=
  if o.timedOut then
    "Command '" ++ c.render ++ "' timed out after " ++ o.elapsed.print ++ "."
  else
    match o.signal with
    | some n =>
      match Signal.name? n with
      | some name => "Command '" ++ c.render ++ "' died with " ++ name ++ "."
      | none => "Command '" ++ c.render ++ "' died with unknown signal " ++ toString n ++ "."
    | none =>
      "Command '" ++ c.render ++ "' returned non-zero exit status " ++ toString o.exitCode ++ "."

theorem passed_iff (o : Outcome) :
    o.passed = true ↔ o.exitCode = 0 ∧ o.signal = none ∧ o.timedOut = false := by
  unfold passed
  cases o.signal <;> cases o.timedOut <;> simp

end Outcome
end QualityGate
