import QualityGate.Run.Summary
import QualityGate.Console.Event
import QualityGate.Environment.Basic
import QualityGate.Failure
/-!
Performing the steps of a plan, one after the other, up to the first that does not pass. What looks
for programs and runs them is a parameter with a state of its own, so the sequence is the same over
real processes and over any other answers.

Before each step its program is looked for; a program that is missing, and a tool that cannot be
started, end the sequence with a failure. The performed steps and the events shown are kept in order.
-/

namespace QualityGate

open Console (Event)

/-! ### What performs steps -/

/-- **Under what conditions steps are performed.** -/
structure Conditions where
  /-- Directory in which the tools run; unset means this process's own. -/
  cwd : Option Bytes := none
  /-- Time limit of one tool. -/
  limit : Option Duration := none
  /-- Environment of the tools; unset means this process's own. -/
  env : Option Environment := none
  /-- Whether what tools write is kept back. -/
  capture : Bool := false

/-- **What looks for programs and runs them**, over states of type `σ`. -/
structure Performer (σ : Type) where
  /-- Whether a program can be found. -/
  available : String → Conditions → σ → Bool × σ
  /-- Runs a command line to its end, showing some events. -/
  execute : CommandLine → Conditions → σ → Except Failure Outcome × List Event × σ

/-! ### Status lines -/

/-- The line that announces a step whose output is not kept back. -/
def announcement (c : CommandLine) : Event :=
  .err [Console.inColour .cyan "•", Console.plain " ", Console.dim c.render]

/-- **The line that says how a step went.** -/
def verdict (tool : Tool) (o : Outcome) : Event :=
  if o.passed then .err [Console.inColour .green "✓", Console.plain (" " ++ tool.name)]
  else if o.timedOut then
    .err [Console.inColour .red "✗", Console.plain (" " ++ tool.name ++ " (timed out)")]
  else
    .err [Console.inColour .red "✗",
      Console.plain (" " ++ tool.name ++ " (exit " ++ toString o.exitCode ++ ")")]

/-! ### The sequence -/

/-- **What a sequence of steps comes to.** -/
structure Ran (σ : Type) where
  /-- The performed steps, or what ended the sequence. -/
  result : Except Failure (List Step)
  events : List Event
  state : σ

/-- Performs the steps of a plan; `done` holds those performed before, `shown` the events so far. -/
def performFrom (p : Performer σ) (cond : Conditions) (done : List Step) (shown : List Event)
    (s : σ) : List (Tool × CommandLine) → Ran σ
  | [] => ⟨.ok done, shown, s⟩
  | (tool, c) :: rest =>
    match p.available c.program cond s with
    | (false, s) => ⟨.error (.toolMissing c.program), shown, s⟩
    | (true, s) =>
      let shown := if cond.capture then shown else shown ++ [announcement c]
      match p.execute c cond s with
      | (.error f, events, s) => ⟨.error f, shown ++ events, s⟩
      | (.ok o, events, s) =>
        let done := done ++ [⟨tool, c, o⟩]
        let shown := shown ++ events ++ [verdict tool o]
        if o.passed then performFrom p cond done shown s rest else ⟨.ok done, shown, s⟩

/-- **Performs the steps of a plan** up to the first that does not pass. -/
def perform (p : Performer σ) (cond : Conditions) (plan : List (Tool × CommandLine)) (s : σ) : Ran σ :=
  performFrom p cond [] [] s plan

end QualityGate
