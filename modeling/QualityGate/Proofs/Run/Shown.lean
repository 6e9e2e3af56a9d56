import QualityGate.Proofs.Run.Announced
/-!
## What a run shows of its steps

On standard error the program shows lines of its own beside what the tools write. About each executed
step they say the same: its command line, unless output is kept back, and how it went.

* `performFrom_errLines`: the lines of a sequence of steps go with its calls.
* `Course.performs`: along a course these are the lines about the performed steps, and at most one
  more, which announces a command line that was not performed.
* `Pipeline.run_performs`: both for a run of the pipeline.
-/

namespace QualityGate

open Console (Event plain inColour)

variable {σ : Type}

/-! ### Lines -/

/-- The line that announces a command line, unless output is kept back. -/
def announcedLines (capture : Bool) (c : CommandLine) : List String :=
  if capture then [] else ["• " ++ c.render]

/-- What stands in brackets behind the name of a tool that did not pass. -/
def Outcome.mark (o : Outcome) : String :=
  if o.timedOut then "timed out" else "exit " ++ toString o.exitCode

/-- The line that says how a tool went. -/
def verdictLine (tool : Tool) (o : Outcome) : String :=
  if o.passed then "✓ " ++ tool.name else "✗ " ++ tool.name ++ " (" ++ o.mark ++ ")"

/-- **The lines about a step.** -/
def Step.lines (capture : Bool) (step : Step) : List String :=
  announcedLines capture step.commandLine ++ [verdictLine step.tool step.outcome]

theorem errLines_announcement (capture : Bool) (shown : List Event) (c : CommandLine) :
    errLines (if capture then shown else shown ++ [announcement c]) =
      errLines shown ++ announcedLines capture c := by
  cases capture with
  | true => simp [announcedLines]
  | false =>
    simp [announcedLines, announcement, Console.render_false, inColour, plain, Console.dim, String.join]

theorem errLines_verdict (tool : Tool) (o : Outcome) :
    errLines [verdict tool o] = [verdictLine tool o] := by
  unfold verdict verdictLine Outcome.mark
  split
  · simp [Console.render_false, inColour, plain, String.join, ← String.toList_inj]
  · split
    · simp [Console.render_false, inColour, plain, String.join, ← String.toList_inj]
    · simp [Console.render_false, inColour, plain, String.join, ← String.toList_inj]

/-! ### Along the calls -/

/-- **The lines that go with some calls**, made for the steps of a plan. -/
def linesAlong (capture : Bool) : List (Tool × CommandLine) → List Call → List String
  | (t, c) :: rest, .lookup _ _ true :: .execution _ _ answer :: log =>
    announcedLines capture c ++
      match answer with
      | .ok o => verdictLine t o :: linesAlong capture rest log
      | .error _ => []
  | _, _ => []

/-- **The lines of a sequence are those that go with its calls.** -/
theorem performFrom_errLines {p : Performer σ} (hp : p.Silent) (cond : Conditions)
    (plan : List (Tool × CommandLine)) (done : List Step) (shown : List Event) (s : σ)
    (log : List Call) :
    ∃ more, (performFrom p.recorded cond done shown (s, log) plan).state.2 = log ++ more ∧
      errLines (performFrom p.recorded cond done shown (s, log) plan).events =
        errLines shown ++ linesAlong cond.capture plan more := by
  -- what was done, shown and written down before grows with each step
  induction plan generalizing done shown s log with
  | nil => exact ⟨[], by simp [performFrom, linesAlong]⟩
  | cons step rest ih =>
    obtain ⟨t, c⟩ := step
    rcases hfound : p.available c.program cond s with ⟨found, s1⟩
    cases found with
    | false =>
      exact ⟨[.lookup c.program cond false], by
        simp [performFrom, Performer.available_recorded, hfound, linesAlong]⟩
    | true =>
      have hsilent := hp c cond s1
      rcases hanswer : p.execute c cond s1 with ⟨answer, events, s2⟩
      rw [hanswer] at hsilent
      cases answer with
      | error f =>
        exact ⟨[.lookup c.program cond true, .execution c cond (.error f)], by
          simp [performFrom, Performer.available_recorded, Performer.execute_recorded, hfound, hanswer,
            linesAlong, errLines_announcement, hsilent]⟩
      | ok o =>
        cases hpassed : o.passed with
        | false =>
          exact ⟨[.lookup c.program cond true, .execution c cond (.ok o)], by
            simp [performFrom, Performer.available_recorded, Performer.execute_recorded, hfound,
              hanswer, hpassed, linesAlong, errLines_announcement, errLines_verdict, hsilent]⟩
        | true =>
          obtain ⟨more, hlog, hlines⟩ := ih (done ++ [⟨t, c, o⟩])
            ((if cond.capture then shown else shown ++ [announcement c]) ++ events ++ [verdict t o])
            s2 (log ++ [.lookup c.program cond true, .execution c cond (.ok o)])
          refine ⟨.lookup c.program cond true :: .execution c cond (.ok o) :: more, ?_, ?_⟩
          · simp only [performFrom, Performer.available_recorded, Performer.execute_recorded, hfound,
              hanswer, hpassed, ↓reduceIte]
            simpa using hlog
          · simp only [performFrom, Performer.available_recorded, Performer.execute_recorded, hfound,
              hanswer, hpassed, ↓reduceIte]
            simpa [linesAlong, errLines_announcement, errLines_verdict, hsilent] using hlines

theorem perform_errLines {p : Performer σ} (hp : p.Silent) (cond : Conditions)
    (plan : List (Tool × CommandLine)) (s : σ) :
    ∃ log, Course cond plan log (perform p cond plan s).result ∧
      perform p.recorded cond plan (s, []) =
        ⟨(perform p cond plan s).result, (perform p cond plan s).events,
          (perform p cond plan s).state, log⟩ ∧
      errLines (perform p cond plan s).events = linesAlong cond.capture plan log := by
  obtain ⟨log, hcourse, hrecorded⟩ := perform_recorded p cond plan s
  obtain ⟨more, hmore, hlines⟩ := performFrom_errLines hp cond plan [] [] s []
  rw [← perform, hrecorded, List.nil_append] at hmore
  rw [← perform, hrecorded, errLines_nil, List.nil_append, ← hmore] at hlines
  exact ⟨log, hcourse, hrecorded, hlines⟩

/-! ### Performed steps -/

/-- The command line that a call performed, with its outcome. -/
def Call.performed? : Call → Option (CommandLine × Outcome)
  | execution c _ (.ok o) => some (c, o)
  | _ => none

/-- What was performed in a step. -/
def Step.performed (step : Step) : CommandLine × Outcome :=
  (step.commandLine, step.outcome)

/-- **What a course performs and shows.** Its steps are the first ones of the plan, and the lines are
those about them. A course that fails performs only steps that pass, and may announce one more. -/
theorem Course.performs {cond : Conditions} {plan : List (Tool × CommandLine)} {log : List Call}
    {result : Except Failure (List Step)} (h : Course cond plan log result) (capture : Bool) :
    ∃ steps tail, steps.map Step.planned <+: plan ∧
      log.filterMap Call.performed? = steps.map Step.performed ∧
      linesAlong capture plan log = steps.flatMap (Step.lines capture) ++ tail ∧
      (result = .ok steps ∧ tail = [] ∨
        (∃ f, result = .error f) ∧ (∀ step ∈ steps, step.passed = true) ∧
          ∀ line ∈ tail, ∃ c : CommandLine, line = "• " ++ c.render) := by
  induction h with
  | complete => exact ⟨[], [], List.nil_prefix, rfl, rfl, Or.inl ⟨rfl, rfl⟩⟩
  | missing t c rest =>
    exact ⟨[], [], List.nil_prefix, rfl, rfl, Or.inr ⟨⟨_, rfl⟩, by simp, by simp⟩⟩
  -- the announcement is shown before the execution, so its line may be left over
  | faulted t c rest f =>
    refine ⟨[], announcedLines capture c, List.nil_prefix, rfl, ?_, Or.inr ⟨⟨f, rfl⟩, by simp, ?_⟩⟩
    · simp [linesAlong]
    · intro line hline
      cases capture with
      | true => simp [announcedLines] at hline
      | false => exact ⟨c, by simpa [announcedLines] using hline⟩
  | stopped t c rest o ho =>
    refine ⟨[⟨t, c, o⟩], [], ⟨rest, rfl⟩, rfl, ?_, Or.inl ⟨rfl, rfl⟩⟩
    cases rest <;> simp [linesAlong, Step.lines]
  | @passed t c o ho rest log result hrest ih =>
    obtain ⟨steps, tail, hprefix, hperformed, hlines, hend⟩ := ih
    refine ⟨⟨t, c, o⟩ :: steps, tail, List.cons_prefix_cons.mpr ⟨rfl, hprefix⟩, ?_, ?_, ?_⟩
    · simp [List.filterMap_cons, Call.performed?, Step.performed, hperformed]
    · simp [linesAlong, Step.lines, hlines]
    · rcases hend with ⟨rfl, htail⟩ | ⟨⟨f, rfl⟩, hpassed, htail⟩
      · exact Or.inl ⟨rfl, htail⟩
      · exact Or.inr ⟨⟨f, rfl⟩, List.forall_mem_cons.mpr ⟨ho, hpassed⟩, htail⟩

/-! ### Runs -/

namespace Pipeline

/-- **The steps of a run.** They are the first ones of its plan, and the lines of the run are those about
them. The run gives them as its result, or it fails when all of them have passed. -/
theorem run_performs (launcher : Launcher) {settings : Settings} {limit : Option Duration}
    (hlimit : settings.limit = .ok limit) (mode : Mode) (s : Surroundings) :
    let r := run launcher settings mode s
    let capture := settings.pipeline.captureOutput
    ∃ steps tail, steps.map Step.planned <+: settings.plan mode ∧
      (calls launcher settings mode s).filterMap Call.performed? = steps.map Step.performed ∧
      errLines r.events = steps.flatMap (Step.lines capture) ++ tail ∧
      ((∃ summary cond, r.summary = .ok summary ∧ summary.steps = steps ∧ tail = [] ∧
          Finished cond (settings.plan mode) (calls launcher settings mode s) steps) ∨
        (∃ f, r.summary = .error (.failed f)) ∧ (∀ step ∈ steps, step.passed = true) ∧
          ∀ line ∈ tail, ∃ c : CommandLine, line = "• " ++ c.render) := by
  intro r capture
  obtain ⟨log, hcourse, hrecorded, hlines⟩ := perform_errLines (Launched.silent launcher)
    (activeConditions launcher settings limit s) (settings.plan mode)
    (activeSurroundings launcher settings s)
  have hlog : calls launcher settings mode s = log := (calls_of_limit launcher hlimit mode s).trans
    (congrArg (fun ran => ran.state.2) hrecorded)
  have hrun : r = _ := run_of_limit launcher hlimit mode s
  -- the activation shows no lines
  have hevents : errLines r.events = linesAlong capture (settings.plan mode) log := by
    rw [hrun, errLines_append, activation, errLines_activate, List.nil_append]
    exact hlines
  obtain ⟨steps, tail, hprefix, hperformed, hshown, hend⟩ := hcourse.performs capture
  refine ⟨steps, tail, hprefix, hlog ▸ hperformed, hevents.trans hshown, ?_⟩
  rcases hend with ⟨hok, htail⟩ | ⟨⟨f, hf⟩, hpassed, htail⟩
  · rw [hok] at hcourse hrun
    exact Or.inl ⟨_, _, congrArg Result.summary hrun, rfl, htail, hlog ▸ hcourse.finished⟩
  · rw [hf] at hrun
    exact Or.inr ⟨⟨f, congrArg Result.summary hrun⟩, hpassed, htail⟩

end Pipeline
end QualityGate
