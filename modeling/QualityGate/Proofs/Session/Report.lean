import QualityGate.Proofs.Run.Shown
import QualityGate.Proofs.Run.Summary
import QualityGate.Proofs.Session.Excerpt
import QualityGate.Proofs.Session.ExitStatus
import QualityGate.Proofs.Session.Listing
/-!
## The report of a run

Three places speak about one outcome: the line behind each step, the lines that close the run, and the
status of the process.

* `Outcome.Real`: the outcomes that processes have.
* `Reported`: the status, the mark and the sentence that go with the outcome of a failed tool.
* `told?`: what a line tells about the tools.
* `Session.run_reports`: the lines of a run and its status agree.
-/

namespace QualityGate

open Console (Event plain)

/-! ### Outcomes of processes -/

/-- **A launcher whose processes end as processes do**: with a code that fits a byte, by a signal, or at
their time limit. -/
def Launcher.Proper (launcher : Launcher) : Prop :=
  ∀ l s landing, launcher l s = .ok landing → ∃ fate : Fate, fate.ending? = some landing.ending

/-- **The outcomes of processes.** -/
inductive Outcome.Real (o : Outcome) : Prop where
  | exited (code : UInt8) (hcode : o.exitCode = code.toNat) (hsignal : o.signal = none)
      (htime : o.timedOut = false)
  | killed (n : ℕ) (one_le : 1 ≤ n) (le : n ≤ 127) (hcode : o.exitCode = 128 + n)
      (hsignal : o.signal = some (n : Int)) (htime : o.timedOut = false)
  | timedOut (hcode : o.exitCode = 124) (hsignal : o.signal = none) (htime : o.timedOut = true)

theorem Landing.real_outcome {l : Landing} {fate : Fate} (h : fate.ending? = some l.ending)
    (capture : Bool) : (l.outcome capture).Real := by
  unfold outcome outcomeOf
  cases fate with
  | missing => cases h
  | unstartable fault => cases h
  | exited code =>
    rw [← Option.some.inj h]
    exact .exited code rfl rfl rfl
  | killed n one_le le =>
    rw [← Option.some.inj h]
    exact .killed n one_le le rfl rfl rfl
  | timedOut =>
    rw [← Option.some.inj h]
    exact .timedOut rfl rfl rfl

/-- The launcher of a rehearsal lets every tool end as a process does. -/
theorem Rehearsal.proper_launcher (fates : Tool → Fate) : (launcher fates).Proper := by
  intro l s landing hlaunch
  unfold launcher at hlaunch
  split at hlaunch
  · cases hlaunch
  · rename_i t _
    generalize fates t = fate at hlaunch
    cases fate with
    -- a missing tool is never started; the launcher answers all the same
    | missing =>
      cases hlaunch
      exact ⟨.timedOut, rfl⟩
    | unstartable fault => cases hlaunch
    | exited code =>
      cases hlaunch
      exact ⟨.exited code, rfl⟩
    | killed n one_le le =>
      cases hlaunch
      exact ⟨.killed n one_le le, rfl⟩
    | timedOut =>
      cases hlaunch
      exact ⟨.timedOut, rfl⟩

/-- **What is said about the outcome of a failed tool**: the status of the process, the mark behind the
tool's name, and how its command line ended. -/
inductive Reported (o : Outcome) : ℕ → String → String → Prop where
  | timedOut (htime : o.timedOut = true) (hsignal : o.signal = none) :
      Reported o 124 "timed out" ("timed out after " ++ o.elapsed.print)
  | died (n : ℕ) (htime : o.timedOut = false) (hsignal : o.signal = some (n : Int)) :
      Reported o (128 + n) ("exit " ++ toString (128 + n))
        ("died with " ++ (Signal.name? n).getD ("unknown signal " ++ toString n))
  | returned (code : ℕ) (htime : o.timedOut = false) (hsignal : o.signal = none) (hne : code ≠ 0) :
      Reported o code ("exit " ++ toString code) ("returned non-zero exit status " ++ toString code)

namespace Reported

variable {o : Outcome} {status : ℕ} {mark how : String}

theorem status_ne_zero (h : Reported o status mark how) : status ≠ 0 := by
  cases h with
  | timedOut => decide
  | died n => omega
  | returned _ _ _ hne => exact hne

theorem words_iff (h : Reported o status mark how) :
    ("timed out".toList <+: how.toList ↔ o.timedOut = true) ∧
      ("died with".toList <+: how.toList ↔ ∃ n : ℕ, o.signal = some (n : Int) ∧ status = 128 + n) ∧
      ("returned non-zero exit status".toList <+: how.toList ↔
        o.timedOut = false ∧ o.signal = none) := by
  cases h with
  | timedOut htime hsignal => simp [htime, hsignal]
  | died n htime hsignal => simp [htime, hsignal]
  | returned code htime hsignal hne => simp [htime, hsignal]

end Reported

/-- **A failed process is reported** with its code as the status, and described with the same words. -/
theorem Outcome.Real.reported {o : Outcome} (h : o.Real) (hfailed : o.passed = false) :
    ∃ how, Reported o (statusByte o.exitCode) o.mark how ∧
      ∀ c, o.describe c = "Command '" ++ c.render ++ "' " ++ how ++ "." := by
  -- the status looks at the code alone, the mark at the time first, the sentence at time and signal
  cases h with
  | exited code hcode hsignal htime =>
    have hlt := code.toNat_lt
    have hne : code.toNat ≠ 0 := by
      intro hzero
      rw [o.passed_iff.mpr ⟨by rw [hcode, hzero]; rfl, hsignal, htime⟩] at hfailed
      cases hfailed
    have hbyte : statusByte o.exitCode = code.toNat := by
      rw [hcode, statusByte, if_pos (by omega), Int.toNat_natCast]
    have hmark : o.mark = "exit " ++ toString code.toNat := by
      rw [mark, htime, hcode]
      rfl
    rw [hbyte, hmark]
    refine ⟨_, .returned code.toNat htime hsignal hne, fun c => ?_⟩
    have hdigits : (code.toNat : Int).repr = code.toNat.repr := rfl
    rw [describe, htime, hsignal, hcode]
    simp [← String.toList_inj, hdigits]
  | killed n one_le le hcode hsignal htime =>
    have hbyte : statusByte o.exitCode = 128 + n := by
      rw [hcode, statusByte, if_pos (by omega)]
      omega
    have hmark : o.mark = "exit " ++ toString (128 + n) := by
      rw [mark, htime, hcode]
      rfl
    rw [hbyte, hmark]
    refine ⟨_, .died n htime hsignal, fun c => ?_⟩
    have hdigits : (n : Int).repr = n.repr := rfl
    rw [describe, htime, hsignal]
    cases hname : Signal.name? (n : Int) with
    | none => simp [← String.toList_inj, hname, hdigits]
    | some name => simp [← String.toList_inj, hname]
  | timedOut hcode hsignal htime =>
    have hbyte : statusByte o.exitCode = 124 := by rw [hcode]; rfl
    have hmark : o.mark = "timed out" := by rw [mark, htime]; rfl
    rw [hbyte, hmark]
    refine ⟨_, .timedOut htime hsignal, fun c => ?_⟩
    rw [describe, htime]
    simp [← String.toList_inj]

/-! ### What lines tell -/

/-- **What a line tells about the tools.** -/
inductive Told where
  /-- A tool passed. -/
  | passed (tool : Tool)
  /-- A tool did not pass. -/
  | failed (tool : Tool)
  /-- All of them passed. -/
  | allPassed
  deriving DecidableEq, Repr

/-- What a line tells. -/
def told? (line : String) : Option Told :=
  if "✓ All 4 tools passed".toList <+: line.toList then some .allPassed
  else
    Tool.all.findSome? fun t =>
      if line = "✓ " ++ t.name then some (.passed t)
      else if ("✗ " ++ t.name ++ " (").toList <+: line.toList then some (.failed t)
      else none

/-- What the line about a step tells. -/
def Step.told (step : Step) : Told :=
  if step.passed then .passed step.tool else .failed step.tool

/-- Only lines that start with one of two marks tell anything. -/
theorem told?_eq_none {line : String} (h : ∀ c, line.toList.head? = some c → c ≠ '✓' ∧ c ≠ '✗') :
    told? line = none := by
  cases hline : line.toList with
  | nil => simp [told?, Tool.all, hline, ← String.toList_inj, Tool.name]
  | cons c rest =>
    obtain ⟨hpass, hfail⟩ := h c (by rw [hline]; rfl)
    simp [told?, Tool.all, hline, ← String.toList_inj, Tool.name, hpass, hpass.symm, hfail.symm]

theorem told?_announced (text : String) : told? ("• " ++ text) = none :=
  told?_eq_none (by simp)

/-- The sentence about a failed command line is not taken for the line about a step. -/
theorem told?_describe (o : Outcome) (c : CommandLine) : told? ("✗ " ++ o.describe c) = none := by
  have hcommand (line : String) (h : "✗ C".toList <+: line.toList) : told? line = none := by
    obtain ⟨rest, hrest⟩ := h
    simp [told?, Tool.all, Tool.name, ← String.toList_inj, ← hrest]
  apply hcommand
  unfold Outcome.describe
  split
  · simp
  · split
    · split <;> simp
    · simp

theorem told?_allPassed {line : String} (h : "✓ All 4 tools passed".toList <+: line.toList) :
    told? line = some .allPassed := by
  rw [told?, if_pos h]

theorem told?_verdictLine (step : Step) :
    told? (verdictLine step.tool step.outcome) = some step.told := by
  rw [Step.told, Step.passed, verdictLine]
  generalize step.tool = tool
  split
  · cases tool <;> decide
  · cases tool <;> simp [told?, Tool.all, Tool.name, ← String.toList_inj]

theorem filterMap_told?_lines (capture : Bool) (steps : List Step) :
    (steps.flatMap (Step.lines capture)).filterMap told? = steps.map Step.told := by
  induction steps with
  | nil => rfl
  | cons step steps ih =>
    have hhere : (step.lines capture).filterMap told? = [step.told] := by
      cases capture <;>
        simp [Step.lines, announcedLines, told?_announced, told?_verdictLine]
    rw [List.flatMap_cons, List.filterMap_append, ih, hhere]
    rfl

namespace Session

variable {s : Surroundings} {config : Option Bytes}

/-! ### The lines around the steps -/

/-- Before the working directory is asked for only records are shown. -/
theorem errLines_loaded_ignored (args : RunArgs) :
    errLines (loadedEvents s config ++ ignoredEvents args) = [] := by
  have hloaded : errLines (loadedEvents s config) = [] := filterMap_loadedEvents fun _ => rfl
  rw [errLines_append, hloaded, errLines_ignoredEvents]
  rfl

/-- A run opens with the line about its mode. -/
theorem errLines_opening (args : RunArgs) :
    errLines (loadedEvents s config ++ ignoredEvents args ++ [modeLine args.mode]) =
      ["• " ++ ("Mode: " ++ args.mode.name)] := by
  rw [errLines_append, errLines_loaded_ignored]
  simp [modeLine, Console.render_false, Console.inColour, plain, Console.bold, String.join,
    ← String.toList_inj]

theorem errLines_excerpt (o : Outcome) :
    errLines (excerpt o) =
      ((Text.lines o.combined.toList).take 40).map fun l => "    " ++ String.ofList l := by
  rw [Outcome.excerpt_of_lines rfl]
  induction (Text.lines o.combined.toList).take 40 with
  | nil => rfl
  | cons l rest ih =>
    rw [List.map_cons, errLines_err, ih]
    simp [Console.render_false, plain, String.join]

/-- The lines that close a run: an empty one, and the sum or a sentence about the failed step. -/
theorem errLines_closing (settings : Settings) (r : Summary) :
    errLines (closing settings r) = "" ::
      match r.failedStep? with
      | none => ["✓ All " ++ toString r.passedCount ++ " tools passed in " ++ r.elapsed.brief ++ " (" ++
          r.mode.name ++ " mode)"]
      | some step => ("✗ " ++ step.outcome.describe step.commandLine) ::
          if settings.pipeline.captureOutput then errLines (excerpt step.outcome) else [] := by
  have hactivated (record : Console.Record) :
      errLines (if r.activated then [Event.log record] else []) = [] := by
    split <;> rfl
  rw [closing, errLines_append, hactivated]
  cases r.failedStep? with
  | none => simp [Console.render_false, plain, Console.boldIn, String.join, ← String.toList_inj]
  | some step =>
    have hsentence (text : String) :
        Console.render false [Console.boldIn .red "✗", plain (" " ++ text)] = "✗ " ++ text := by
      simp [Console.render_false, plain, Console.boldIn, String.join, ← String.toList_inj]
    rw [List.nil_append, errLines_err, errLines_err, hsentence]
    split <;> rfl

/-! ### Reports -/

/-- **A session that reports on its steps as it should.** -/
structure Reports (capture : Bool) (steps : List Step) (r : Result) : Prop where
  /-- Each step has one line about how it went, in order, and that all tools passed is said exactly
  with the status zero. -/
  told : (errLines r.events).filterMap told? =
    steps.map Step.told ++ if r.status = 0 then [.allPassed] else []
  /-- With the status zero each of the tools has passed. -/
  passed : r.status = 0 → steps.map Step.tool = Tool.all ∧ ∀ step ∈ steps, step.passed = true
  /-- A step that did not pass is the last one, and what is shown of it goes with the status. -/
  failed : ∀ last ∈ steps, last.passed = false → ∃ front before mark how,
    steps = front ++ [last] ∧ (∀ step ∈ front, step.passed = true) ∧
    Reported last.outcome r.status mark how ∧
    ("timed out".toList <+: how.toList ↔ last.outcome.timedOut = true) ∧
    ("died with".toList <+: how.toList ↔
      ∃ n : ℕ, last.outcome.signal = some (n : Int) ∧ r.status = 128 + n) ∧
    ("returned non-zero exit status".toList <+: how.toList ↔
      last.outcome.timedOut = false ∧ last.outcome.signal = none) ∧
    errLines r.events = before ++
      ["✗ " ++ last.tool.name ++ " (" ++ mark ++ ")", "",
        "✗ Command '" ++ last.commandLine.render ++ "' " ++ how ++ "."] ++
      if capture then
        ((Text.lines last.outcome.combined.toList).take 40).map fun l => "    " ++ String.ofList l
      else []

/-- A command that stops at a failure has an error status, and says nothing more about the tools. -/
theorem Reports.of_halted {capture : Bool} {steps : List Step}
    (hsteps : ∀ step ∈ steps, step.passed = true) {shown : List Event}
    (hshown : (errLines shown).filterMap told? = steps.map Step.told) (h : Halt) (s : Surroundings) :
    Reports capture steps (halted h shown s) := by
  have hstatus : (halted h shown s).status ≠ 0 := by
    cases h with
    | failed f =>
      rw [halted, ne_eq, statusByte_eq_zero_iff]
      cases f <;> simp [Failure.exitCode, Failure.codeSettings, Failure.codeNotFound]
    | overflow => simp [halted, statusAborted]
  -- all steps passed, so there is none to report a failure of
  refine ⟨?_, fun hzero => absurd hzero hstatus, fun last hlast hfailed => ?_⟩
  · have herror (text : String) : told? ("Error: " ++ text) = none := told?_eq_none (by simp)
    rw [if_neg hstatus, ← hshown]
    cases h with
    | failed f => simp [halted, Console.render_false, plain, String.join, herror]
    | overflow => simp [halted]
  · rw [hsteps last hlast] at hfailed
    cases hfailed

/-- The sentence about a failed step, and what is shown of its output, tell nothing more. -/
theorem told?_closing_of_failed (settings : Settings) {summary : Summary} {step : Step}
    (h : summary.failedStep? = some step) :
    (errLines (closing settings summary)).filterMap told? = [] := by
  have hexcerpt : (errLines (excerpt step.outcome)).filterMap told? = [] := by
    rw [errLines_excerpt, List.filterMap_map, List.filterMap_eq_nil_iff]
    exact fun l _ => told?_eq_none (by simp)
  have hblank : told? "" = none := told?_eq_none (by simp)
  rw [errLines_closing, h, List.filterMap_cons_none hblank,
    List.filterMap_cons_none (told?_describe _ _)]
  split
  · exact hexcerpt
  · rfl

section Finished

variable {settings : Settings} {summary : Summary} {shown : List Event} {first : String}
  (hshown : errLines shown = ("• " ++ first) ::
    summary.steps.flatMap (Step.lines settings.pipeline.captureOutput))

include hshown

/-- A run in which each tool passed, after the line about its mode. -/
theorem Reports.of_passed (htools : summary.steps.map Step.tool = Tool.all)
    (hpassed : ∀ step ∈ summary.steps, step.passed = true) (s : Surroundings) :
    Reports settings.pipeline.captureOutput summary.steps
      ⟨statusByte summary.exitCode, shown ++ closing settings summary, s⟩ := by
  have hzero : statusByte summary.exitCode = 0 :=
    (statusByte_eq_zero_iff _).mpr (summary.exitCode_eq_zero_iff.mpr hpassed)
  -- the number in the sentence is counted, not written there
  have hcount : summary.passedCount = 4 := by
    rw [Summary.passedCount_eq_length_iff.mpr hpassed, ← List.length_map Step.tool, htools]
    rfl
  refine ⟨?_, fun _ => ⟨htools, hpassed⟩, fun step hstep hfailed => ?_⟩
  · have hblank : told? "" = none := told?_eq_none (by simp)
    have hfour : toString 4 = "4" := rfl
    have hsum : told? ("✓ All " ++ toString 4 ++ " tools passed in " ++ summary.elapsed.brief ++ " (" ++
        summary.mode.name ++ " mode)") = some .allPassed :=
      told?_allPassed (by simp [hfour])
    rw [hzero, if_pos rfl, errLines_append, List.filterMap_append, hshown,
      List.filterMap_cons_none (told?_announced first), filterMap_told?_lines, errLines_closing,
      Summary.failedStep?_eq_none_iff.mpr hpassed, hcount, List.filterMap_cons_none hblank,
      List.filterMap_cons_some hsum, List.filterMap_nil]
  · rw [hpassed step hstep] at hfailed
    cases hfailed

/-- A run that ended with a process that failed, after the line about its mode. -/
theorem Reports.of_failed {front : List Step} {last : Step} (hsteps : summary.steps = front ++ [last])
    (hfront : ∀ step ∈ front, step.passed = true) (hlast : last.passed = false)
    (hreal : last.outcome.Real) (s : Surroundings) :
    Reports settings.pipeline.captureOutput summary.steps
      ⟨statusByte summary.exitCode, shown ++ closing settings summary, s⟩ := by
  have hfirst : summary.failedStep? = some last :=
    Summary.failedStep?_eq_some_iff.mpr ⟨front, [], hsteps, hfront, hlast⟩
  obtain ⟨how, hreported, hdescribed⟩ := hreal.reported hlast
  have hstatus : statusByte summary.exitCode = statusByte last.outcome.exitCode := by
    -- a failed process has a code of its own, so the code 1 is not put in its place
    have hne := (statusByte_eq_zero_iff _).not.mp hreported.status_ne_zero
    rw [Summary.exitCode, hfirst]
    dsimp only
    rw [if_pos hne]
  rw [hstatus]
  refine ⟨?_, fun hzero => absurd hzero hreported.status_ne_zero, fun step hstep hfailed => ?_⟩
  · rw [if_neg hreported.status_ne_zero, errLines_append, List.filterMap_append, hshown,
      List.filterMap_cons_none (told?_announced first), filterMap_told?_lines,
      told?_closing_of_failed settings hfirst]
  · -- only the last step did not pass
    obtain rfl : step = last := by
      rw [hsteps, List.mem_append, List.mem_singleton] at hstep
      rcases hstep with hstep | hstep
      · rw [hfront step hstep] at hfailed
        cases hfailed
      · exact hstep
    obtain ⟨htime, hsignal, hcode⟩ := hreported.words_iff
    refine ⟨front, ("• " ++ first) :: front.flatMap (Step.lines settings.pipeline.captureOutput) ++
      announcedLines settings.pipeline.captureOutput step.commandLine, _, how, hsteps, hfront, hreported,
      htime, hsignal, hcode, ?_⟩
    rw [errLines_append, hshown, hsteps, errLines_closing, hfirst, ← errLines_excerpt]
    dsimp only
    rw [hdescribed]
    have hverdict : step.outcome.passed = false := hfailed
    simp [Step.lines, verdictLine, hverdict, ← String.toList_inj]

end Finished

/-! ### Runs -/

/-- The tools that a proper launcher starts have the outcomes of processes. -/
theorem real_of_performed {launcher : Launcher} (hproper : launcher.Proper) {settings : Settings}
    {mode : Mode} {steps : List Step}
    (hsteps : (Pipeline.calls launcher settings mode s).filterMap Call.performed? =
      steps.map Step.performed) : ∀ step ∈ steps, step.outcome.Real := by
  have hcalls : ∀ call ∈ Pipeline.calls launcher settings mode s,
      ∀ c o, call.performed? = some (c, o) → o.Real := by
    -- the outcome of a call is made from what the launcher answers
    refine Pipeline.forall_mem_calls launcher (by simp [Call.performed?]) ?_ settings mode s
    intro c cond s' c' o hperformed
    unfold Launched.execute at hperformed
    cases hlaunch : launcher (Launched.launch c cond) s' with
    | error fault => simp [hlaunch, Call.performed?] at hperformed
    | ok landing =>
      obtain ⟨fate, hfate⟩ := hproper _ _ _ hlaunch
      simp only [hlaunch, Call.performed?, Option.some.injEq, Prod.mk.injEq] at hperformed
      rw [← hperformed.2]
      exact landing.real_outcome hfate _
  intro step hstep
  have hmem : step.performed ∈ steps.map Step.performed := List.mem_map_of_mem hstep
  rw [← hsteps, List.mem_filterMap] at hmem
  obtain ⟨call, hcall, hperformed⟩ := hmem
  exact hcalls call hcall _ _ hperformed

/-- **A run with settings reports on its steps**, in a working directory that is there. -/
theorem runBy_reports {launcher : Launcher} (hproper : launcher.Proper) {settings : Settings}
    {limit : Option Duration} (hlimit : settings.limit = .ok limit) {dir : Bytes}
    (hdir : s.directory = .ok dir) (args : RunArgs) :
    ∃ steps, (Pipeline.calls launcher settings args.mode s).filterMap Call.performed? =
        steps.map Step.performed ∧
      steps.map Step.planned <+: settings.plan args.mode ∧
      Reports settings.pipeline.captureOutput steps
        (runBy launcher s args settings (loadedEvents s config)) := by
  obtain ⟨steps, tail, hprefix, hperformed, hlines, hend⟩ :=
    Pipeline.run_performs launcher hlimit args.mode s
  have hreal := real_of_performed hproper hperformed
  refine ⟨steps, hperformed, hprefix, ?_⟩
  -- what the run shows is the line about its mode, the lines about its steps, and what closes it
  rw [runBy, hdir]
  generalize Pipeline.run launcher settings args.mode s = r at hlines hend ⊢
  have hshown : errLines
      (loadedEvents s config ++ ignoredEvents args ++ [modeLine args.mode] ++ r.events) =
      ("• " ++ ("Mode: " ++ args.mode.name)) ::
        steps.flatMap (Step.lines settings.pipeline.captureOutput) ++ tail := by
    rw [errLines_append, errLines_opening, hlines]
    rfl
  rcases hend with ⟨summary, cond, hsummary, rfl, rfl, hfinished⟩ | ⟨⟨f, hfailed⟩, hpassed, htail⟩
  · rw [List.append_nil] at hshown
    simp only [hsummary]
    obtain ⟨-, ⟨hplan, hpassed⟩ | ⟨front, last, hsteps, -, hfront, hlast⟩⟩ := hfinished
    · have htools := congrArg (List.map Prod.fst) hplan
      rw [List.map_map] at htools
      exact .of_passed hshown htools hpassed _
    · exact .of_failed hshown hsteps hfront hlast (hreal last (by simp [hsteps])) _
  · simp only [hfailed]
    have htold : tail.filterMap told? = [] := by
      rw [List.filterMap_eq_nil_iff]
      intro line hline
      obtain ⟨c, rfl⟩ := htail line hline
      exact told?_announced _
    refine .of_halted hpassed ?_ _ _
    rw [hshown, List.filterMap_append, htold, List.filterMap_cons_none (told?_announced _),
      filterMap_told?_lines, List.append_nil]

/-- **The report of a run agrees with its status.** Over a launcher whose processes end as processes do,
every run reports on the steps that it performed: each has its line in order, the sentence that all
tools passed stands there exactly with the status zero, and of a failed step the mark, the sentence and
the status agree, with the first 40 lines of its output where that was kept back. -/
theorem run_reports (launcher : Launcher) (hproper : launcher.Proper) (s : Surroundings)
    (config : Option Bytes) (args : RunArgs) :
    ∃ steps capture,
      (calls launcher s config args).filterMap Call.performed? = steps.map Step.performed ∧
      (∀ settings, Settings.loadOrDefault (site s) config = .ok settings →
        capture = settings.pipeline.captureOutput ∧
          steps.map Step.planned <+: settings.plan args.mode) ∧
      Reports capture steps (run launcher s config args) := by
  cases hloaded : Settings.loadOrDefault (site s) config with
  | error h =>
    refine ⟨[], true, by rw [calls, hloaded]; rfl, by simp, ?_⟩
    rw [run, withSettings, hloaded]
    exact .of_halted (by simp) rfl h s
  | ok settings =>
    rw [run, withSettings_of_load hloaded]
    cases hdir : s.directory with
    | error e =>
      refine ⟨[], settings.pipeline.captureOutput, by rw [calls, hloaded, hdir]; rfl, ?_, ?_⟩
      · rintro _ hsame
        cases hsame
        exact ⟨rfl, List.nil_prefix⟩
      · rw [runBy_of_gone hdir]
        exact .of_halted (by simp) (by rw [errLines_loaded_ignored]; rfl) _ s
    | ok dir =>
      -- settings of a session are accepted ones, so the time limit is not out of range
      obtain ⟨limit, hlimit⟩ := Settings.limit_of_validate (Settings.validate_of_loadOrDefault hloaded)
      obtain ⟨steps, hperformed, hprefix, hreports⟩ := runBy_reports hproper hlimit hdir args
      refine ⟨steps, settings.pipeline.captureOutput, ?_, ?_, hreports⟩
      · rw [calls, hloaded, hdir]
        exact hperformed
      · rintro _ hsame
        cases hsame
        exact ⟨rfl, hprefix⟩

/-- **The report of a tool that was killed**, after one that passed. -/
theorem run_reports_killed :
    let fates := Rehearsal.byTool (.exited 0) (.killed 9 (by decide) (by decide)) .timedOut .missing
    let launcher := Rehearsal.launcher fates
    let s := Rehearsal.surroundings fun t => Rehearsal.installed (fates t)
    let r := run launcher s none {}
    launcher.Proper ∧ r.status = 137 ∧
      errLines r.events = ["• Mode: fix", "• isort --settings-path .isort.cfg .", "✓ isort",
        "• black --line-length 120 --skip-string-normalization .", "✗ black (exit 137)", "",
        "✗ Command 'black --line-length 120 --skip-string-normalization .' died with SIGKILL."] ∧
      ∃ steps capture,
        (calls launcher s none {}).filterMap Call.performed? = steps.map Step.performed ∧
        Reports capture steps r := by
  intro fates launcher s r
  have hproper : launcher.Proper := Rehearsal.proper_launcher fates
  obtain ⟨steps, capture, hperformed, -, hreports⟩ := run_reports launcher hproper s none {}
  exact ⟨hproper, by decide +kernel, by decide +kernel, steps, capture, hperformed, hreports⟩

end Session
end QualityGate
