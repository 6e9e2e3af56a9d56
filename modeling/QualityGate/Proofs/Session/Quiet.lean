import QualityGate.Proofs.Run.Summary
import QualityGate.Proofs.Session.ExitStatus
import QualityGate.Proofs.Session.Selection
import QualityGate.Proofs.Session.Verbosity
/-!
## What a quiet run shows

The flag for less output sets the level of the log to errors, and a run has nothing to log at that level.
Its own lines do not go through the log.

* `Display.bytes_of_isMinor`: up to the level of errors, nothing is shown of the minor events.
* `performFrom_notable`: of a sequence whose output is kept back these are the lines about its steps.
* `start_quiet`: a quiet run in which all tools pass shows seven lines.
-/

namespace QualityGate

open Console (Display Event Filter Piece inColour plain bold boldIn lineBytes render)

variable {σ : Type}

/-! ### Notable events -/

/-- **A minor event**: a record of the log below the level of errors. -/
def Console.Event.isMinor : Event → Bool
  | .log r => r.level ≠ .error
  | _ => false

/-- **The events that are not minor.** -/
def notable (events : List Event) : List Event :=
  events.filter fun e => !e.isMinor

@[simp] theorem notable_append (front back : List Event) :
    notable (front ++ back) = notable front ++ notable back :=
  List.filter_append ..

/-- Where only lines are notable, nothing is logged at the level of errors. -/
theorem level_ne_error_of_notable {events : List Event} {lines : List (List Piece)}
    (h : notable events = lines.map Event.err) {r : Console.Record} (hr : .log r ∈ events) :
    r.level ≠ .error := by
  intro hlevel
  have hmem : .log r ∈ notable events :=
    List.mem_filter.mpr ⟨hr, by simp [Event.isMinor, hlevel]⟩
  rw [h] at hmem
  obtain ⟨line, -, hline⟩ := List.mem_map.mp hmem
  cases hline

namespace Console

/-- A display that lets records through up to errors shows nothing of minor events. -/
theorem Display.bytes_of_isMinor {d : Display}
    (hd : ∀ r, d.filter.shows r = decide (r.level.rank ≤ Level.error.rank)) {e : Event}
    (he : e.isMinor = true) : d.outBytes e = [] ∧ d.errBytes e = [] := by
  cases e with
  | log r =>
    have hlevel : ¬r.level.rank ≤ Level.error.rank := by
      have hne : r.level ≠ .error := by simpa [Event.isMinor] using he
      cases hlevel : r.level <;> simp_all [Level.rank]
    refine ⟨rfl, ?_⟩
    rw [Display.errBytes, hd, decide_eq_false hlevel]
    rfl
  | _ => cases he

theorem flatMap_notable {f : Event → Bytes} (hf : ∀ e, e.isMinor = true → f e = [])
    (events : List Event) : (notable events).flatMap f = events.flatMap f := by
  induction events with
  | nil => rfl
  | cons e events ih =>
    rw [notable] at ih ⊢
    cases he : e.isMinor with
    | true => simp [he, ih, hf e he]
    | false => simp [he, ih]

end Console

/-! ### What is notable of a run -/

/-- The event that says how a step went. -/
def Step.verdict (step : Step) : Event :=
  QualityGate.verdict step.tool step.outcome

/-- **The notable events of a sequence whose output is kept back** say how its steps went, and nothing
else, if nothing notable happens while a tool runs. -/
theorem performFrom_notable {p : Performer σ} {cond : Conditions} (hcapture : cond.capture = true)
    (hp : ∀ c s, notable (p.execute c cond s).2.1 = []) (plan : List (Tool × CommandLine))
    (done : List Step) (shown : List Event) (s : σ) {steps : List Step}
    (hsteps : (performFrom p cond done shown s plan).result = .ok steps) :
    ∃ more, steps = done ++ more ∧
      notable (performFrom p cond done shown s plan).events = notable shown ++ more.map Step.verdict := by
  -- what was done and shown before grows with each step
  induction plan generalizing done shown s with
  | nil =>
    cases hsteps
    exact ⟨[], (List.append_nil _).symm, by simp [performFrom]⟩
  | cons step rest ih =>
    obtain ⟨t, c⟩ := step
    rcases hfound : p.available c.program cond s with ⟨found, s1⟩
    cases found with
    | false => simp [performFrom, hfound] at hsteps
    | true =>
      have hquiet := hp c s1
      rcases hanswer : p.execute c cond s1 with ⟨answer, events, s2⟩
      rw [hanswer] at hquiet
      cases answer with
      | error f => simp [performFrom, hfound, hanswer] at hsteps
      | ok o =>
        have hverdict : notable [QualityGate.verdict t o] = [Step.verdict ⟨t, c, o⟩] := by
          unfold Step.verdict QualityGate.verdict
          split
          · rfl
          · split <;> rfl
        cases hpassed : o.passed with
        | false =>
          simp only [performFrom, hfound, hanswer, hpassed, hcapture, ↓reduceIte, Bool.false_eq_true,
            Except.ok.injEq] at hsteps ⊢
          exact ⟨[⟨t, c, o⟩], hsteps.symm, by simp [hquiet, hverdict]⟩
        | true =>
          simp only [performFrom, hfound, hanswer, hpassed, hcapture, ↓reduceIte] at hsteps ⊢
          obtain ⟨more, rfl, hmore⟩ := ih _ _ _ hsteps
          refine ⟨⟨t, c, o⟩ :: more, List.append_assoc .., ?_⟩
          rw [hmore]
          simp [hquiet, hverdict]

theorem Launched.notable_record {level : Console.Level} {message : String} {c : CommandLine}
    {fields : List (String × String)} (events : List Event) (h : level ≠ .error) :
    notable (record level message c fields :: events) = notable events := by
  simp [notable, record, Event.isMinor, h]

/-- Nothing notable happens while a process runs whose output is kept back. -/
theorem Launched.notable_execute (launcher : Launcher) (c : CommandLine) {cond : Conditions}
    (hcapture : cond.capture = true) (s : Surroundings) :
    notable (execute launcher c cond s).2.1 = [] := by
  have hkept (name text : String) : notable (kept name c text) = [] := by
    unfold kept
    split <;> rfl
  -- each record of a process is about its end or about output kept back, and none is an error
  have hend (l : Landing) (o : Outcome) : notable (endRecords c cond l o) = [] := by
    unfold endRecords
    split
    · split <;> rfl
    · rw [notable_record _ (by decide), notable_append, hkept, hkept]
      rfl
  unfold execute
  dsimp only
  cases launcher (launch c cond) s with
  | error fault => rfl
  | ok l =>
    dsimp only
    rw [hcapture, if_pos rfl, List.singleton_append, notable_record _ (by decide), hend]

/-- Nothing notable happens in an activation. -/
theorem notable_activate (launcher : Launcher) (s : Surroundings) (root relative : Bytes)
    (shell : String) : notable (activate launcher s root relative shell).events = [] := by
  unfold activate
  dsimp only
  split
  · split <;> rfl
  · rfl

namespace Pipeline

/-- **All tools pass in a run**, from a working directory that is there. -/
structure AllPass (launcher : Launcher) (settings : Settings) (mode : Mode) (s : Surroundings) :
    Prop where
  directory : ∃ dir, s.directory = .ok dir
  summary : ∃ summary, (run launcher settings mode s).summary = .ok summary ∧
    summary.steps.map Step.tool = Tool.all ∧ ∀ step ∈ summary.steps, step.passed = true

/-- The notable events of a run whose output is kept back say how its steps went. -/
theorem notable_run (launcher : Launcher) {settings : Settings} {limit : Option Duration}
    (hlimit : settings.limit = .ok limit) (hcapture : settings.pipeline.captureOutput = true)
    (mode : Mode) (s : Surroundings) {summary : Summary}
    (hsummary : (run launcher settings mode s).summary = .ok summary) :
    summary.mode = mode ∧
      notable (run launcher settings mode s).events = summary.steps.map Step.verdict := by
  rw [run_of_limit launcher hlimit] at hsummary ⊢
  dsimp only at hsummary ⊢
  cases hresult : (perform (Launched.performer launcher) (activeConditions launcher settings limit s)
      (settings.plan mode) (activeSurroundings launcher settings s)).result with
  | error f =>
    rw [hresult] at hsummary
    cases hsummary
  | ok steps =>
    rw [hresult] at hsummary
    cases hsummary
    obtain ⟨more, rfl, hmore⟩ := performFrom_notable
      (show (activeConditions launcher settings limit s).capture = true from hcapture)
      (fun c s => Launched.notable_execute launcher c hcapture s) _ _ _ _ hresult
    refine ⟨rfl, ?_⟩
    rw [notable_append, activation, notable_activate, List.nil_append, perform, hmore]
    rfl

end Pipeline

/-! ### Quiet runs -/

namespace Session

/-- **The lines of a run in which all tools pass** and whose output is kept back. -/
def passedLines (mode : Mode) (elapsed : Duration) : List (List Piece) :=
  [inColour .cyan "•", plain " Mode: ", bold mode.name] ::
    (Tool.all.map fun t => [inColour .green "✓", plain (" " ++ t.name)]) ++
    [[], [boldIn .green "✓", plain (" All 4 tools passed in " ++ elapsed.brief ++ " (" ++ mode.name ++
      " mode)")]]

variable {launcher : Launcher} {s : Surroundings} {config : Option Bytes}

/-- The steps of a run in which all tools pass have one line each. -/
theorem verdict_of_passed {steps : List Step} (hpassed : ∀ step ∈ steps, step.passed = true) :
    steps.map Step.verdict =
      (steps.map Step.tool).map fun t => .err [inColour .green "✓", plain (" " ++ t.name)] := by
  rw [List.map_map]
  refine List.map_congr_left fun step hstep => ?_
  exact if_pos (hpassed step hstep)

/-- Where all tools pass, the last line counts them. -/
theorem notable_closing (settings : Settings) {summary : Summary}
    (htools : summary.steps.map Step.tool = Tool.all)
    (hpassed : ∀ step ∈ summary.steps, step.passed = true) :
    notable (closing settings summary) =
      [.err [], .err [boldIn .green "✓", plain (" All 4 tools passed in " ++ summary.elapsed.brief ++
        " (" ++ summary.mode.name ++ " mode)")]] := by
  have hcount : summary.passedCount = 4 := by
    rw [Summary.passedCount_eq_length_iff.mpr hpassed, ← List.length_map Step.tool, htools]
    rfl
  have hactivated (target message : String) (fields : List (String × String)) :
      notable (if summary.activated then
        [Event.log { level := .info, target, message, fields }] else []) = [] := by
    split <;> rfl
  rw [closing, notable_append, hactivated, Summary.failedStep?_eq_none_iff.mpr hpassed, hcount]
  rfl

/-- **The notable events of a run in which all tools pass** are its lines. -/
theorem notable_run {args : RunArgs} {settings : Settings}
    (hsettings : Settings.loadOrDefault (site s) config = .ok settings)
    (hcapture : settings.pipeline.captureOutput = true)
    (hpass : Pipeline.AllPass launcher settings args.mode s) :
    (run launcher s config args).status = 0 ∧
      ∃ elapsed, notable (run launcher s config args).events =
        (passedLines args.mode elapsed).map Event.err := by
  obtain ⟨⟨dir, hdir⟩, summary, hsummary, htools, hpassed⟩ := hpass
  obtain ⟨limit, hlimit⟩ := Settings.limit_of_validate (Settings.validate_of_loadOrDefault hsettings)
  obtain ⟨hmode, hsteps⟩ := Pipeline.notable_run launcher hlimit hcapture args.mode s hsummary
  -- before the pipeline starts only the mode is told
  have hopening : notable (loadedEvents s config ++ ignoredEvents args ++ [modeLine args.mode]) =
      [modeLine args.mode] := by
    have hloaded : notable (loadedEvents s config) = [] := by
      unfold loadedEvents
      split <;> rfl
    have hignored : notable (ignoredEvents args) = [] := by
      unfold ignoredEvents
      split <;> rfl
    rw [notable_append, notable_append, hloaded, hignored]
    rfl
  rw [run, withSettings_of_load hsettings, runBy, hdir]
  dsimp only
  rw [hsummary]
  dsimp only
  refine ⟨(statusByte_eq_zero_iff _).mpr (summary.exitCode_eq_zero_iff.mpr hpassed),
    summary.elapsed, ?_⟩
  rw [notable_append, notable_append, hopening, hsteps, verdict_of_passed hpassed, htools,
    notable_closing settings htools hpassed, hmode]
  rfl

/-- **A quiet run shows seven lines.** With the flag for less output, no filter in the environment, output
kept back and all tools passing, nothing is logged at the level of errors, no record of the log is shown
and nothing goes to standard output; but standard error has the line about the mode, one line for each
tool, an empty one and the sum. -/
theorem start_quiet (launcher : Launcher) {argv : List Bytes} {r : Request} {args : RunArgs}
    {s : Surroundings} {settings : Settings} (hparse : Args.parse argv = .ok r)
    (hquiet : r.quiet = true) (hrun : r.effective = .run args) (hfilter : s.env.get? filterKey = none)
    (hsettings : Settings.loadOrDefault (site s) r.config = .ok settings)
    (hcapture : settings.pipeline.captureOutput = true)
    (hpass : Pipeline.AllPass launcher settings args.mode s) (time : String) :
    let d := display argv s.env time
    let result := start launcher argv s
    result.status = 0 ∧ (∀ r, .log r ∈ result.events → r.level ≠ .error) ∧
      d.stdout result.events = [] ∧
      ∃ elapsed, d.stderr result.events =
        (passedLines args.mode elapsed).flatMap fun line => lineBytes (render d.coloured line) := by
  intro d result
  have hresult : result = run launcher s r.config args := by
    rw [show result = perform launcher r s from start_of_parse hparse launcher s _, perform, hrun]
  have hnone : environmentFilter? s.env = none := by
    rw [environmentFilter?, textOf?, hfilter]
    rfl
  have hd : ∀ record, d.filter.shows record = decide (record.level.rank ≤ Console.Level.error.rank) := by
    intro record
    rw [show d = displayOf r s.env time from display_of_parse hparse s.env time]
    have hshows := filter_shows hnone r record
    rwa [level, hquiet, if_pos rfl] at hshows
  obtain ⟨hstatus, elapsed, hevents⟩ := notable_run hsettings hcapture hpass
  rw [← hresult] at hstatus hevents
  refine ⟨hstatus, fun _ => level_ne_error_of_notable hevents, ?_, elapsed, ?_⟩
  · rw [Display.stdout, ← Console.flatMap_notable (fun e he => (Display.bytes_of_isMinor hd he).1),
      hevents, List.flatMap_map]
    exact List.flatMap_eq_nil_iff.mpr fun _ _ => rfl
  · rw [Display.stderr, ← Console.flatMap_notable (fun e he => (Display.bytes_of_isMinor hd he).2),
      hevents, List.flatMap_map]
    rfl

/-! ### A quiet run on a host -/

/-- A host on which the tools are installed, and whose settings keep their output back. -/
def capturing : Surroundings :=
  let s := Rehearsal.surroundings fun _ => true
  let content := Text.bytes "[pipeline]\ncapture_output = true\n"
  { s with files := s.files.put [Settings.fileName] (.file content false) }

/-- The settings of that host. -/
def capturingSettings : Settings :=
  { pipeline := { captureOutput := true } }

theorem loadOrDefault_capturing :
    Settings.loadOrDefault (site capturing) none = .ok capturingSettings := by
  decide +kernel

theorem allPass_capturing (mode : Mode) :
    Pipeline.AllPass (Rehearsal.launcher fun _ => .exited 0) capturingSettings mode capturing := by
  let steps := Tool.all.map fun t => (⟨t, t.commandLine capturingSettings mode, {}⟩ : Step)
  refine ⟨⟨_, rfl⟩, { mode := mode, steps := steps, activated := false }, ?_, rfl,
    fun step hstep => ?_⟩
  · cases mode <;> decide +kernel
  · obtain ⟨t, -, rfl⟩ := List.mem_map.mp hstep
    rfl

/-- A quiet run in check mode, with colours. -/
theorem start_quiet_coloured :
    let argv := ["-q", "--color", "always", "--check"].map Text.bytes
    let result := start (Rehearsal.launcher fun _ => .exited 0) argv capturing
    let d := display argv capturing.env ""
    d.stdout result.events = [] ∧ ∃ elapsed, d.stderr result.events =
      (passedLines .check elapsed).flatMap fun line => lineBytes (render true line) := by
  intro argv result d
  let r : Request := { run := ⟨["--check"]⟩, quiet := true, colour := .always }
  have hparse : Args.parse argv = .ok r := by decide +kernel
  have hrun : r.effective = .run ⟨["--check"]⟩ := rfl
  have hcoloured : (display argv capturing.env "").coloured = true := by decide +kernel
  obtain ⟨-, -, hstdout, elapsed, hstderr⟩ := start_quiet (Rehearsal.launcher fun _ => .exited 0) hparse rfl
    hrun (by decide) loadOrDefault_capturing rfl (allPass_capturing .check) ""
  rw [hcoloured] at hstderr
  exact ⟨hstdout, elapsed, hstderr⟩

/-- **The flag does not keep the lines of a run back.** -/
theorem stderr_quiet_told :
    let argv := [Text.bytes "--quiet"]
    let result := start (Rehearsal.launcher fun _ => .exited 0) argv capturing
    Args.parse argv = .ok { quiet := true } ∧ capturing.env.get? filterKey = none ∧
      Settings.loadOrDefault (site capturing) none = .ok capturingSettings ∧
      Pipeline.AllPass (Rehearsal.launcher fun _ => .exited 0) capturingSettings .fix capturing ∧
      (∀ r, .log r ∈ result.events → r.level ≠ .error) ∧
      (display argv capturing.env "").stderr result.events =
        Text.bytes ("• Mode: fix\n✓ isort\n✓ black\n✓ flake8\n✓ mypy\n\n" ++
          "✓ All 4 tools passed in 0.00ns (fix mode)\n") := by
  intro argv result
  have hnotable : notable result.events = (passedLines .fix Duration.zero).map Event.err := by
    decide +kernel
  exact ⟨by decide +kernel, by decide, loadOrDefault_capturing, allPass_capturing .fix,
    fun _ => level_ne_error_of_notable hnotable, by decide +kernel⟩

end Session
end QualityGate
