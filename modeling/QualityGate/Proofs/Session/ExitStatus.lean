import QualityGate.Proofs.Session.Selection
/-!
The status of a session that runs the pipeline. Each tool meets a `Fate`: its program is missing or does
not start, or it exits, is killed by a signal, or runs out of time. `chainStatus` is the status that a
shell gives `isort && black && flake8 && mypy` under these fates, and `status_start` says that it is the
status of the session, whatever the launcher, the surroundings and the accepted settings are. Every
assignment of fates to the tools is met by some session (`Rehearsal.fated`).
-/

namespace QualityGate

/-! ### Fates -/

/-- **What can become of a tool.** -/
inductive Fate where
  /-- Its program is not found. -/
  | missing
  /-- Its program is found and does not start. -/
  | unstartable (fault : IoFault)
  | exited (code : UInt8)
  | killed (signal : Nat) (one_le : 1 ≤ signal) (le : signal ≤ 127)
  /-- It is killed for running out of time. -/
  | timedOut

namespace Fate

/-- Whether a shell goes on after a command with this fate. -/
def succeeded : Fate → Bool
  | exited code => code = 0
  | _ => false

/-- The status by which a shell knows a command with this fate. -/
def status : Fate → Nat
  | missing => 127
  | unstartable _ => 1
  | exited code => code.toNat
  | killed signal _ _ => 128 + signal
  | timedOut => 124

/-- How a started tool ended; one that was stopped at its limit has no ending of its own. -/
def ending? : Fate → Option (Option Shell.Ending)
  | exited code => some (some (.exited code.toNat))
  | killed signal _ _ => some (some (.killed signal))
  | timedOut => some none
  | _ => none

/-- **A status fits a byte**, that of a death by signal too. -/
theorem status_lt (fate : Fate) : fate.status < 256 := by
  cases fate with
  | exited code => exact code.toNat_lt
  | killed signal one_le le => simp only [status]; omega
  | _ => simp [status]

/-- **Only success has the status zero.** -/
theorem status_eq_zero_iff (fate : Fate) : fate.status = 0 ↔ fate.succeeded = true := by
  cases fate with
  | exited code => simp [status, succeeded, ← UInt8.toNat_inj]
  | killed signal one_le le => simp [status, succeeded]
  | _ => simp [status, succeeded]

theorem succeeded_iff (fate : Fate) : fate.succeeded = true ↔ fate = exited 0 := by
  cases fate <;> simp [succeeded]

end Fate

/-- **The status of a chain of commands joined by `&&`.** -/
def chainStatus : List Fate → Nat
  | [] => 0
  | fate :: rest => if fate.succeeded then chainStatus rest else fate.status

theorem chainStatus_eq_zero_iff (fates : List Fate) :
    chainStatus fates = 0 ↔ ∀ fate ∈ fates, fate.succeeded = true := by
  induction fates with
  | nil => simp [chainStatus]
  | cons fate rest ih =>
    rw [chainStatus, List.forall_mem_cons]
    cases hfate : fate.succeeded with
    | true => simp [ih]
    | false =>
      have hne : fate.status ≠ 0 := by rw [ne_eq, fate.status_eq_zero_iff, hfate]; decide
      simp [hne]

/-! ### How tools meet their fates -/

section

variable (launcher : Launcher) (cond : Conditions)

/-- **What becomes of a command line** that is to be run from some surroundings, and the surroundings
after it. -/
inductive Meets (c : CommandLine) (s : Surroundings) : Fate → Surroundings → Prop
  | missing (h : Launched.locate s (Text.bytes c.program) cond = none) : Meets c s .missing s
  | unstartable (fault : IoFault)
      (hfound : (Launched.locate s (Text.bytes c.program) cond).isSome = true)
      (h : launcher (Launched.launch c cond) s = .error fault) : Meets c s (.unstartable fault) s
  | ended (landing : Landing) (fate : Fate)
      (hfound : (Launched.locate s (Text.bytes c.program) cond).isSome = true)
      (h : launcher (Launched.launch c cond) s = .ok landing)
      (hfate : fate.ending? = some landing.ending) : Meets c s fate { s with files := landing.files }

/-- **The tools of a plan meet their fates**, up to the first that does not succeed. -/
inductive MeetsAll (fates : Tool → Fate) : List (Tool × CommandLine) → Surroundings → Prop
  | nil (s : Surroundings) : MeetsAll fates [] s
  | stop {t : Tool} {c : CommandLine} {rest : List (Tool × CommandLine)} {s s' : Surroundings}
      (hmeets : Meets launcher cond c s (fates t) s') (h : (fates t).succeeded = false) :
      MeetsAll fates ((t, c) :: rest) s
  | next {t : Tool} {c : CommandLine} {rest : List (Tool × CommandLine)} {s s' : Surroundings}
      (hmeets : Meets launcher cond c s (fates t) s') (h : (fates t).succeeded = true)
      (hrest : MeetsAll fates rest s') : MeetsAll fates ((t, c) :: rest) s

end

/-- The outcome of a started tool has the code of its fate, and passes if that is success. -/
theorem outcome_of_ending? {landing : Landing} {fate : Fate} (h : fate.ending? = some landing.ending)
    (capture : Bool) :
    (landing.outcome capture).exitCode = fate.status ∧
      (landing.outcome capture).passed = fate.succeeded := by
  cases fate with
  | missing => cases h
  | unstartable fault => cases h
  | exited code =>
    simp only [Fate.ending?, Option.some.injEq] at h
    simp [Landing.outcome, Landing.outcomeOf, ← h, Shell.Ending.exitCode, Shell.Ending.signal?,
      Outcome.passed, Fate.status, Fate.succeeded, ← UInt8.toNat_inj]
  | killed signal one_le le =>
    simp only [Fate.ending?, Option.some.injEq] at h
    simp [Landing.outcome, Landing.outcomeOf, ← h, Shell.Ending.exitCode, Shell.Ending.signal?,
      Outcome.passed, Signal.exitCode, Fate.status, Fate.succeeded]
  | timedOut =>
    simp only [Fate.ending?, Option.some.injEq] at h
    simp [Landing.outcome, Landing.outcomeOf, ← h, codeTimedOut, Outcome.passed, Fate.status,
      Fate.succeeded]

/-! ### From fates to the status byte -/

/-- The status byte of a session whose steps came to `result`. -/
def statusOf : Except Failure (List Step) → Nat
  | .error f => statusByte f.exitCode
  | .ok steps => statusByte (Summary.exitCode { mode := .fix, steps := steps, activated := false })

/-- The code of a fate is not changed when it is narrowed to a byte. -/
theorem statusByte_status (fate : Fate) : statusByte fate.status = fate.status := by
  have hlt := fate.status_lt
  rw [statusByte, if_pos (by omega), Int.toNat_natCast]

/-- After steps that passed, a step that did not pass decides the status byte. -/
theorem statusOf_stopped {done : List Step} (hdone : ∀ step ∈ done, step.passed = true) {last : Step}
    {fate : Fate} (hcode : last.outcome.exitCode = fate.status)
    (hpassed : last.passed = fate.succeeded) (hfate : fate.succeeded = false) :
    statusOf (.ok (done ++ [last])) = fate.status := by
  have hfind : (done ++ [last]).find? (fun step => !step.passed) = some last := by
    rw [List.find?_append, List.find?_eq_none.mpr (by simpa using hdone)]
    simp [hpassed, hfate]
  have hne : last.outcome.exitCode ≠ 0 := by
    have hstatus : fate.status ≠ 0 := by
      rw [ne_eq, fate.status_eq_zero_iff, hfate]
      decide
    rw [hcode]
    omega
  rw [statusOf, Summary.exitCode, Summary.failedStep?, hfind]
  simp only [ne_eq, hne, not_false_eq_true, ↓reduceIte]
  rw [hcode, statusByte_status]

/-- **Tools that meet their fates bring a sequence of steps to the status of the chain.** -/
theorem statusOf_performFrom {launcher : Launcher} {cond : Conditions} {fates : Tool → Fate}
    {plan : List (Tool × CommandLine)} {s : Surroundings} (h : MeetsAll launcher cond fates plan s)
    {done : List Step} (hdone : ∀ step ∈ done, step.passed = true) (shown : List Console.Event) :
    statusOf (performFrom (Launched.performer launcher) cond done shown s plan).result =
      chainStatus (plan.map fun step => fates step.1) := by
  -- The steps done before the first failure all passed; that is what the induction keeps.
  induction h generalizing done shown with
  | nil s =>
    have hzero := (Summary.exitCode_eq_zero_iff
      { mode := .fix, steps := done, activated := false }).mpr hdone
    simp only [performFrom, statusOf, hzero]
    rfl
  | @stop t c rest s s' hmeets hfate =>
    rw [List.map_cons, chainStatus, hfate]
    generalize fates t = fate at hmeets hfate
    cases hmeets with
    | missing hmissing =>
      simp [performFrom, Launched.performer, hmissing, statusOf, statusByte, Failure.exitCode,
        Failure.codeNotFound, Fate.status]
    | unstartable fault hfound hlaunch =>
      simp [performFrom, Launched.performer, Launched.execute, hfound, hlaunch, statusOf, statusByte,
        Failure.exitCode, Fate.status]
    | ended landing _ hfound hlaunch hending =>
      obtain ⟨hcode, hpassed⟩ := outcome_of_ending? hending cond.capture
      simp only [performFrom, Launched.performer, Launched.execute, hfound, hlaunch, hpassed, hfate,
        Bool.false_eq_true, ↓reduceIte]
      exact statusOf_stopped hdone hcode hpassed hfate
  | @next t c rest s s' hmeets hfate hrest ih =>
    rw [List.map_cons, chainStatus, if_pos hfate]
    generalize fates t = fate at hmeets hfate
    cases hmeets with
    | missing hmissing => cases hfate
    | unstartable fault hfound hlaunch => cases hfate
    | ended landing _ hfound hlaunch hending =>
      obtain ⟨hcode, hpassed⟩ := outcome_of_ending? hending cond.capture
      simp only [performFrom, Launched.performer, Launched.execute, hfound, hlaunch, hpassed, hfate,
        ↓reduceIte]
      apply ih
      intro step hstep
      rcases List.mem_append.mp hstep with hstep | hstep
      · exact hdone step hstep
      · rw [List.mem_singleton] at hstep
        rw [hstep]
        exact hpassed.trans hfate

/-- **The tools of a run meet their fates**, in a working directory that is there and once the environment
is activated. -/
structure Pipeline.Fated (launcher : Launcher) (settings : Settings) (mode : Mode) (s : Surroundings)
    (fates : Tool → Fate) : Prop where
  directory : ∃ dir, s.directory = .ok dir
  meets :
    let activated := activate launcher s s.cwd.path (Text.bytes settings.pipeline.activate)
      settings.pipeline.shell
    ∀ limit, settings.limit = .ok limit →
      MeetsAll launcher (conditions settings s.cwd.path limit activated.env) fates (settings.plan mode)
        { s with files := activated.files }

/-! ### A host for any fates -/

namespace Rehearsal

/-- The files of a host on which some of the tools are installed. -/
def files (installed : Tool → Bool) : Host.FileTree :=
  { entries := ([Text.bytes "bin"], .directory) :: (Tool.all.filter installed).map fun t =>
      ([Text.bytes "bin", Text.bytes t.name], .file [] true) }

/-- A process on such a host. -/
def surroundings (installed : Tool → Bool) : Surroundings :=
  { files := files installed
    cwd := []
    env := Environment.empty.set Environment.pathKey (Text.bytes "/bin") }

/-- Whether a tool with some fate is installed. -/
def installed : Fate → Bool
  | .missing => false
  | _ => true

/-- A launcher under which a tool meets its fate and changes no file. -/
def launcher (fates : Tool → Fate) : Launcher := fun l s =>
  match Tool.all.find? fun t => Text.bytes t.name = l.program with
  | none => .error (.described "no tool")
  | some t =>
    match fates t with
    | .unstartable fault => .error fault
    | fate => .ok
        { ending := fate.ending?.getD none, stdout := [], stderr := [], elapsed := .zero
          held := false, files := s.files }

/-- A choice for each tool. -/
def byTool {α : Type} (i b f m : α) : Tool → α
  | .isort => i
  | .black => b
  | .flake8 => f
  | .mypy => m

theorem byTool_self {α : Type} (g : Tool → α) :
    byTool (g .isort) (g .black) (g .flake8) (g .mypy) = g := by
  funext t
  cases t <;> rfl

/-- Whatever is installed, there is no settings file and no activation script, and exactly the
installed tools are found. -/
theorem surroundings_spec (installed : Tool → Bool) :
    let s := surroundings installed
    s.files.exists? s.cwd (Settings.defaultPath (Session.site s)) = false ∧
      s.files.isFile s.cwd (Host.Path.join s.cwd.path (Text.bytes "venv/bin/activate")) = false ∧
      Tool.all.map (fun t => ((Launched.viewpoint s).find? (Text.bytes t.name) s.cwd.path
        (s.env.get? Environment.pathKey)).isSome) = Tool.all.map installed := by
  have hall : ∀ i b f m : Bool,
      let s := surroundings (byTool i b f m)
      s.files.exists? s.cwd (Settings.defaultPath (Session.site s)) = false ∧
        s.files.isFile s.cwd (Host.Path.join s.cwd.path (Text.bytes "venv/bin/activate")) = false ∧
        Tool.all.map (fun t => ((Launched.viewpoint s).find? (Text.bytes t.name) s.cwd.path
          (s.env.get? Environment.pathKey)).isSome) = Tool.all.map (byTool i b f m) := by
    decide +kernel
  rw [← byTool_self installed]
  exact hall _ _ _ _

/-- The session of such a host uses the default settings. -/
theorem loadOrDefault_surroundings (installed : Tool → Bool) :
    Settings.loadOrDefault (Session.site (surroundings installed)) none = .ok {} :=
  Settings.loadOrDefault_of_fileless ⟨rfl, ⟨_, rfl⟩, (surroundings_spec installed).1⟩

/-- Nothing is activated on such a host. -/
theorem activate_surroundings (launcher : Launcher) (installed : Tool → Bool) :
    activate launcher (surroundings installed) (surroundings installed).cwd.path
      (Text.bytes "venv/bin/activate") "sh" =
      ⟨none, [Activation.missingEvent (Host.Path.join (surroundings installed).cwd.path
        (Text.bytes "venv/bin/activate"))], (surroundings installed).files⟩ := by
  rw [activate, (surroundings_spec installed).2.1]
  rfl

/-- The conditions of a run with the default settings on such a host, where nothing is activated. -/
def conditions (installed : Tool → Bool) : Conditions :=
  Pipeline.conditions {} (surroundings installed).cwd.path none none

/-- A tool is found on such a host if it is installed. -/
theorem locate_surroundings (installed : Tool → Bool) (t : Tool) :
    (Launched.locate (surroundings installed) (Text.bytes t.name) (conditions installed)).isSome =
      installed t :=
  List.map_inj_left.mp (surroundings_spec installed).2.2 t (Tool.mem_all t)

/-- The tool of a program's name is the one that the launcher has in mind. -/
theorem find_name (t : Tool) :
    (Tool.all.find? fun u => Text.bytes u.name = Text.bytes t.name) = some t := by
  cases t <;> decide

/-- What the launcher answers for a tool. -/
theorem launcher_launch (fates : Tool → Fate) (t : Tool) (c : CommandLine) (cond : Conditions)
    (s : Surroundings) (hprogram : c.program = t.name) :
    launcher fates (Launched.launch c cond) s =
      match fates t with
      | .unstartable fault => .error fault
      | fate => .ok
          { ending := fate.ending?.getD none, stdout := [], stderr := [], elapsed := .zero
            held := false, files := s.files } := by
  simp only [launcher, Launched.launch, hprogram, find_name]

/-- On such a host a tool meets its fate. -/
theorem meets (fates : Tool → Fate) (there : Tool → Bool) (t : Tool) (c : CommandLine)
    (hthere : there t = installed (fates t)) (hprogram : c.program = t.name) :
    Meets (launcher fates) (conditions there) c (surroundings there) (fates t)
      (surroundings there) := by
  have hlocate := locate_surroundings there t
  have hlaunch := launcher_launch fates t c (conditions there) (surroundings there) hprogram
  rw [← hprogram, hthere] at hlocate
  generalize fates t = fate at hlocate hlaunch
  cases fate with
  | missing => exact .missing (Option.isSome_eq_false_iff.mp hlocate |> Option.isNone_iff_eq_none.mp)
  | unstartable fault => exact .unstartable fault hlocate hlaunch
  | _ => exact .ended _ _ hlocate hlaunch rfl

/-- On such a host the tools of a run with the default settings meet their fates. -/
theorem fated (fates : Tool → Fate) (mode : Mode) :
    Pipeline.Fated (launcher fates) {} mode (surroundings fun t => installed (fates t)) fates := by
  have hall (tools : List Tool) : MeetsAll (launcher fates) (conditions fun t => installed (fates t))
      fates (tools.map fun t => (t, t.commandLine {} mode))
      (surroundings fun t => installed (fates t)) := by
    induction tools with
    | nil => exact .nil _
    | cons t rest ih =>
      have hprogram : (t.commandLine {} mode).program = t.name := by cases t <;> rfl
      have hmeets := meets fates (fun t => installed (fates t)) t _ rfl hprogram
      cases hfate : (fates t).succeeded with
      | false => exact .stop hmeets hfate
      | true => exact .next hmeets hfate ih
  refine ⟨⟨_, rfl⟩, fun limit hlimit => ?_⟩
  rw [activate_surroundings]
  cases hlimit
  exact hall Tool.all

end Rehearsal

/-! ### Sessions -/

namespace Session

/-- The status of a run is that of its steps. -/
theorem status_run {launcher : Launcher} {s : Surroundings} {config : Option Bytes} {args : RunArgs}
    {settings : Settings} (hsettings : Settings.loadOrDefault (site s) config = .ok settings)
    {limit : Option Duration} (hlimit : settings.limit = .ok limit) {dir : Bytes}
    (hdir : s.directory = .ok dir) :
    let activated := activate launcher s s.cwd.path (Text.bytes settings.pipeline.activate)
      settings.pipeline.shell
    (run launcher s config args).status =
      statusOf (QualityGate.perform (Launched.performer launcher)
        (Pipeline.conditions settings s.cwd.path limit activated.env) (settings.plan args.mode)
        { s with files := activated.files }).result := by
  intro activated
  simp only [run, withSettings, hsettings, runBy, hdir, Pipeline.run, Pipeline.runWith, hlimit,
    Pipeline.performIn]
  cases (QualityGate.perform (Launched.performer launcher)
    (Pipeline.conditions settings s.cwd.path limit activated.env) (settings.plan args.mode)
    { s with files := activated.files }).result with
  | error f => rfl
  | ok steps => rfl

/-- **A session that runs the pipeline has the status of its tools joined by `&&`.** -/
theorem status_start (launcher : Launcher) (argv : List Bytes) (s : Surroundings) (r : Request)
    (args : RunArgs) (settings : Settings) (fates : Tool → Fate)
    (hparse : Args.parse argv = .ok r) (hrun : r.effective = .run args)
    (hsettings : Settings.loadOrDefault (site s) r.config = .ok settings)
    (hfates : Pipeline.Fated launcher settings args.mode s fates) :
    (start launcher argv s).status = chainStatus (Tool.all.map fates) ∧
      ((start launcher argv s).status = 0 ↔ ∀ t, fates t = .exited 0) := by
  obtain ⟨limit, hlimit⟩ :=
    Settings.limit_of_validate (Settings.validate_of_loadOrDefault hsettings)
  have hstatus : (start launcher argv s).status = chainStatus (Tool.all.map fates) := by
    have hnone : ∀ step ∈ ([] : List Step), step.passed = true := fun _ h => nomatch h
    -- no step was performed before the first tool
    have hsteps := statusOf_performFrom (hfates.meets limit hlimit) hnone []
    obtain ⟨dir, hdir⟩ := hfates.directory
    rw [Settings.plan, List.map_map] at hsteps
    simp only [start, hparse, perform, hrun]
    rw [status_run hsettings hlimit hdir]
    exact hsteps
  refine ⟨hstatus, ?_⟩
  rw [hstatus, chainStatus_eq_zero_iff]
  constructor
  · intro h t
    exact (fates t).succeeded_iff.mp (h _ (List.mem_map_of_mem (Tool.mem_all t)))
  · intro h fate hfate
    obtain ⟨t, -, rfl⟩ := List.mem_map.mp hfate
    exact (fates t).succeeded_iff.mpr (h t)

/-- A tool that is killed keeps the tools after it from running, and its signal shows in the status. -/
theorem status_start_killed :
    let fates := Rehearsal.byTool (.exited 0) (.killed 9 (by decide) (by decide)) .timedOut .missing
    let s := Rehearsal.surroundings fun t => Rehearsal.installed (fates t)
    (start (Rehearsal.launcher fates) [Text.bytes "run"] s).status = 137 := by
  intro fates s
  have hstatus := status_start (Rehearsal.launcher fates) [Text.bytes "run"] s
    { command := some (.run {}) } {} {} fates rfl rfl (Rehearsal.loadOrDefault_surroundings _)
    (Rehearsal.fated fates .fix)
  exact hstatus.1

end Session
end QualityGate
