import QualityGate.Proofs.Args.Listing
import QualityGate.Proofs.Run.Announced
import QualityGate.Proofs.Session.ExitStatus
/-!
## A listing foretells the runs

`list` shows the command lines of the plan by which `run` goes, so every run in the same mode executes
the first of them, in the order in which they are listed.

* `filterMap_listed?_planLines`: the command lines that a listing shows are those of its plan.
* `announced?_runBy`: a run announces nothing but what its pipeline does.
* `list_foretells_run`: both together, and that both commands come by their mode in the same way.
-/

namespace QualityGate

open Console (Event inColour plain dim)

/-! ### Listed command lines -/

/-- **The command line that a line of a listing shows**: what stands behind five spaces. -/
def listed? : Event → Option String
  | .out [piece] =>
    match piece.text.toList with
    | ' ' :: ' ' :: ' ' :: ' ' :: ' ' :: text => some (String.ofList text)
    | _ => none
  | _ => none

namespace Session

variable {launcher : Launcher} {s : Surroundings} {config : Option Bytes}

/-- The lines about the steps show their command lines. -/
theorem filterMap_listed?_stepLines (plan : List (Tool × CommandLine)) (n : ℕ) :
    ((plan.zipIdx n).flatMap fun p => stepLines (p.2 + 1) p.1).filterMap listed? =
      plan.map fun step => step.2.render := by
  induction plan generalizing n with
  | nil => rfl
  | cons step plan ih =>
    have hhere : (stepLines (n + 1) step).filterMap listed? = [step.2.render] := by
      simp [List.filterMap_cons, stepLines, listed?, plain]
    rw [List.zipIdx_cons, List.flatMap_cons, List.filterMap_append, ih, hhere]
    rfl

/-- **The command lines of a listing** are those of the plan. -/
theorem filterMap_listed?_planLines (settings : Settings) (mode : Mode) :
    (planLines settings mode).filterMap listed? =
      ((settings.plan mode).map Prod.snd).map CommandLine.render := by
  have hhead : listed? (.out [Console.bold ("Pipeline (" ++ mode.name ++ " mode):")]) = none := by
    cases mode <;> rfl
  have hscript : listed? (.out [plain ("  activate: " ++ settings.pipeline.activate ++
      " (if present)")]) = none := by
    simp [listed?, plain]
  rw [planLines, List.filterMap_cons_none hhead, List.filterMap_cons_none hscript,
    filterMap_listed?_stepLines, List.map_map]
  rfl

/-- The record about the settings file is read as no line of either kind. -/
theorem filterMap_loadedEvents {α : Type} {f : Event → Option α} (hf : ∀ r, f (.log r) = none) :
    (loadedEvents s config).filterMap f = [] := by
  unfold loadedEvents
  split
  · exact List.filterMap_cons_none (hf _)
  · exact List.filterMap_cons_none (hf _)
  · rfl

/-! ### What a run shows besides -/

theorem announced?_modeLine (mode : Mode) : announced? (modeLine mode) = none := by
  simp [announced?, modeLine, plain]

/-- The record about arguments without effect is no line. -/
theorem errLines_ignoredEvents (args : RunArgs) : errLines (ignoredEvents args) = [] := by
  unfold ignoredEvents
  split <;> rfl

/-- The lines that close a run announce nothing. -/
theorem announced?_closing (settings : Settings) (r : Summary) :
    (closing settings r).filterMap announced? = [] := by
  have hexcerpt (o : Outcome) : (excerpt o).filterMap announced? = [] := by
    rw [excerpt, List.filterMap_map, List.filterMap_eq_nil_iff]
    exact fun line _ => rfl
  have hactivated (record : Console.Record) :
      (if r.activated then [Event.log record] else []).filterMap announced? = [] := by
    split <;> rfl
  unfold closing
  rw [List.filterMap_append, hactivated, List.nil_append, List.filterMap_cons_none rfl]
  split
  · rfl
  · rw [List.filterMap_cons_none rfl]
    split
    · exact hexcerpt _
    · rfl

/-- **A run announces nothing but what its pipeline does.** -/
theorem announced?_runBy (launcher : Launcher) (args : RunArgs) (settings : Settings) {dir : Bytes}
    (hdir : s.directory = .ok dir) {loaded : List Event} (hloaded : loaded.filterMap announced? = []) :
    (runBy launcher s args settings loaded).events.filterMap announced? =
      (Pipeline.run launcher settings args.mode s).events.filterMap announced? := by
  have hopening : (loaded ++ ignoredEvents args ++ [modeLine args.mode]).filterMap announced? = [] := by
    rw [List.filterMap_append, List.filterMap_append, hloaded,
      filterMap_announced?_of_errLines (errLines_ignoredEvents args),
      List.filterMap_cons_none (announced?_modeLine _)]
    rfl
  rw [runBy, hdir]
  dsimp only
  split
  · rename_i h _
    cases h with
    | failed f =>
      rw [halted, List.filterMap_append, List.filterMap_append, hopening,
        List.filterMap_cons_none rfl]
      simp
    | overflow =>
      rw [halted, List.filterMap_append, hopening, List.nil_append]
  · rw [List.filterMap_append, List.filterMap_append, hopening, announced?_closing]
    simp

/-! ### Both commands -/

/-- **The calls that a run makes**; without settings it makes none, nor in a directory that is gone. -/
def calls (launcher : Launcher) (s : Surroundings) (config : Option Bytes) (args : RunArgs) :
    List Call :=
  match Settings.loadOrDefault (site s) config, s.directory with
  | .ok settings, .ok _ => Pipeline.calls launcher settings args.mode s
  | _, _ => []

/-- **A listing foretells the runs.** `list` is in check mode exactly if the flag is one of its
arguments, and a run if it is its first one. With the same settings file and in the same mode, both end
alike without settings, or in a working directory that is gone; otherwise the four command lines that
`list` shows are those of which every run executes the first ones, stopping early only after a call that
stops it, and which it announces where output is not kept back. As in every `FileTree`, there are no
links and no path is too long. -/
theorem list_foretells_run (s : Surroundings) (config : Option Bytes) (mode : Mode) :
    (∀ launcher words r, Args.parse (Text.bytes "list" :: words) = .ok r →
      start launcher (Text.bytes "list" :: words) s =
        list s r.config (Mode.ofFlag (decide (Text.bytes "--check" ∈ words)))) ∧
    (∀ args : RunArgs, args.mode = Mode.ofFlag (decide (args.args.head? = some "--check"))) ∧
    ((∃ h, Settings.loadOrDefault (site s) config = .error h ∧ list s config mode = halted h [] s ∧
        ∀ launcher args, run launcher s config args = halted h [] s ∧
          calls launcher s config args = []) ∨
      (∃ settings e, Settings.loadOrDefault (site s) config = .ok settings ∧ s.directory = .error e ∧
        list s config mode = halted (.failed (.directoryGone e)) (loadedEvents s config) s ∧
        ∀ launcher args, run launcher s config args =
            halted (.failed (.directoryGone e)) (loadedEvents s config ++ ignoredEvents args) s ∧
          calls launcher s config args = []) ∨
      ∃ settings dir, ∃ lines : List CommandLine,
        Settings.loadOrDefault (site s) config = .ok settings ∧ s.directory = .ok dir ∧
        lines.length = 4 ∧ (list s config mode).status = 0 ∧
        (list s config mode).events.filterMap listed? = lines.map CommandLine.render ∧
        ∀ launcher (args : RunArgs), args.mode = mode →
          ∃ k ≤ 4,
            (calls launcher s config args).filterMap Call.executed? = lines.take k ∧
            (k < 4 → ∃ call, (calls launcher s config args).getLast? = some call ∧ call.Stops) ∧
            (run launcher s config args).events.filterMap announced? =
              if settings.pipeline.captureOutput then []
              else (lines.take k).map CommandLine.render) := by
  refine ⟨?_, ?_, ?_⟩
  · intro launcher words r hparse
    rw [start, hparse]
    dsimp only
    rw [perform, Args.parse_list hparse]
    rfl
  · intro args
    rw [RunArgs.mode]
    cases args.args.head? with
    | none => rfl
    | some first =>
      by_cases hfirst : first = "--check" <;>
        simp [Mode.ofFirstArg, Mode.checkFlag, Mode.ofFlag, hfirst]
  · cases hloaded : Settings.loadOrDefault (site s) config with
    | error h =>
      refine Or.inl ⟨h, rfl, ?_, fun launcher args => ⟨?_, ?_⟩⟩
      · rw [list, withSettings, hloaded]
      · rw [run, withSettings, hloaded]
      · rw [calls, hloaded]
    | ok settings =>
      -- both commands go by the same settings, so by one plan
      have hnext := withSettings_of_load hloaded
      cases hdir : s.directory with
      | error e =>
        refine Or.inr (Or.inl ⟨settings, e, rfl, rfl, ?_, fun launcher args => ⟨?_, ?_⟩⟩)
        · rw [list, hnext, listBy_of_gone hdir]
        · rw [run, hnext, runBy_of_gone hdir]
        · rw [calls, hloaded, hdir]
      | ok dir =>
        -- settings of a session are accepted ones, so the time limit is not out of range
        obtain ⟨limit, hlimit⟩ :=
          Settings.limit_of_validate (Settings.validate_of_loadOrDefault hloaded)
        have hlist : list s config mode =
            ⟨statusDone, loadedEvents s config ++ planLines settings mode, s⟩ := by
          rw [list, hnext, listBy, hdir]
        refine Or.inr (Or.inr ⟨settings, dir, (settings.plan mode).map Prod.snd, rfl, rfl, rfl, ?_, ?_,
          ?_⟩)
        · rw [hlist]
          rfl
        · rw [hlist, List.filterMap_append, filterMap_loadedEvents fun _ => rfl,
            filterMap_listed?_planLines]
          rfl
        · rintro launcher args rfl
          obtain ⟨k, hk, hexecuted, hstops, hannounced⟩ :=
            Pipeline.run_announces launcher hlimit args.mode s
          have hcalls : calls launcher s config args = Pipeline.calls launcher settings args.mode s := by
            rw [calls, hloaded, hdir]
          rw [hcalls]
          refine ⟨k, hk, hexecuted, hstops, ?_⟩
          rw [run, hnext, announced?_runBy _ _ _ hdir (filterMap_loadedEvents fun _ => rfl)]
          exact hannounced

/-- **A run that a failed step stops** executes and announces the first two of the four command lines
that are listed. -/
theorem list_foretells_run_failed :
    let fates := Rehearsal.byTool (.exited 0) (.exited 1) (.exited 0) (.exited 0)
    let s := Rehearsal.surroundings fun t => Rehearsal.installed (fates t)
    let launcher := Rehearsal.launcher fates
    (list s none .check).events.filterMap listed? = ["isort --settings-path .isort.cfg .",
        "black --line-length 120 --skip-string-normalization --check .",
        "flake8 --config .flake8", "mypy ."] ∧
      ((calls launcher s none ⟨["--check"]⟩).filterMap Call.executed?).length = 2 ∧
      (run launcher s none ⟨["--check"]⟩).events.filterMap announced? =
        ["isort --settings-path .isort.cfg .",
          "black --line-length 120 --skip-string-normalization --check ."] := by
  intro fates s launcher
  have hloaded : Settings.loadOrDefault (site s) none = .ok {} := Rehearsal.loadOrDefault_surroundings _
  have hdir : s.directory = .ok s.cwd.path := rfl
  have hlisted : (list s none .check).events.filterMap listed? = ["isort --settings-path .isort.cfg .",
      "black --line-length 120 --skip-string-normalization --check .",
      "flake8 --config .flake8", "mypy ."] := by decide +kernel
  have hexecuted : ((calls launcher s none ⟨["--check"]⟩).filterMap Call.executed?).length = 2 := by
    decide +kernel
  refine ⟨hlisted, hexecuted, ?_⟩
  obtain ⟨-, -, ⟨h, hfailed, -⟩ | ⟨_, e, -, hgone, -⟩ |
    ⟨settings, dir, lines, hsettings, -, hfour, -, hlines, hrun⟩⟩ := list_foretells_run s none .check
  · rw [hloaded] at hfailed
    cases hfailed
  · rw [hdir] at hgone
    cases hgone
  · rw [hloaded] at hsettings
    cases hsettings
    obtain ⟨k, hk, hcalls, -, hannounced⟩ := hrun launcher ⟨["--check"]⟩ rfl
    -- two command lines were executed, so the first two are announced
    rw [hcalls, List.length_take, hfour, Nat.min_eq_left hk] at hexecuted
    rw [hannounced, hexecuted, List.map_take, ← hlines, hlisted]
    rfl

end Session
end QualityGate
