import QualityGate.Proofs.Run.Modes
import QualityGate.Proofs.Settings.Acceptance
/-!
## Runs with accepted settings

What `Settings.validate` looks at is what the other readers of the settings rely on: the command lines
(`Tool.commandLine`) and the time limit (`Settings.limit`).

* `Tool.Sound`: a command line whose program and arguments hold more than blanks, but for the extra
  arguments. `Tool.sound_commandLine`: those of settings that make sense are sound.
* `validate_accounted`: which settings are accepted and which field is named if they are not, and what
  every run with accepted settings can rely on.
-/

namespace QualityGate

/-! ### Numbers are no blanks -/

namespace Text

theorem filled_toString (n : ℕ) : Filled (toString n) := by
  have hne : (toString n).toList ≠ [] := by
    rw [Nat.toString_eq_repr, Nat.repr, String.toList_ofList]
    exact Nat.toDigits_ne_nil
  obtain ⟨c, hc⟩ := List.exists_mem_of_ne_nil _ hne
  exact ⟨c, hc, isBlank_of_isDigit (Tool.isDigit_of_mem_toString hc)⟩

end Text

/-! ### Command lines without blanks -/

namespace Tool

open Text (Filled)

/-- The paths that a tool is given. -/
def paths (s : Settings) : Tool → List String
  | isort => [s.isort.settingsPath, s.isort.target]
  | black => [s.black.target]
  | flake8 => [s.flake8.config]
  | mypy => [s.mypy.target]

/-- **A command line without blanks**: the program holds more than blanks, and so does each argument
that stands before or after the extra ones. The paths are among these. -/
structure Sound (t : Tool) (s : Settings) (c : CommandLine) : Prop where
  program : Filled c.program
  args : ∃ before after, c.args = before ++ (s.overrides t).extraArgs ++ after ∧
    (∀ arg ∈ before ++ after, Filled arg) ∧ ∀ path ∈ t.paths s, path ∈ before ++ after

theorem filled_name (t : Tool) : Filled t.name := by
  cases t <;> decide

theorem filled_programOr {s : Settings} {t : Tool}
    (h : (Setting.program t).MakesSense ((Setting.program t).get s)) :
    Filled ((s.overrides t).programOr t.name) := by
  rw [Overrides.programOr]
  cases hprogram : (s.overrides t).program with
  | none => exact t.filled_name
  | some program => exact h program hprogram

theorem filled_blackFlags (b : BlackTable) (mode : Mode) : ∀ arg ∈ blackFlags b mode, Filled arg := by
  intro arg harg
  simp only [blackFlags, List.mem_append, List.mem_cons, List.not_mem_nil, or_false] at harg
  rcases harg with ((rfl | rfl) | hskip) | hcheck
  · decide
  · exact Text.filled_toString _
  · split at hskip
    · rw [List.mem_singleton.mp hskip]
      decide
    · cases hskip
  · split at hcheck
    · rw [List.mem_singleton.mp hcheck]
      decide
    · cases hcheck

theorem program_commandLine (t : Tool) (s : Settings) (mode : Mode) :
    (t.commandLine s mode).program = (s.overrides t).programOr t.name := by
  cases t <;> rfl

/-- **The command lines of settings that make sense are sound.** -/
theorem sound_commandLine {s : Settings}
    (h : ∀ (α : Type) (k : Setting α), k.MakesSense (k.get s)) (t : Tool) (mode : Mode) :
    t.Sound s (t.commandLine s mode) := by
  constructor
  · rw [program_commandLine]
    exact filled_programOr (h _ (.program t))
  · cases t with
    | isort =>
      refine ⟨["--settings-path", s.isort.settingsPath], [s.isort.target], rfl, ?_, by simp [paths]⟩
      simp only [List.cons_append, List.nil_append, List.forall_mem_cons]
      exact ⟨by decide, h _ .settingsPath, h _ .isortTarget, by simp⟩
    | black =>
      refine ⟨blackFlags s.black mode, [s.black.target], rfl, ?_, by simp [paths]⟩
      rw [List.forall_mem_append, List.forall_mem_singleton]
      exact ⟨filled_blackFlags s.black mode, h _ .blackTarget⟩
    | flake8 =>
      refine ⟨["--config", s.flake8.config], [], ?_, ?_, by simp [paths]⟩
      · rw [List.append_nil]
        rfl
      · rw [List.append_nil, List.forall_mem_cons, List.forall_mem_singleton]
        exact ⟨by decide, h _ .flake8Config⟩
    -- nothing is given in front of its extra arguments
    | mypy =>
      refine ⟨[], [s.mypy.target], rfl, ?_, by simp [paths]⟩
      rw [List.nil_append, List.forall_mem_singleton]
      exact h _ .mypyTarget

end Tool

/-! ### The limit of every call -/

namespace Pipeline

/-- **Every call of a run has the time limit of its settings.** -/
theorem runWith_limit {settings : Settings} {limit : Option Duration}
    (hlimit : settings.limit = .ok limit) {σ : Type} (launcher : Launcher) (p : Performer σ)
    (start : Host.FileTree → σ) (root : Bytes) (mode : Mode) (s : Surroundings) :
    ∀ call ∈ (runWith launcher p.recorded (fun files => (start files, [])) settings root mode s).2.2.2,
      call.conditions.limit = limit := by
  rw [runWith_of_limit _ _ _ hlimit]
  dsimp only
  obtain ⟨log, result, hcourse, -, hrecorded⟩ := performIn_recorded p settings root limit _ mode _
  -- all calls of a course are made under the conditions of its start
  intro call hcall
  rw [hrecorded] at hcall
  rw [hcourse.conditions_eq call hcall]
  rfl

end Pipeline

/-! ### Accepted settings -/

namespace Settings

/-- **What is accepted, and what runs can rely on then.** Settings are accepted exactly if each of them
makes sense; if one does not and the timeout is not out of range, the first one at fault is named.
Every command line of a plan for accepted settings is sound. They have a time limit exactly if a
timeout is set, and so has every call of every run. -/
theorem validate_accounted (s : Settings) :
    (s.validate = .ok () ↔ ∀ (α : Type) (k : Setting α), k.MakesSense (k.get s)) ∧
    (s.limit ≠ .error .overflow → (¬∀ (α : Type) (k : Setting α), k.MakesSense (k.get s)) →
      ∃ k, s.FirstAtFault k ∧ s.validate = .error (.failed (k.2.fault s))) ∧
    (s.validate = .ok () →
      (∀ mode, ∀ step ∈ s.plan mode, step.1.Sound s step.2) ∧
      (∃ limit, s.limit = .ok limit ∧ limit.isSome = s.pipeline.timeout.isSome) ∧
      ∀ {σ : Type} (launcher : Launcher) (p : Performer σ) (start : Host.FileTree → σ) (root : Bytes)
        (mode : Mode) (surroundings : Surroundings),
        ∀ call ∈ (Pipeline.runWith launcher p.recorded (fun files => (start files, [])) s root mode
          surroundings).2.2.2,
          call.conditions.limit.isSome = s.pipeline.timeout.isSome) := by
  rcases s.validate_cases with ⟨hvalid, hsense, limit, hlimit, hset⟩ | ⟨k, hfirst, hvalid, -⟩ |
    ⟨htimeout, hvalid, hlimit⟩
  · refine ⟨iff_of_true hvalid hsense, fun _ h => absurd hsense h, fun _ => ⟨?_, ?_, ?_⟩⟩
    · intro mode step hstep
      obtain ⟨t, -, rfl⟩ := List.mem_map.mp hstep
      exact Tool.sound_commandLine hsense t mode
    · exact ⟨limit, hlimit, hset⟩
    · intro σ launcher p start root mode surroundings call hcall
      rw [Pipeline.runWith_limit hlimit launcher p start root mode surroundings call hcall]
      exact hset
  · have hsenseless : ¬∀ (α : Type) (k : Setting α), k.MakesSense (k.get s) := by
      obtain ⟨-, -, -, -, hk⟩ := hfirst
      exact fun h => hk (h _ k.2)
    rw [hvalid]
    exact ⟨iff_of_false nofun hsenseless, fun _ _ => ⟨k, hfirst, rfl⟩, nofun⟩
  · have hsenseless : ¬∀ (α : Type) (k : Setting α), k.MakesSense (k.get s) :=
      fun h => htimeout (h _ .timeout)
    rw [hvalid]
    exact ⟨iff_of_false nofun hsenseless, fun h => absurd hlimit h, nofun⟩

/-- Settings with a timeout of a minute and a half are accepted, and no call is without a limit. -/
theorem validate_accounted_limited :
    let s := ({} : Settings).withTimeout (some "1m 30s")
    s.validate = .ok () ∧ (∀ mode, ∀ step ∈ s.plan mode, step.1.Sound s step.2) ∧
      ∀ mode, ∀ call ∈ (Pipeline.runWith Launcher.real Pipeline.thirdFails.recorded
        (fun _ => ([], [])) s [] mode default).2.2.2, call.conditions.limit.isSome = true := by
  intro s
  have hvalid : s.validate = .ok () := by decide +kernel
  obtain ⟨hplan, -, hcalls⟩ := (validate_accounted s).2.2 hvalid
  exact ⟨hvalid, hplan, fun mode =>
    hcalls Launcher.real Pipeline.thirdFails (fun _ => []) [] mode default⟩

end Settings
end QualityGate
