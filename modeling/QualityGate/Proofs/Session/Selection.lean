import Mathlib.Data.List.Basic
import QualityGate.Proofs.Host.FileTree
import QualityGate.Session.Commands
/-!
## The settings that the commands go by

`validate`, `run` and `list` each look for the settings file on their own, and only the first of them
minds that the default file is missing.

* `loadChosen_eq_load` and `loadOrDefault_eq_loadChosen`: both ways of loading come down to reading the
  chosen file, but for a session without one (`Fileless`).
* `goes_by_chosen_file`: a file that `validate` accepts is the one that `run` and `list` go by, and any
  other failure that it reports stops them before they do anything.

How `run` and `list` end without settings is `StopsWith`.
-/

namespace QualityGate

open Console (Event plain inColour)

namespace Settings

variable {site : Site} {config : Option Bytes}

theorem isPlain_fileName : Host.Path.IsPlain fileName := by decide

/-! ### Loading -/

/-- Loading a file that is missing says so. -/
theorem load_of_missing {path : Bytes} (h : site.files.exists? site.cwd path = false) :
    load site path = .error (.failed (.settingsNotFound path)) := by
  rw [load, h]
  rfl

/-- A file whose settings were loaded is there. -/
theorem exists_of_load {path : Bytes} {settings : Settings} (h : load site path = .ok settings) :
    site.files.exists? site.cwd path = true := by
  cases hthere : site.files.exists? site.cwd path with
  | true => rfl
  | false =>
    rw [load_of_missing hthere] at h
    cases h

/-- Of a file that can be read the bytes decide. -/
theorem load_of_read {path data : Bytes} (h : site.files.read site.cwd path = .ok data) :
    load site path = ofBytes path data := by
  rw [load, Host.FileTree.exists?_of_read h, h]
  rfl

/-- **A session without a settings file**: none is named, and its working directory has none. -/
structure Fileless (site : Site) (config : Option Bytes) : Prop where
  unnamed : config = none
  directory : ∃ dir, site.files.directoryPath site.cwd = .ok dir
  missing : site.files.exists? site.cwd (defaultPath site) = false

/-- In a working directory that is there, the default file is found if it is. -/
theorem find_of_directory {dir : Bytes} (h : site.files.directoryPath site.cwd = .ok dir) :
    find site =
      if site.files.exists? site.cwd (defaultPath site) then .ok (defaultPath site)
      else .error (.failed (.settingsNotFound (defaultPath site))) := by
  obtain rfl := Host.FileTree.directoryPath_eq_ok h
  rw [find, h]
  rfl

/-- A working directory that is gone is what stops the search for the default file. -/
theorem find_of_gone {e : Host.Errno} (h : site.files.directoryPath site.cwd = .error e) :
    find site = .error (.failed (.directoryGone e)) := by
  rw [find, h]

/-- A default file that is there is found. -/
theorem find_of_exists (h : site.files.exists? site.cwd (defaultPath site) = true) :
    find site = .ok (defaultPath site) := by
  rw [find_of_directory (Host.FileTree.directoryPath_of_exists isPlain_fileName h), if_pos h]

/-- A file that has to be there is read like any other one. -/
theorem loadChosen_eq_load
    (h : config = none → ∃ dir, site.files.directoryPath site.cwd = .ok dir) :
    loadChosen site config = load site (chosenPath site config) := by
  cases config with
  | some path => rfl
  | none =>
    obtain ⟨dir, hdir⟩ := h rfl
    rw [loadChosen, find_of_directory hdir, chosenPath]
    cases hthere : site.files.exists? site.cwd (defaultPath site) with
    | true => rfl
    | false => exact (load_of_missing hthere).symm

theorem loadChosen_of_gone {e : Host.Errno} (h : site.files.directoryPath site.cwd = .error e) :
    loadChosen site none = .error (.failed (.directoryGone e)) := by
  rw [loadChosen, find_of_gone h]

/-- **What is loaded is what the chosen file holds.** -/
theorem loadChosen_of_load {settings : Settings}
    (h : load site (chosenPath site config) = .ok settings) :
    loadChosen site config = .ok settings := by
  rw [loadChosen_eq_load, h]
  rintro rfl
  exact ⟨_, Host.FileTree.directoryPath_of_exists isPlain_fileName (exists_of_load h)⟩

theorem load_of_loadChosen {settings : Settings} (h : loadChosen site config = .ok settings) :
    load site (chosenPath site config) = .ok settings := by
  rwa [loadChosen_eq_load] at h
  rintro rfl
  cases hdir : site.files.directoryPath site.cwd with
  | ok dir => exact ⟨dir, rfl⟩
  | error e =>
    rw [loadChosen_of_gone hdir] at h
    cases h

/-- A session without a settings file goes by the defaults. -/
theorem loadOrDefault_of_fileless (h : Fileless site config) : loadOrDefault site config = .ok {} := by
  obtain ⟨rfl, ⟨dir, hdir⟩, hmissing⟩ := h
  rw [loadOrDefault, find_of_directory hdir, hmissing]
  rfl

/-- **Only the default file may be missing.** -/
theorem loadOrDefault_eq_loadChosen (h : ¬Fileless site config) :
    loadOrDefault site config = loadChosen site config := by
  cases config with
  | some path => rfl
  | none =>
    cases hdir : site.files.directoryPath site.cwd with
    | error e =>
      rw [loadOrDefault, loadChosen, find_of_gone hdir]
      rfl
    | ok dir =>
      cases hthere : site.files.exists? site.cwd (defaultPath site) with
      | true => rw [loadOrDefault, loadChosen, find_of_exists hthere]
      | false => exact absurd ⟨rfl, ⟨dir, hdir⟩, hthere⟩ h

/-- The settings of a file that is there are those of the session. -/
theorem loadOrDefault_of_exists
    (h : site.files.exists? site.cwd (chosenPath site config) = true) :
    loadOrDefault site config = load site (chosenPath site config) := by
  rw [loadOrDefault_eq_loadChosen, loadChosen_eq_load]
  · rintro rfl
    exact ⟨_, Host.FileTree.directoryPath_of_exists isPlain_fileName h⟩
  · rintro ⟨rfl, -, hmissing⟩
    rw [chosenPath, hmissing] at h
    cases h

end Settings

namespace Session

variable {s : Surroundings} {config : Option Bytes}

/-! ### What the commands do with settings, and without -/

/-- **A command that stops at a failure**: the failure decides the status, the report is all that is
shown, and nothing has changed. A command that does so under every launcher has launched nothing, for
a launch shows in the log and may leave its mark in the files. -/
structure StopsWith (f : Failure) (s : Surroundings) (r : Result) : Prop where
  status : (r.status : Int) = f.exitCode
  events : r.events = [.err [plain ("Error: " ++ f.report)]]
  surroundings : r.surroundings = s

/-- The exit code of a failure fits a byte. -/
theorem statusByte_exitCode (f : Failure) : (statusByte f.exitCode : Int) = f.exitCode := by
  cases f <;> rfl

theorem stopsWith_halted (f : Failure) : StopsWith f s (halted (.failed f) [] s) :=
  ⟨statusByte_exitCode f, rfl, rfl⟩

/-- What `validate` says of a failure. -/
def complaint : Failure → List Event
  | .settingsNotFound path =>
    [.err [inColour .yellow "!", plain (" Configuration not found: " ++ Text.lossy path)],
      .err [plain "  Defaults apply. Run `lint-pipeline init` to write them out."]]
  | f => [.err [inColour .red "✗", plain (" Configuration validation failed: " ++ f.report)]]

/-! ### One file for all commands -/

/-- The log names the file that was read. -/
theorem loadedEvents_of_exists
    (h : s.files.exists? s.cwd (Settings.chosenPath (site s) config) = true) :
    loadedEvents s config = [.log (Settings.loadedRecord (Settings.chosenPath (site s) config))] := by
  cases config with
  | some path => rfl
  | none =>
    have hfind : Settings.find (site s) = .ok (Settings.defaultPath (site s)) :=
      Settings.find_of_exists h
    simp [loadedEvents, hfind, Settings.chosenPath]

theorem loadedEvents_of_fileless (h : Settings.Fileless (site s) config) :
    loadedEvents s config = [] := by
  obtain ⟨rfl, ⟨dir, hdir⟩, hmissing⟩ := h
  have hfind : Settings.find (site s) =
      .error (.failed (.settingsNotFound (Settings.defaultPath (site s)))) := by
    rw [Settings.find_of_directory hdir, hmissing]
    rfl
  simp [loadedEvents, hfind]

/-- The verdict of `validate` on settings that are there and make sense. -/
theorem status_validate_of_load {settings : Settings}
    (h : Settings.loadChosen (site s) config = .ok settings) :
    (validate s config).status = statusDone := by
  rw [validate, h]

/-- The verdict of `validate` on settings that are not. -/
theorem validate_of_failure {f : Failure}
    (h : Settings.loadChosen (site s) config = .error (.failed f)) :
    validate s config = ⟨statusRefused, complaint f, s⟩ := by
  rw [validate, h]
  cases f <;> rfl

/-- A time limit out of range is no verdict. -/
theorem status_validate_of_overflow (h : Settings.loadChosen (site s) config = .error .overflow) :
    (validate s config).status = statusAborted := by
  rw [validate, h]
  rfl

/-- **What `validate` accepts** is there and can be loaded. -/
theorem status_validate_eq_zero_iff :
    (validate s config).status = 0 ↔
      s.files.exists? s.cwd (Settings.chosenPath (site s) config) = true ∧
        ∃ settings, Settings.load (site s) (Settings.chosenPath (site s) config) = .ok settings := by
  cases hchosen : Settings.loadChosen (site s) config with
  | ok settings =>
    have hload := Settings.load_of_loadChosen hchosen
    rw [status_validate_of_load hchosen]
    exact ⟨fun _ => ⟨Settings.exists_of_load hload, settings, hload⟩, fun _ => rfl⟩
  | error h =>
    -- both kinds of an error have a status of their own
    have hstatus : (validate s config).status ≠ 0 := by
      cases h with
      | failed f =>
        rw [validate_of_failure hchosen]
        exact Nat.one_ne_zero
      | overflow =>
        rw [status_validate_of_overflow hchosen]
        decide
    refine ⟨fun hzero => absurd hzero hstatus, ?_⟩
    rintro ⟨-, settings, hload⟩
    rw [Settings.loadChosen_of_load hload] at hchosen
    cases hchosen

/-- What `validate` refuses has a failure to name. -/
theorem exists_failure_of_status_validate (h : (validate s config).status = 1) :
    ∃ f, Settings.loadChosen (site s) config = .error (.failed f) := by
  cases hchosen : Settings.loadChosen (site s) config with
  | ok settings =>
    rw [status_validate_of_load hchosen] at h
    cases h
  | error halt =>
    cases halt with
    | failed f => exact ⟨f, rfl⟩
    | overflow =>
      rw [status_validate_of_overflow hchosen] at h
      cases h

/-- A command goes by the settings that it loads. -/
theorem withSettings_of_load {settings : Settings}
    (h : Settings.loadOrDefault (site s) config = .ok settings)
    (next : Settings → List Event → Result) :
    withSettings s config next = next settings (loadedEvents s config) := by
  rw [withSettings, h]

/-- Without settings a command stops. -/
theorem withSettings_of_failure {f : Failure}
    (h : Settings.loadOrDefault (site s) config = .error (.failed f))
    (next : Settings → List Event → Result) : StopsWith f s (withSettings s config next) := by
  rw [withSettings, h]
  exact stopsWith_halted f

/-- A command goes by what the chosen file holds. -/
theorem withSettings_of_chosen {settings : Settings}
    (h : Settings.load (site s) (Settings.chosenPath (site s) config) = .ok settings)
    (next : Settings → List Event → Result) :
    withSettings s config next =
      next settings [.log (Settings.loadedRecord (Settings.chosenPath (site s) config))] := by
  have hthere := Settings.exists_of_load h
  rw [withSettings_of_load ((Settings.loadOrDefault_of_exists hthere).trans h),
    loadedEvents_of_exists hthere]

/-- With settings, but in no working directory, a run and a listing stop before they do anything. -/
theorem runBy_of_gone {e : Host.Errno} (h : s.directory = .error e) (launcher : Launcher)
    (args : RunArgs) (settings : Settings) (loaded : List Event) :
    runBy launcher s args settings loaded =
      halted (.failed (.directoryGone e)) (loaded ++ ignoredEvents args) s := by
  rw [runBy, h]

theorem listBy_of_gone {e : Host.Errno} (h : s.directory = .error e) (mode : Mode)
    (settings : Settings) (loaded : List Event) :
    listBy s mode settings loaded = halted (.failed (.directoryGone e)) loaded s := by
  rw [listBy, h]

/-- **One settings file for all commands.** `validate` accepts it exactly if it is there and can be
loaded, and then `run` and `list` go by what was loaded. They go by the defaults where no file is named
and the working directory has none, though `validate` refuses that; whatever else it refuses stops them
with the failure that it names. From a working directory that is gone no file can be chosen, and `run` and
`list` stop there with a named one too, once it is loaded. As in every `FileTree`, there are no links
and no path is too long. -/
theorem goes_by_chosen_file (s : Surroundings) (config : Option Bytes) :
    let path := Settings.chosenPath (site s) config
    let loaded : List Event := [.log (Settings.loadedRecord path)]
    ((validate s config).status = 0 ↔
      s.files.exists? s.cwd path = true ∧ ∃ settings, Settings.load (site s) path = .ok settings) ∧
    (∀ settings, Settings.load (site s) path = .ok settings →
      (∀ launcher args, run launcher s config args = runBy launcher s args settings loaded) ∧
      ∀ mode, list s config mode = listBy s mode settings loaded) ∧
    (Settings.Fileless (site s) config →
      (validate s config).status = 1 ∧
      (∀ launcher args, run launcher s config args = runBy launcher s args {} []) ∧
      ∀ mode, list s config mode = listBy s mode {} []) ∧
    ((validate s config).status = 1 → ¬Settings.Fileless (site s) config →
      ∃ f, Settings.loadChosen (site s) config = .error (.failed f) ∧
        (validate s config).events = complaint f ∧
        (∀ launcher args, StopsWith f s (run launcher s config args)) ∧
        ∀ mode, StopsWith f s (list s config mode)) ∧
    ∀ e, s.directory = .error e →
      (config = none → Settings.loadChosen (site s) config = .error (.failed (.directoryGone e))) ∧
      ∀ settings, Settings.load (site s) path = .ok settings →
        (∀ launcher args, run launcher s config args =
          halted (.failed (.directoryGone e)) (loaded ++ ignoredEvents args) s) ∧
        ∀ mode, list s config mode = halted (.failed (.directoryGone e)) loaded s := by
  intro path loaded
  refine ⟨status_validate_eq_zero_iff, ?_, ?_, ?_, ?_⟩
  · intro settings hload
    exact ⟨fun launcher args => withSettings_of_chosen hload _,
      fun mode => withSettings_of_chosen hload _⟩
  · intro hfileless
    have hrefused : Settings.loadChosen (site s) config =
        .error (.failed (.settingsNotFound (Settings.defaultPath (site s)))) := by
      obtain ⟨rfl, hdir, hmissing⟩ := hfileless
      rw [Settings.loadChosen_eq_load fun _ => hdir]
      exact Settings.load_of_missing hmissing
    have hnext (next : Settings → List Event → Result) : withSettings s config next = next {} [] := by
      rw [withSettings_of_load (Settings.loadOrDefault_of_fileless hfileless),
        loadedEvents_of_fileless hfileless]
    refine ⟨?_, fun launcher args => hnext _, fun mode => hnext _⟩
    rw [validate_of_failure hrefused]
    rfl
  · intro hstatus hnamed
    obtain ⟨f, hchosen⟩ := exists_failure_of_status_validate hstatus
    -- the defaults stand in for the default file only, so without settings all of them stop
    have hsettings : Settings.loadOrDefault (site s) config = .error (.failed f) := by
      rw [Settings.loadOrDefault_eq_loadChosen hnamed, hchosen]
    exact ⟨f, hchosen, by rw [validate_of_failure hchosen],
      fun launcher args => withSettings_of_failure hsettings _,
      fun mode => withSettings_of_failure hsettings _⟩
  · intro e hgone
    refine ⟨?_, fun settings hload => ⟨fun launcher args => ?_, fun mode => ?_⟩⟩
    · rintro rfl
      exact Settings.loadChosen_of_gone hgone
    · exact (withSettings_of_chosen hload _).trans (runBy_of_gone hgone launcher args settings _)
    · exact (withSettings_of_chosen hload _).trans (listBy_of_gone hgone mode settings _)

/-- A session whose default settings file asks for lines of length zero. -/
def lengthless : Surroundings :=
  { files := { entries :=
      [([Settings.fileName], .file (Text.bytes "[black]\nline_length = 0\n") false)] }
    cwd := []
    env := .empty }

theorem load_lengthless :
    Settings.loadChosen (site lengthless) none =
      .error (.failed (.settingInvalid "black.line_length" "must be greater than zero")) := by
  decide +kernel

/-- Settings that make no sense stop a run with the code of a problem with the settings. -/
theorem goes_by_chosen_file_lengthless :
    (validate lengthless none).status = 1 ∧
      ∀ launcher args, (run launcher lengthless none args).status = 78 := by
  have hrefused : (validate lengthless none).status = 1 := by
    rw [validate_of_failure load_lengthless]
    rfl
  have hthere : ¬Settings.Fileless (site lengthless) none := by
    rintro ⟨-, -, hmissing⟩
    exact absurd hmissing (by decide)
  obtain ⟨-, -, -, hstops, -⟩ := goes_by_chosen_file lengthless none
  obtain ⟨f, hload, -, hrun, -⟩ := hstops hrefused hthere
  rw [load_lengthless, Except.error.injEq, Halt.failed.injEq] at hload
  refine ⟨hrefused, fun launcher args => ?_⟩
  have hstatus := (hrun launcher args).status
  rw [← hload] at hstatus
  exact Int.ofNat_inj.mp hstatus

/-- From a directory that was removed `validate` accepts a file with a whole path, and `list` stops
nevertheless. -/
example :
    let s : Surroundings :=
      { files := { entries := [([Text.bytes "c"], .file [] false)] }
        cwd := [Text.bytes "gone"]
        env := .empty }
    let config := some (Text.bytes "/c")
    (validate s config).status = 0 ∧ (list s config .fix).status = 1 ∧ (validate s none).status = 1 := by
  decide +kernel

end Session
end QualityGate
