import QualityGate.Settings.OfToml
import QualityGate.Settings.Validity
import QualityGate.Host.FileTree
import QualityGate.Console.Event
/-!
Where settings come from: a file that is named, which has to be there, or the default file of the
working directory, which may be missing. A file is used only if it can be read, is text, reads as a
document and makes sense.
-/

namespace QualityGate

open Host (FileTree Location)

namespace Settings

/-- The name of the default settings file. -/
def fileName : Bytes := Text.bytes "lint-pipeline.toml"

/-- **Where a session stands**: the files and its working directory. -/
structure Site where
  files : FileTree
  cwd : Location

/-- The settings that the bytes of a file hold; `path` names the file in a message. -/
def ofBytes (path data : Bytes) : Except Halt Settings :=
  match Text.decode? data with
  | none => .error (.failed (.io "read config" (.described "stream did not contain valid UTF-8")))
  | some text =>
    match ofToml text with
    | .error report =>
      .error (.failed (.settingsUnreadable ("invalid TOML in " ++ Text.lossy path) (.base report)))
    | .ok s =>
      match s.validate with
      | .error h => .error h
      | .ok () => .ok s

/-- **The settings in a file.** -/
def load (site : Site) (path : Bytes) : Except Halt Settings :=
  if site.files.exists? site.cwd path then
    match site.files.read site.cwd path with
    | .error e => .error (.failed (.io "read config" (.system e)))
    | .ok data => ofBytes path data
  else .error (.failed (.settingsNotFound path))

/-- The path of the default file. -/
def defaultPath (site : Site) : Bytes :=
  Host.Path.join site.cwd.path fileName

/-- **The default file**, if it is there. -/
def find (site : Site) : Except Halt Bytes :=
  match site.files.directoryPath site.cwd with
  | .error e => .error (.failed (.directoryGone e))
  | .ok directory =>
    let path := Host.Path.join directory fileName
    if site.files.exists? site.cwd path then .ok path
    else .error (.failed (.settingsNotFound path))

/-- The file that a session uses: the one that is named, or the default one. -/
def chosenPath (site : Site) : Option Bytes → Bytes
  | some path => path
  | none => defaultPath site

/-- The settings in the chosen file, which has to be there. -/
def loadChosen (site : Site) : Option Bytes → Except Halt Settings
  | some path => load site path
  | none =>
    match find site with
    | .ok path => load site path
    | .error h => .error h

/-- **The settings of a session.** Only the default file may be missing, and then the defaults hold. -/
def loadOrDefault (site : Site) : Option Bytes → Except Halt Settings
  | some path => load site path
  | none =>
    match find site with
    | .ok path => load site path
    | .error (.failed (.settingsNotFound _)) => .ok {}
    | .error h => .error h

theorem validate_of_load {site : Site} {path : Bytes} {s : Settings} (h : load site path = .ok s) :
    s.validate = .ok () := by
  unfold load at h
  split at h
  · split at h
    · cases h
    · unfold ofBytes at h
      repeat' split at h
      all_goals cases h
      assumption
  · cases h

/-- **A session has accepted settings**, from a file or the default ones. -/
theorem validate_of_loadOrDefault {site : Site} {config : Option Bytes} {s : Settings}
    (h : loadOrDefault site config = .ok s) : s.validate = .ok () := by
  unfold loadOrDefault at h
  split at h
  · exact validate_of_load h
  · split at h
    · exact validate_of_load h
    · cases h; exact validate_default
    · cases h

/-- The log record about a file that was used. -/
def loadedRecord (path : Bytes) : Console.Record :=
  { level := .debug, target := "lint_pipeline::config", message := "Loaded configuration",
    fields := [("path", Text.lossy path)] }

end Settings
end QualityGate
