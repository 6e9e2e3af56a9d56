import QualityGate.Settings.Basic
import QualityGate.Toml.Tree
/-!
Settings written as a document: a header for each table and a line for each setting, with those left
out that have no value.
-/

namespace QualityGate

open Toml (basicString)

namespace Settings

/-- A line that sets a key to a string. -/
def stringLine (key value : String) : String :=
  key ++ " = " ++ basicString value ++ "\n"

/-- A line that sets a key to a boolean. -/
def boolLine (key : String) (value : Bool) : String :=
  key ++ " = " ++ (if value then "true" else "false") ++ "\n"

/-- A line that sets a key to a list of strings. -/
def stringsLine (key : String) (values : List String) : String :=
  key ++ " = [" ++ String.intercalate ", " (values.map basicString) ++ "]\n"

/-- The lines of the settings that all tools share. -/
def overridesLines (o : Overrides) : String :=
  (o.program.map (stringLine "program")).getD "" ++
  (if o.extraArgs = [] then "" else stringsLine "extra_args" o.extraArgs)

/-- **Settings as a document.** -/
def toToml (s : Settings) : String :=
  "[pipeline]\n" ++
  stringLine "activate" s.pipeline.activate ++
  stringLine "shell" s.pipeline.shell ++
  (s.pipeline.timeout.map (stringLine "timeout")).getD "" ++
  boolLine "capture_output" s.pipeline.captureOutput ++
  "\n[isort]\n" ++
  stringLine "settings_path" s.isort.settingsPath ++
  stringLine "target" s.isort.target ++
  overridesLines s.isort.overrides ++
  "\n[black]\n" ++
  "line_length = " ++ toString s.black.lineLength.toNat ++ "\n" ++
  boolLine "skip_string_normalization" s.black.skipStringNormalization ++
  stringLine "target" s.black.target ++
  overridesLines s.black.overrides ++
  "\n[flake8]\n" ++
  stringLine "config" s.flake8.config ++
  overridesLines s.flake8.overrides ++
  "\n[mypy]\n" ++
  stringLine "target" s.mypy.target ++
  overridesLines s.mypy.overrides

/-- **The document of the default settings.** -/
def defaultToml : String :=
  toToml {}

end Settings
end QualityGate
