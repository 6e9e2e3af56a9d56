import Mathlib.Data.List.Basic
import QualityGate.Plan.Tool
import QualityGate.Settings.OfToml
/-!
## The settings that a document may write

`Setting α` lists the settings whose values have the type `α`, each with its table, its key, the items
that write it and its place among all settings. What a document writes is told from its entries alone
(`Setting.Writes`), whatever their order and whatever else stands between them.

* `Entries.WellTyped`: each recognised table is a table, and each recognised setting in it has its type
  and range.
* `Setting.ext`: all settings are told apart by the recognised ones.
-/

namespace QualityGate

open Toml (Item Key Entries)

/-! ### The values that items write -/

namespace Toml.Item

/-- The string that an item is. -/
def string? : Item → Option String
  | scalar (.string s) _ => some s
  | _ => none

/-- The boolean that an item is. -/
def boolean? : Item → Option Bool
  | scalar (.boolean b) _ => some b
  | _ => none

/-- The number of 32 bits that an item is. -/
def count? : Item → Option UInt32
  | scalar (.integer n) _ =>
    if 0 ≤ n ∧ n < 4294967296 then some (UInt32.ofNat n.toNat) else none
  | _ => none

/-- The strings that an array holds, unless it holds anything else. -/
def strings? : Item → Option (List String)
  | array items _ => items.mapM string?
  | _ => none

end Toml.Item

/-! ### Recognised settings -/

attribute [ext] PipelineTable Overrides IsortTable BlackTable Flake8Table MypyTable Settings

/-- **A recognised setting**, by the type of its values. -/
inductive Setting : Type → Type where
  | activate : Setting String
  | shell : Setting String
  | timeout : Setting (Option String)
  | captureOutput : Setting Bool
  | settingsPath : Setting String
  | isortTarget : Setting String
  | lineLength : Setting UInt32
  | skipStringNormalization : Setting Bool
  | blackTarget : Setting String
  | flake8Config : Setting String
  | mypyTarget : Setting String
  | program (tool : Tool) : Setting (Option String)
  | extraArgs (tool : Tool) : Setting (List String)

/-- What a tool's table overrides. -/
def Settings.overrides (s : Settings) : Tool → Overrides
  | .isort => s.isort.overrides
  | .black => s.black.overrides
  | .flake8 => s.flake8.overrides
  | .mypy => s.mypy.overrides

namespace Setting

/-- The name of the table in which a setting stands. -/
def table : Setting α → String
  | activate | shell | timeout | captureOutput => "pipeline"
  | settingsPath | isortTarget => Tool.isort.name
  | lineLength | skipStringNormalization | blackTarget => Tool.black.name
  | flake8Config => Tool.flake8.name
  | mypyTarget => Tool.mypy.name
  | program tool | extraArgs tool => tool.name

/-- The key that sets it there. -/
def key : Setting α → String
  | activate => "activate"
  | shell => "shell"
  | timeout => "timeout"
  | captureOutput => "capture_output"
  | settingsPath => "settings_path"
  | isortTarget | blackTarget | mypyTarget => "target"
  | lineLength => "line_length"
  | skipStringNormalization => "skip_string_normalization"
  | flake8Config => "config"
  | program _ => "program"
  | extraArgs _ => "extra_args"

/-- **The value that an item writes**, if it has the type and range of the setting. -/
def read? : Setting α → Item → Option α
  | activate, i | shell, i | settingsPath, i | isortTarget, i | blackTarget, i | flake8Config, i
  | mypyTarget, i => i.string?
  | timeout, i | program _, i => i.string?.map some
  | captureOutput, i | skipStringNormalization, i => i.boolean?
  | lineLength, i => i.count?
  | extraArgs _, i => i.strings?

/-- **The value of a setting** among all settings. -/
def get : Setting α → Settings → α
  | activate, s => s.pipeline.activate
  | shell, s => s.pipeline.shell
  | timeout, s => s.pipeline.timeout
  | captureOutput, s => s.pipeline.captureOutput
  | settingsPath, s => s.isort.settingsPath
  | isortTarget, s => s.isort.target
  | lineLength, s => s.black.lineLength
  | skipStringNormalization, s => s.black.skipStringNormalization
  | blackTarget, s => s.black.target
  | flake8Config, s => s.flake8.config
  | mypyTarget, s => s.mypy.target
  | program tool, s => (s.overrides tool).program
  | extraArgs tool, s => (s.overrides tool).extraArgs

/-- Settings that agree on each recognised one are the same. -/
protected theorem ext {s t : Settings} (h : ∀ (α : Type) (k : Setting α), k.get s = k.get t) :
    s = t := by
  have hoverrides (tool : Tool) : s.overrides tool = t.overrides tool :=
    Overrides.ext (h _ (.program tool)) (h _ (.extraArgs tool))
  have hpipeline : s.pipeline = t.pipeline :=
    PipelineTable.ext (h _ .activate) (h _ .shell) (h _ .timeout) (h _ .captureOutput)
  have hisort : s.isort = t.isort :=
    IsortTable.ext (h _ .settingsPath) (h _ .isortTarget) (hoverrides .isort)
  have hblack : s.black = t.black :=
    BlackTable.ext (h _ .lineLength) (h _ .skipStringNormalization) (h _ .blackTarget)
      (hoverrides .black)
  have hflake8 : s.flake8 = t.flake8 :=
    Flake8Table.ext (h _ .flake8Config) (hoverrides .flake8)
  have hmypy : s.mypy = t.mypy :=
    MypyTable.ext (h _ .mypyTarget) (hoverrides .mypy)
  exact Settings.ext hpipeline hisort hblack hflake8 hmypy

/-! ### What a document writes -/

/-- An item is a table with an entry at the setting's key that writes `v`. -/
def WrittenIn (k : Setting α) (v : α) : Item → Prop
  | .table _ inner => ∃ d ∈ inner, d.1.name = k.key ∧ k.read? d.2 = some v
  | _ => False

/-- **The root table of a document writes a value** of a setting. -/
def Writes (k : Setting α) (es : Entries) (v : α) : Prop :=
  ∃ e ∈ es, e.1.name = k.table ∧ k.WrittenIn v e.2

end Setting

/-- The names of the recognised tables. -/
def tableNames : List String :=
  "pipeline" :: Tool.all.map Tool.name

/-- An item is a table, and each setting of the recognised table called `name` that it holds has its
type and range. -/
def Toml.Item.IsTyped (name : String) : Item → Prop
  | table _ inner =>
    ∀ (α : Type) (k : Setting α), k.table = name →
      ∀ d ∈ inner, d.1.name = k.key → ∃ v, k.read? d.2 = some v
  | _ => False

/-- **Each recognised table that is present is a table, and each recognised setting in it has its
declared type and range.** Other tables and other keys may hold anything. -/
def Toml.Entries.WellTyped (es : Entries) : Prop :=
  ∀ e ∈ es, e.1.name ∈ tableNames → e.2.IsTyped e.1.name

/-! ### Whether a document is well typed can be computed -/

namespace Setting

/-- **All recognised settings**, each with the type of its values. -/
def all : List (Σ α, Setting α) :=
  [⟨_, activate⟩, ⟨_, shell⟩, ⟨_, timeout⟩, ⟨_, captureOutput⟩, ⟨_, settingsPath⟩,
    ⟨_, isortTarget⟩, ⟨_, lineLength⟩, ⟨_, skipStringNormalization⟩, ⟨_, blackTarget⟩,
    ⟨_, flake8Config⟩, ⟨_, mypyTarget⟩] ++
  Tool.all.map (fun t => ⟨_, program t⟩) ++ Tool.all.map (fun t => ⟨_, extraArgs t⟩)

theorem mem_all (k : Setting α) : ⟨α, k⟩ ∈ all := by
  cases k <;> simp [all, Tool.mem_all]

end Setting

instance (name : String) : DecidablePred (Toml.Item.IsTyped name)
  | .table _ inner =>
    decidable_of_iff
      (∀ k ∈ Setting.all, k.2.table = name →
        ∀ d ∈ inner, d.1.name = k.2.key → (k.2.read? d.2).isSome = true) <| by
      simp only [Toml.Item.IsTyped, Option.isSome_iff_exists]
      exact ⟨fun h α k => h ⟨α, k⟩ k.mem_all, fun h k _ => h k.1 k.2⟩
  | .scalar _ _ => isFalse id
  | .array _ _ => isFalse id
  | .tables _ => isFalse id

instance : DecidablePred Toml.Entries.WellTyped := fun es =>
  inferInstanceAs (Decidable (∀ e ∈ es, e.1.name ∈ tableNames → e.2.IsTyped e.1.name))

end QualityGate
