import QualityGate.Settings.Basic
import QualityGate.Toml.Report
import QualityGate.Text.Quoted
/-!
Settings out of a document. Each table starts from its defaults and takes over what the document
sets; unknown keys and tables mean nothing. A setting of the wrong type is refused, the first one in
the order of the document.

The table of the run as a whole may also be given as an array of its settings in their order. The
two settings that all tools share have no place of their own in a refusal: it points at their table.
-/

namespace QualityGate

open Toml (Item Key Entries Span)

/-! ### Refusals -/

/-- **Why a document is refused**, and where it says so. -/
structure Refusal where
  message : String
  span : Option Span := none

/-- A refusal placed at a span unless it has a place already. -/
def Refusal.placed (r : Refusal) (s : Option Span) : Refusal :=
  { r with span := r.span <|> s }

/-- How a refusal names the value it found. -/
def found : Item → String
  | .scalar (.string s) _ => "string " ++ Text.quoted s
  | .scalar (.integer n) _ => "integer `" ++ toString n ++ "`"
  | .scalar (.float x) _ => "floating point `" ++ x.toText ++ "`"
  | .scalar (.boolean b) _ => "boolean `" ++ (if b then "true" else "false") ++ "`"
  | .scalar .dateTime _ => "map"
  | .array _ _ => "sequence"
  | .table _ _ => "map"
  | .tables _ => "sequence"

/-- The refusal of a value of the wrong type. -/
def wrongType (i : Item) (expected : String) : Refusal :=
  { message := "invalid type: " ++ found i ++ ", expected " ++ expected, span := i.span? }

/-! ### Values of one type -/

/-- A string. -/
def asString : Item → Except Refusal String
  | .scalar (.string s) _ => .ok s
  | i => .error (wrongType i "a string")

/-- A boolean. -/
def asBool : Item → Except Refusal Bool
  | .scalar (.boolean b) _ => .ok b
  | i => .error (wrongType i "a boolean")

/-- An integer of 32 bits without a sign. -/
def asCount : Item → Except Refusal UInt32
  | .scalar (.integer n) s =>
    if 0 ≤ n ∧ n < 4294967296 then .ok (UInt32.ofNat n.toNat)
    else .error
      { message := "invalid value: integer `" ++ toString n ++ "`, expected u32", span := some s }
  | i => .error (wrongType i "u32")

/-- A list of strings. -/
def asStrings : Item → Except Refusal (List String)
  | .array items _ => items.mapM asString
  | .tables l =>
    match l with
    | [] => .ok []
    | t :: _ => .error (wrongType (.table t.1 t.2) "a string")
  | i => .error (wrongType i "a sequence")

/-! ### Tables -/

/-- The entries of a table; a date is taken for a table without any known key. -/
def tableEntries? : Item → Option Entries
  | .table _ es => some es
  | .scalar .dateTime _ => some []
  | _ => none

/-- What a known key does to a table: the key's item read and put into place. -/
abbrev Setter (τ : Type) := String → Option (Item → τ → Except Refusal τ)

/-- Puts a value that is read by `read`. -/
def setting (read : Item → Except Refusal α) (put : α → τ → τ) : Item → τ → Except Refusal τ :=
  fun i t => (read i).map fun v => put v t

/-- **Takes over the known keys of some entries**, in their order. -/
def takeOver (setter : Setter τ) (t : τ) : Entries → Except Refusal τ
  | [] => .ok t
  | (key, item) :: rest =>
    match setter key.name with
    | none => takeOver setter t rest
    | some put =>
      match put item t with
      | .ok t => takeOver setter t rest
      | .error r => .error (r.placed (item.span? <|> some key.span))

/-- The settings that all tools share. -/
def overridesSetter : Setter Overrides := fun key =>
  if key = "program" then some (setting asString fun v o => { o with program := some v })
  else if key = "extra_args" then some (setting asStrings fun v o => { o with extraArgs := v })
  else none

/-- The shared settings among the entries of a tool's table; a refusal has no place of its own. -/
def overridesOf (es : Entries) : Except Refusal Overrides :=
  match takeOver overridesSetter {} es with
  | .ok o => .ok o
  | .error r => .error { message := r.message }

/-- Reads a tool's table: its own settings first, then the shared ones. -/
def toolTable (expected : String) (setter : Setter τ) (share : Overrides → τ → τ) (i : Item)
    (t : τ) : Except Refusal τ :=
  match tableEntries? i with
  | none => .error (wrongType i expected)
  | some es =>
    match takeOver setter t es with
    | .error r => .error r
    | .ok t =>
      match overridesOf es with
      | .error r => .error (r.placed i.span?)
      | .ok o => .ok (share o t)

/-! ### The five tables -/

/-- The settings of the run as a whole. -/
def pipelineSetter : Setter PipelineTable := fun key =>
  if key = "activate" then some (setting asString fun v t => { t with activate := v })
  else if key = "shell" then some (setting asString fun v t => { t with shell := v })
  else if key = "timeout" then some (setting asString fun v t => { t with timeout := some v })
  else if key = "capture_output" then
    some (setting asBool fun v t => { t with captureOutput := v })
  else none

/-- The order of the settings in an array. -/
def pipelineOrder : List String := ["activate", "shell", "timeout", "capture_output"]

/-- Settings given by position; what is left out keeps its default, and more is passed over. -/
def takePositional (t : PipelineTable) : List String → List Item → Except Refusal PipelineTable
  | key :: keys, item :: items =>
    match pipelineSetter key with
    | none => takePositional t keys items
    | some put =>
      match put item t with
      | .ok t => takePositional t keys items
      | .error r => .error (r.placed item.span?)
  | _, _ => .ok t

/-- The table of the run as a whole. -/
def pipelineTable (i : Item) (t : PipelineTable) : Except Refusal PipelineTable :=
  match i with
  | .array items _ => takePositional t pipelineOrder items
  | .tables l => takePositional t pipelineOrder (l.map fun e => .table e.1 e.2)
  | _ =>
    match tableEntries? i with
    | none => .error (wrongType i "struct PipelineConfig")
    | some es => takeOver pipelineSetter t es

/-- The import sorter's own settings. -/
def isortSetter : Setter IsortTable := fun key =>
  if key = "settings_path" then some (setting asString fun v t => { t with settingsPath := v })
  else if key = "target" then some (setting asString fun v t => { t with target := v })
  else none

/-- The formatter's own settings. -/
def blackSetter : Setter BlackTable := fun key =>
  if key = "line_length" then some (setting asCount fun v t => { t with lineLength := v })
  else if key = "skip_string_normalization" then
    some (setting asBool fun v t => { t with skipStringNormalization := v })
  else if key = "target" then some (setting asString fun v t => { t with target := v })
  else none

/-- The style checker's own settings. -/
def flake8Setter : Setter Flake8Table := fun key =>
  if key = "config" then some (setting asString fun v t => { t with config := v })
  else none

/-- The type checker's own settings. -/
def mypySetter : Setter MypyTable := fun key =>
  if key = "target" then some (setting asString fun v t => { t with target := v })
  else none

/-- The five tables. -/
def settingsSetter : Setter Settings := fun key =>
  if key = "pipeline" then
    some fun i s => (pipelineTable i s.pipeline).map fun t => { s with pipeline := t }
  else if key = "isort" then
    some fun i s =>
      (toolTable "struct IsortConfig" isortSetter (fun o t => { t with overrides := o }) i
        s.isort).map fun t => { s with isort := t }
  else if key = "black" then
    some fun i s =>
      (toolTable "struct BlackConfig" blackSetter (fun o t => { t with overrides := o }) i
        s.black).map fun t => { s with black := t }
  else if key = "flake8" then
    some fun i s =>
      (toolTable "struct Flake8Config" flake8Setter (fun o t => { t with overrides := o }) i
        s.flake8).map fun t => { s with flake8 := t }
  else if key = "mypy" then
    some fun i s =>
      (toolTable "struct MypyConfig" mypySetter (fun o t => { t with overrides := o }) i
        s.mypy).map fun t => { s with mypy := t }
  else none

/-! ### Documents -/

/-- **The settings of a document's root table.** -/
def Settings.ofEntries (es : Entries) : Except Refusal Settings :=
  takeOver settingsSetter {} es

/-- **The settings that a text writes**, or the report of what is wrong with it. -/
def Settings.ofToml (text : String) : Except String Settings :=
  let s := text.toList
  match Toml.document s with
  | .error fault => .error (Toml.report s fault)
  | .ok table =>
    match Settings.ofEntries table.entries with
    | .ok settings => .ok settings
    | .error r => .error (Toml.report s ⟨r.span.getD ⟨s, s⟩, r.message⟩)

end QualityGate
