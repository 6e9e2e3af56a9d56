import QualityGate.Proofs.Settings.Recognised
import QualityGate.Proofs.Settings.TakeOver
/-!
## The five tables

A table's setter knows settings of that table only, and puts each of them into its place
(`Setter.Covers`). A tool's table is read twice, for its own settings and for those that all tools
share; either way each setting follows the entries of the table.

* `Part.exists_ok`: a table whose settings have their types and ranges is accepted.
* `Part.follows`: each setting then is what its entry writes, or its default.
-/

namespace QualityGate

open Toml (Item Key Entries)

/-! ### Reading values -/

theorem asString_of_string? {i : Item} {v : String} (h : i.string? = some v) :
    asString i = .ok v := by
  unfold Item.string? at h
  split at h
  · exact congrArg Except.ok (Option.some.inj h)
  · cases h

theorem asBool_of_boolean? {i : Item} {v : Bool} (h : i.boolean? = some v) : asBool i = .ok v := by
  unfold Item.boolean? at h
  split at h
  · exact congrArg Except.ok (Option.some.inj h)
  · cases h

theorem asCount_of_count? {i : Item} {v : UInt32} (h : i.count? = some v) : asCount i = .ok v := by
  unfold Item.count? at h
  split at h
  · rename_i n span
    split at h
    · rename_i hrange
      rw [asCount, if_pos hrange]
      exact congrArg Except.ok (Option.some.inj h)
    · cases h
  · cases h

theorem asStrings_of_strings? {i : Item} {vs : List String} (h : i.strings? = some vs) :
    asStrings i = .ok vs := by
  unfold Item.strings? at h
  split at h
  · rename_i items span
    rw [asStrings]
    induction items generalizing vs with
    | nil => exact congrArg Except.ok (Option.some.inj h)
    | cons item items ih =>
      rw [List.mapM_cons] at h ⊢
      obtain ⟨v, hv, h⟩ := Option.bind_eq_some_iff.mp h
      obtain ⟨vs', hvs, h⟩ := Option.bind_eq_some_iff.mp h
      rw [asString_of_string? hv, ih hvs]
      exact congrArg Except.ok (Option.some.inj h)
  · cases h

/-- How the item of a setting is read. -/
def Setting.load : Setting α → Item → Except Refusal α
  | activate, i | shell, i | settingsPath, i | isortTarget, i | blackTarget, i | flake8Config, i
  | mypyTarget, i => asString i
  | timeout, i | program _, i => (asString i).map some
  | captureOutput, i | skipStringNormalization, i => asBool i
  | lineLength, i => asCount i
  | extraArgs _, i => asStrings i

/-- An item of the setting's type and range is read. -/
theorem Setting.load_of_read? {k : Setting α} {i : Item} {v : α} (h : k.read? i = some v) :
    k.load i = .ok v := by
  cases k with
  | activate | shell | settingsPath | isortTarget | blackTarget | flake8Config | mypyTarget =>
    exact asString_of_string? h
  | timeout | program _ =>
    obtain ⟨s, hs, rfl⟩ := Option.map_eq_some_iff.mp h
    rw [load, asString_of_string? hs]
    rfl
  | captureOutput | skipStringNormalization => exact asBool_of_boolean? h
  | lineLength => exact asCount_of_count? h
  | extraArgs _ => exact asStrings_of_strings? h

/-! ### The settings of one table -/

/-- The setting of a key in a table, if it is recognised. -/
def Setting.find? (table key : String) : Option (Σ α, Setting α) :=
  Setting.all.find? fun k => k.2.table = table ∧ k.2.key = key

theorem Setting.find?_self (k : Setting α) : find? k.table k.key = some ⟨α, k⟩ := by
  cases k with
  | program tool | extraArgs tool => cases tool <;> rfl
  | _ => rfl

/-- A change puts what it reads into the place of a setting and touches no other setting. `place`
tells which settings a table makes. -/
structure Setting.PutBy (k : Setting α) (place : τ → Settings) (put : Item → τ → Except Refusal τ) :
    Prop where
  reads : ∀ i t, (put i t).map (fun t' => k.get (place t')) = k.load i
  keeps : ∀ i t t', put i t = .ok t' → ∀ (β : Type) (j : Setting β), j.key ≠ k.key →
    j.get (place t') = j.get (place t)

/-- **A setter knows only settings** of the table called `name`, and puts each into its place. -/
def Setter.Covers (setter : Setter τ) (name : String) (place : τ → Settings) : Prop :=
  ∀ key put, setter key = some put →
    ∃ (α : Type) (k : Setting α), k.table = name ∧ k.key = key ∧ k.PutBy place put

section PutBy

variable {k : Setting α} {place : τ → Settings} {read : Item → Except Refusal β} {put : β → τ → τ}

/-- A value that is read is put into place, `f` being how the place holds it. -/
theorem Setting.putBy_map (f : β → α) (hload : ∀ i, k.load i = (read i).map f)
    (hget : ∀ v t, k.get (place (put v t)) = f v)
    (hkeeps : ∀ v t (γ : Type) (j : Setting γ), j.key ≠ k.key →
      j.get (place (put v t)) = j.get (place t)) :
    k.PutBy place (setting read put) := by
  constructor
  · intro i t
    rw [hload, setting]
    cases read i with
    | ok v => exact congrArg Except.ok (hget v t)
    | error r => rfl
  · intro i t t' h γ j hj
    obtain ⟨v, -, rfl⟩ := exists_of_map_eq_ok h
    exact hkeeps v t γ j hj

/-- A value that is read is put into place as it is. -/
theorem Setting.putBy_setting {read : Item → Except Refusal α} {put : α → τ → τ}
    (hload : ∀ i, k.load i = read i) (hget : ∀ v t, k.get (place (put v t)) = v)
    (hkeeps : ∀ v t (γ : Type) (j : Setting γ), j.key ≠ k.key →
      j.get (place (put v t)) = j.get (place t)) :
    k.PutBy place (setting read put) :=
  putBy_map id (fun i => (hload i).trans (congrFun Except.map_id _).symm) hget hkeeps

end PutBy

namespace Setter.Covers

variable {setter : Setter τ} {name : String} {place : τ → Settings}

/-- A known key governs its setting. -/
theorem governs (hc : setter.Covers name place) {k : Setting α} (htable : k.table = name)
    (hknown : setter k.key ≠ none) :
    setter.Governs k.key (fun t => k.get (place t)) fun i _ => k.load i := by
  obtain ⟨put, hput⟩ := Option.ne_none_iff_exists'.mp hknown
  obtain ⟨β, j, hjtable, hjkey, hj⟩ := hc _ _ hput
  -- table and key tell settings apart, so the one that `put` belongs to is `k`
  have hsame : (⟨β, j⟩ : Σ α, Setting α) = ⟨α, k⟩ := by
    have hfound := j.find?_self
    rw [hjtable, hjkey, ← htable, k.find?_self] at hfound
    exact (Option.some.inj hfound).symm
  cases hsame
  refine ⟨⟨put, hput, hj.reads⟩, fun key put' hne hput' i t t' h => ?_⟩
  obtain ⟨γ, other, -, hkey, hother⟩ := hc _ _ hput'
  exact hother.keeps i t t' h _ _ (hkey ▸ hne.symm)

/-- A typed table is taken over. -/
theorem exists_ok (hc : setter.Covers name place) {form : Toml.TableForm} {inner : Entries}
    (htyped : (Item.table form inner).IsTyped name) (t : τ) :
    ∃ u, takeOver setter t inner = .ok u := by
  refine takeOver_ok (fun d hd put hput t => ?_) t
  obtain ⟨α, k, htable, hkey, -⟩ := hc _ put hput
  obtain ⟨v, hv⟩ := htyped α k htable d hd hkey.symm
  rw [← hkey] at hput
  have hgoverns := hc.governs htable (hput ▸ Option.some_ne_none put)
  exact hgoverns.exists_ok hput (Setting.load_of_read? hv)

end Setter.Covers

/-! ### The five tables -/

theorem pipelineSetter_covers : pipelineSetter.Covers "pipeline" (fun t => { pipeline := t }) := by
  intro key put h
  unfold pipelineSetter at h
  -- one case for each key; a setting of another key lies elsewhere in the record
  split_ifs at h with h1 h2 h3 h4
  all_goals obtain rfl := Option.some.inj h
  · refine ⟨_, .activate, rfl, h1.symm, Setting.putBy_setting (fun _ => rfl) (fun _ _ => rfl) ?_⟩
    intro v t γ j hj
    cases j <;> first | rfl | exact absurd rfl hj
  · refine ⟨_, .shell, rfl, h2.symm, Setting.putBy_setting (fun _ => rfl) (fun _ _ => rfl) ?_⟩
    intro v t γ j hj
    cases j <;> first | rfl | exact absurd rfl hj
  · refine ⟨_, .timeout, rfl, h3.symm, Setting.putBy_map some (fun _ => rfl) (fun _ _ => rfl) ?_⟩
    intro v t γ j hj
    cases j <;> first | rfl | exact absurd rfl hj
  · refine ⟨_, .captureOutput, rfl, h4.symm, Setting.putBy_setting (fun _ => rfl) (fun _ _ => rfl) ?_⟩
    intro v t γ j hj
    cases j <;> first | rfl | exact absurd rfl hj

theorem isortSetter_covers : isortSetter.Covers Tool.isort.name (fun t => { isort := t }) := by
  intro key put h
  unfold isortSetter at h
  split_ifs at h with h1 h2
  all_goals obtain rfl := Option.some.inj h
  · refine ⟨_, .settingsPath, rfl, h1.symm, Setting.putBy_setting (fun _ => rfl) (fun _ _ => rfl) ?_⟩
    intro v t γ j hj
    cases j <;> first | rfl | exact absurd rfl hj
  · refine ⟨_, .isortTarget, rfl, h2.symm, Setting.putBy_setting (fun _ => rfl) (fun _ _ => rfl) ?_⟩
    intro v t γ j hj
    cases j <;> first | rfl | exact absurd rfl hj

theorem blackSetter_covers : blackSetter.Covers Tool.black.name (fun t => { black := t }) := by
  intro key put h
  unfold blackSetter at h
  split_ifs at h with h1 h2 h3
  all_goals obtain rfl := Option.some.inj h
  · refine ⟨_, .lineLength, rfl, h1.symm, Setting.putBy_setting (fun _ => rfl) (fun _ _ => rfl) ?_⟩
    intro v t γ j hj
    cases j <;> first | rfl | exact absurd rfl hj
  · refine ⟨_, .skipStringNormalization, rfl, h2.symm, Setting.putBy_setting (fun _ => rfl) (fun _ _ => rfl) ?_⟩
    intro v t γ j hj
    cases j <;> first | rfl | exact absurd rfl hj
  · refine ⟨_, .blackTarget, rfl, h3.symm, Setting.putBy_setting (fun _ => rfl) (fun _ _ => rfl) ?_⟩
    intro v t γ j hj
    cases j <;> first | rfl | exact absurd rfl hj

theorem flake8Setter_covers : flake8Setter.Covers Tool.flake8.name (fun t => { flake8 := t }) := by
  intro key put h
  unfold flake8Setter at h
  split_ifs at h with h1
  all_goals obtain rfl := Option.some.inj h
  · refine ⟨_, .flake8Config, rfl, h1.symm, Setting.putBy_setting (fun _ => rfl) (fun _ _ => rfl) ?_⟩
    intro v t γ j hj
    cases j <;> first | rfl | exact absurd rfl hj

theorem mypySetter_covers : mypySetter.Covers Tool.mypy.name (fun t => { mypy := t }) := by
  intro key put h
  unfold mypySetter at h
  split_ifs at h with h1
  all_goals obtain rfl := Option.some.inj h
  · refine ⟨_, .mypyTarget, rfl, h1.symm, Setting.putBy_setting (fun _ => rfl) (fun _ _ => rfl) ?_⟩
    intro v t γ j hj
    cases j <;> first | rfl | exact absurd rfl hj

/-- All defaults but for what one tool's table overrides. -/
def Tool.overridden (tool : Tool) (o : Overrides) : Settings :=
  match tool with
  | isort => { isort := { overrides := o } }
  | black => { black := { overrides := o } }
  | flake8 => { flake8 := { overrides := o } }
  | mypy => { mypy := { overrides := o } }

theorem overridesSetter_covers (tool : Tool) :
    overridesSetter.Covers tool.name tool.overridden := by
  intro key put h
  unfold overridesSetter at h
  split_ifs at h with h1 h2
  all_goals obtain rfl := Option.some.inj h
  · refine ⟨_, .program tool, rfl, h1.symm,
      Setting.putBy_map some (fun _ => rfl) (fun _ _ => by cases tool <;> rfl) ?_⟩
    -- all other settings keep their values
    intro v t γ j hj
    cases j with
    | program other => exact absurd rfl hj
    | extraArgs other => cases tool <;> cases other <;> rfl
    | _ => cases tool <;> rfl
  · refine ⟨_, .extraArgs tool, rfl, h2.symm,
      Setting.putBy_setting (fun _ => rfl) (fun _ _ => by cases tool <;> rfl) ?_⟩
    intro v t γ j hj
    cases j with
    | extraArgs other => exact absurd rfl hj
    | program other => cases tool <;> cases other <;> rfl
    | _ => cases tool <;> rfl

/-- **A table of the settings**, by the type of its record. -/
inductive Part : Type → Type where
  | pipeline : Part PipelineTable
  | isort : Part IsortTable
  | black : Part BlackTable
  | flake8 : Part Flake8Table
  | mypy : Part MypyTable

namespace Part

/-- The name of a table. -/
def name : Part τ → String
  | pipeline => "pipeline"
  | isort => Tool.isort.name
  | black => Tool.black.name
  | flake8 => Tool.flake8.name
  | mypy => Tool.mypy.name

/-- The record among all settings. -/
def get : Part τ → Settings → τ
  | pipeline, s => s.pipeline
  | isort, s => s.isort
  | black, s => s.black
  | flake8, s => s.flake8
  | mypy, s => s.mypy

/-- All defaults but for one table. -/
def place : Part τ → τ → Settings
  | pipeline, t => { pipeline := t }
  | isort, t => { isort := t }
  | black, t => { black := t }
  | flake8, t => { flake8 := t }
  | mypy, t => { mypy := t }

/-- How the table's item changes the record. -/
def act : Part τ → Item → τ → Except Refusal τ
  | pipeline => pipelineTable
  | isort => toolTable "struct IsortConfig" isortSetter fun o t => { t with overrides := o }
  | black => toolTable "struct BlackConfig" blackSetter fun o t => { t with overrides := o }
  | flake8 => toolTable "struct Flake8Config" flake8Setter fun o t => { t with overrides := o }
  | mypy => toolTable "struct MypyConfig" mypySetter fun o t => { t with overrides := o }

theorem place_get_default (P : Part τ) : P.place (P.get {}) = {} := by
  cases P <;> rfl

/-- A setting is looked up in its own table. -/
theorem get_place_get (P : Part τ) {k : Setting α} (h : k.table = P.name) (s : Settings) :
    k.get (P.place (P.get s)) = k.get s := by
  cases k with
  | program tool | extraArgs tool =>
    cases tool <;> cases P <;> first | rfl | exact absurd h (by decide)
  | _ => cases P <;> first | rfl | exact absurd h (by decide)

end Part

section ToolTable

variable (expected : String) {setter : Setter τ} {share : Overrides → τ → τ}
  {form : Toml.TableForm} {inner : Entries}

/-- A tool's table is read twice, for its own settings and for the shared ones. -/
theorem toolTable_eq_ok {t u : τ} : toolTable expected setter share (.table form inner) t = .ok u ↔
    ∃ t' o, takeOver setter t inner = .ok t' ∧ takeOver overridesSetter {} inner = .ok o ∧
      share o t' = u := by
  rw [toolTable, tableEntries?]
  dsimp only
  unfold overridesOf
  cases takeOver setter t inner with
  | error r => simp
  | ok t' =>
    cases takeOver overridesSetter {} inner with
    | error r => simp
    | ok o => simp

variable {tool : Tool} {place : τ → Settings}

theorem toolTable_exists_ok (hc : setter.Covers tool.name place)
    (htyped : (Item.table form inner).IsTyped tool.name) (t : τ) :
    ∃ u, toolTable expected setter share (.table form inner) t = .ok u := by
  obtain ⟨t', ht'⟩ := hc.exists_ok htyped t
  obtain ⟨o, ho⟩ := (overridesSetter_covers tool).exists_ok htyped {}
  exact ⟨share o t', (toolTable_eq_ok expected).mpr ⟨t', o, ht', ho, rfl⟩⟩

/-- Each setting of a tool's table follows its entries, be it the tool's own or a shared one. -/
theorem toolTable_follows (hc : setter.Covers tool.name place) {k : Setting α}
    (htable : k.table = tool.name)
    (hk : (setter k.key ≠ none ∧ ∀ o t, k.get (place (share o t)) = k.get (place t)) ∨
      (overridesSetter k.key ≠ none ∧ ∀ o t, k.get (place (share o t)) = k.get (tool.overridden o)))
    (once : inner.keys.Nodup) {t u : τ} (ht : place t = {})
    (h : toolTable expected setter share (.table form inner) t = .ok u) :
    Follows inner k.key (fun i v => k.load i = .ok v) (k.get (place u)) (k.get {}) := by
  obtain ⟨t', o, hown, hshared, rfl⟩ := (toolTable_eq_ok expected).mp h
  rcases hk with ⟨hknown, hget⟩ | ⟨hknown, hget⟩
  · rw [hget, ← ht]
    exact (hc.governs htable hknown).takeOver_follows once hown
  · have hdefault : tool.overridden {} = {} := by cases tool <;> rfl
    rw [hget, ← hdefault]
    exact ((overridesSetter_covers tool).governs htable hknown).takeOver_follows once hshared

end ToolTable

namespace Part

variable {form : Toml.TableForm} {inner : Entries}

/-- **A typed table is accepted**, whatever the record was before. -/
theorem exists_ok (P : Part τ) (htyped : (Item.table form inner).IsTyped P.name) (t : τ) :
    ∃ u, P.act (.table form inner) t = .ok u := by
  cases P with
  | pipeline => exact pipelineSetter_covers.exists_ok htyped t
  | isort =>
    unfold act
    exact toolTable_exists_ok _ isortSetter_covers htyped t
  | black =>
    unfold act
    exact toolTable_exists_ok _ blackSetter_covers htyped t
  | flake8 =>
    unfold act
    exact toolTable_exists_ok _ flake8Setter_covers htyped t
  | mypy =>
    unfold act
    exact toolTable_exists_ok _ mypySetter_covers htyped t

/-- **Each setting follows the entries of its table**, once that is read over the defaults. -/
theorem follows (P : Part τ) {k : Setting α} (htable : k.table = P.name) (once : inner.keys.Nodup)
    {u : τ} (h : P.act (.table form inner) (P.get {}) = .ok u) :
    Follows inner k.key (fun i v => k.load i = .ok v) (k.get (P.place u)) (k.get {}) := by
  cases P
  case pipeline =>
    have hknown : pipelineSetter k.key ≠ none := by
      cases k with
      | activate | shell | timeout | captureOutput => exact Option.some_ne_none _
      | program tool | extraArgs tool => exact absurd htable (by cases tool <;> decide)
      | _ => exact absurd htable (by decide)
    exact (pipelineSetter_covers.governs htable hknown).takeOver_follows once h
  all_goals rw [act] at h
  case' isort => refine toolTable_follows _ isortSetter_covers htable ?_ once rfl h
  case' black => refine toolTable_follows _ blackSetter_covers htable ?_ once rfl h
  case' flake8 => refine toolTable_follows _ flake8Setter_covers htable ?_ once rfl h
  case' mypy => refine toolTable_follows _ mypySetter_covers htable ?_ once rfl h
  -- a setting of a tool's table is either a shared one or one of its own
  all_goals
    cases k with
    | program tool | extraArgs tool =>
      cases tool <;> exact Or.inr ⟨Option.some_ne_none _, fun _ _ => rfl⟩
    | _ => first
        | exact Or.inl ⟨Option.some_ne_none _, fun _ _ => rfl⟩
        | exact absurd htable (by decide)

end Part

end QualityGate
