import QualityGate.Proofs.Settings.Decoding
/-!
## Which documents are read as settings

A recognised table is read if it is one and its settings have their types, and in no other way but
two: a date-time is taken for an empty table, and the table of the run as a whole may be an array of
its settings in their order (`Item.StandsIn`). A document is read exactly if each of its recognised
tables is.

* `Setting.read?_of_load`: an item that is read as a setting has its type and range.
* `Part.exists_ok_iff`: which items are read as a table of the settings.
* `Settings.exists_ofToml_iff`: which documents are read.
-/

namespace QualityGate

open Toml (Item Key Entries)

/-! ### What is read has its type -/

theorem string?_of_asString {i : Item} {v : String} (h : asString i = .ok v) :
    i.string? = some v := by
  unfold asString at h
  split at h
  · exact congrArg some (Except.ok.inj h)
  · cases h

theorem boolean?_of_asBool {i : Item} {v : Bool} (h : asBool i = .ok v) : i.boolean? = some v := by
  unfold asBool at h
  split at h
  · exact congrArg some (Except.ok.inj h)
  · cases h

theorem count?_of_asCount {i : Item} {v : UInt32} (h : asCount i = .ok v) : i.count? = some v := by
  unfold asCount at h
  split at h
  · split at h
    · rename_i hrange
      rw [Item.count?, if_pos hrange]
      exact congrArg some (Except.ok.inj h)
    · cases h
  · cases h

/-- A list of tables would be read as a list of strings only if it were empty. -/
theorem strings?_of_asStrings {i : Item} (hi : i.WellFormed) {vs : List String}
    (h : asStrings i = .ok vs) : i.strings? = some vs := by
  unfold asStrings at h
  split at h
  · rename_i items span
    rw [Item.strings?]
    clear hi
    induction items generalizing vs with
    | nil => exact congrArg some (Except.ok.inj h)
    | cons item items ih =>
      rw [List.mapM_cons] at h ⊢
      cases hv : asString item with
      | error r =>
        rw [hv] at h
        cases h
      | ok v =>
        cases hvs : items.mapM asString with
        | error r =>
          rw [hv, hvs] at h
          cases h
        | ok vs' =>
          rw [hv, hvs] at h
          rw [string?_of_asString hv, ih hvs]
          exact congrArg some (Except.ok.inj h)
  · split at h
    · exact absurd rfl (Item.wellFormed_tables_iff.mp hi).1
    · cases h
  · cases h

/-- **An item that is read as a setting** has its type and range. -/
theorem Setting.read?_of_load {k : Setting α} {i : Item} (hi : i.WellFormed) {v : α}
    (h : k.load i = .ok v) : k.read? i = some v := by
  cases k with
  | activate | shell | settingsPath | isortTarget | blackTarget | flake8Config | mypyTarget =>
    exact string?_of_asString h
  | timeout | program _ =>
    obtain ⟨s, hs, rfl⟩ := exists_of_map_eq_ok h
    rw [read?, string?_of_asString hs]
    rfl
  | captureOutput | skipStringNormalization => exact boolean?_of_asBool h
  | lineLength => exact count?_of_asCount h
  | extraArgs _ => exact strings?_of_asStrings hi h

/-! ### Tables -/

/-- The settings in entries that are taken over have their types. -/
theorem Setter.Covers.exists_read? {setter : Setter τ} {name : String} {place : τ → Settings}
    (hc : setter.Covers name place) {k : Setting α} (htable : k.table = name)
    (hknown : setter k.key ≠ none) {inner : Entries} (hinner : inner.WellFormed) {t u : τ}
    (h : takeOver setter t inner = .ok u) :
    ∀ d ∈ inner, d.1.name = k.key → ∃ v, k.read? d.2 = some v := by
  intro d hd hkey
  obtain ⟨put, hput⟩ := Option.ne_none_iff_exists'.mp hknown
  obtain ⟨t, t', ht'⟩ := exists_ok_of_takeOver h d hd put (hkey ▸ hput)
  exact ⟨_, k.read?_of_load (hinner.parts d hd) ((hc.governs htable hknown).act_eq hput ht')⟩

section ToolTable

variable {expected : String} {setter : Setter τ} {share : Overrides → τ → τ} {tool : Tool}
  {place : τ → Settings}

/-- A tool's table that is read is typed, if each of its settings is known to one of the two readings. -/
theorem isTyped_of_toolTable (hc : setter.Covers tool.name place)
    (hknown : ∀ (α : Type) (k : Setting α), k.table = tool.name →
      setter k.key ≠ none ∨ overridesSetter k.key ≠ none)
    {form : Toml.TableForm} {inner : Entries} (hinner : inner.WellFormed) {t u : τ}
    (h : toolTable expected setter share (.table form inner) t = .ok u) :
    (Item.table form inner).IsTyped tool.name := by
  obtain ⟨t', o, hown, hshared, -⟩ := (toolTable_eq_ok expected).mp h
  intro α k htable
  rcases hknown α k htable with hk | hk
  · exact hc.exists_read? htable hk hinner hown
  · exact (overridesSetter_covers tool).exists_read? htable hk hinner hshared

end ToolTable

/-! ### Tables in another form -/

/-- The settings of the run as a whole in the order in which an array gives them. -/
def Setting.positional : List (Σ α, Setting α) :=
  [⟨_, activate⟩, ⟨_, shell⟩, ⟨_, timeout⟩, ⟨_, captureOutput⟩]

/-- **An item that stands in for the table called `name`**: a date-time, which is taken for a table
without entries, or, for the table of the run as a whole, an array whose first values have the types of
its settings. -/
def Toml.Item.StandsIn (name : String) : Item → Prop
  | scalar .dateTime _ => True
  | array items _ =>
    name = "pipeline" ∧ ∀ p ∈ Setting.positional.zip items, ∃ v, p.1.2.read? p.2 = some v
  | _ => False

instance (name : String) : DecidablePred (Item.StandsIn name)
  | .scalar .dateTime _ => isTrue trivial
  | .scalar (.string _) _ => isFalse id
  | .scalar (.integer _) _ => isFalse id
  | .scalar (.float _) _ => isFalse id
  | .scalar (.boolean _) _ => isFalse id
  | .array items _ =>
    decidable_of_iff
      (name = "pipeline" ∧ ∀ p ∈ Setting.positional.zip items, (p.1.2.read? p.2).isSome = true) <| by
      simp only [Item.StandsIn, Option.isSome_iff_exists]
  | .table _ _ => isFalse id
  | .tables _ => isFalse id

/-- **An array is taken over by position** exactly if its first values have their types. -/
theorem takePositional_iff {settings : List (Σ α, Setting α)}
    (hsettings : ∀ k ∈ settings, k.2.table = "pipeline" ∧ pipelineSetter k.2.key ≠ none)
    {items : List Item} (hitems : ∀ i ∈ items, i.WellFormed) (t : PipelineTable) :
    (∃ u, takePositional t (settings.map (·.2.key)) items = .ok u) ↔
      ∀ p ∈ settings.zip items, ∃ v, p.1.2.read? p.2 = some v := by
  induction settings generalizing items t with
  | nil => simp [takePositional]
  | cons k settings ih =>
    cases items with
    | nil => simp [takePositional]
    | cons i items =>
      obtain ⟨⟨htable, hknown⟩, hsettings⟩ := List.forall_mem_cons.mp hsettings
      obtain ⟨hi, hitems⟩ := List.forall_mem_cons.mp hitems
      obtain ⟨put, hput⟩ := Option.ne_none_iff_exists'.mp hknown
      -- the value goes to the setting at this place, whatever the ones before it were
      have hgoverns := pipelineSetter_covers.governs htable hknown
      rw [List.map_cons, takePositional, hput, List.zip_cons_cons, List.forall_mem_cons]
      dsimp only
      constructor
      · intro h
        cases hnext : put i t with
        | error r =>
          rw [hnext] at h
          obtain ⟨u, hu⟩ := h
          cases hu
        | ok next =>
          rw [hnext] at h
          exact ⟨⟨_, k.2.read?_of_load hi (hgoverns.act_eq hput hnext)⟩,
            (ih hsettings hitems next).mp h⟩
      · rintro ⟨⟨v, hv⟩, hrest⟩
        obtain ⟨next, hnext⟩ := hgoverns.exists_ok (t := t) hput (Setting.load_of_read? hv)
        rw [hnext]
        exact (ih hsettings hitems next).mpr hrest

theorem takePositional_pipelineOrder_iff {items : List Item} (hitems : ∀ i ∈ items, i.WellFormed)
    (t : PipelineTable) : (∃ u, takePositional t pipelineOrder items = .ok u) ↔
      ∀ p ∈ Setting.positional.zip items, ∃ v, p.1.2.read? p.2 = some v := by
  have hsettings : ∀ k ∈ Setting.positional,
      k.2.table = "pipeline" ∧ pipelineSetter k.2.key ≠ none := by
    simp [Setting.positional, Setting.table, Setting.key, pipelineSetter]
  exact takePositional_iff hsettings hitems t

/-- Every setting of the run as a whole is known to its table. -/
theorem pipelineSetter_known {k : Setting α} (htable : k.table = "pipeline") :
    pipelineSetter k.key ≠ none := by
  cases k with
  | activate | shell | timeout | captureOutput => exact Option.some_ne_none _
  | program tool | extraArgs tool => exact absurd htable (by cases tool <;> decide)
  | _ => exact absurd htable (by decide)

/-- **What is read as the table of the run as a whole.** -/
theorem pipelineTable_exists_ok_iff {i : Item} (hi : i.WellFormed) (t : PipelineTable) :
    (∃ u, pipelineTable i t = .ok u) ↔ i.IsTyped "pipeline" ∨ i.StandsIn "pipeline" := by
  cases i with
  | scalar value span =>
    cases value with
    | dateTime => exact ⟨fun _ => Or.inr trivial, fun _ => ⟨t, rfl⟩⟩
    | _ =>
      constructor
      · rintro ⟨u, ⟨⟩⟩
      · rintro (h | h) <;> exact h.elim
  | array items span =>
    cases hi with
    | array parts =>
      have hread := takePositional_pipelineOrder_iff parts t
      constructor
      · exact fun h => Or.inr ⟨rfl, hread.mp h⟩
      · rintro (h | ⟨-, hitems⟩)
        · exact h.elim
        · exact hread.mpr hitems
  | table form inner =>
    have hinner := Item.wellFormed_table_iff.mp hi
    constructor
    · rintro ⟨u, hu⟩
      refine Or.inl fun α k htable => ?_
      exact pipelineSetter_covers.exists_read? htable (pipelineSetter_known htable) hinner hu
    · rintro (htyped | hstands)
      · exact pipelineSetter_covers.exists_ok htyped t
      · exact hstands.elim
  | tables list =>
    -- the first of the tables is no string, as the first setting has to be
    obtain ⟨hne, hlist⟩ := Item.wellFormed_tables_iff.mp hi
    obtain ⟨first, rest, rfl⟩ := List.exists_cons_of_ne_nil hne
    have hitems : ∀ i ∈ (first :: rest).map (fun e => Item.table e.1 e.2), i.WellFormed :=
      List.forall_mem_map.mpr fun e he => Item.wellFormed_table_iff.mpr (hlist e he)
    constructor
    · intro h
      obtain ⟨v, hv⟩ := (takePositional_pipelineOrder_iff hitems t).mp h
        (⟨_, .activate⟩, .table first.1 first.2) List.mem_cons_self
      cases hv
    · rintro (h | h) <;> exact h.elim

/-- **What is read as a tool's table.** -/
theorem toolTable_exists_ok_iff {expected : String} {setter : Setter τ} {share : Overrides → τ → τ}
    {tool : Tool} {place : τ → Settings} (hc : setter.Covers tool.name place)
    (hknown : ∀ (α : Type) (k : Setting α), k.table = tool.name →
      setter k.key ≠ none ∨ overridesSetter k.key ≠ none)
    {i : Item} (hi : i.WellFormed) (t : τ) :
    (∃ u, toolTable expected setter share i t = .ok u) ↔
      i.IsTyped tool.name ∨ i.StandsIn tool.name := by
  cases i with
  | scalar value span =>
    cases value with
    -- a date stands in for the empty table
    | dateTime => exact ⟨fun _ => Or.inr trivial, fun _ => ⟨share {} t, rfl⟩⟩
    | _ =>
      constructor
      · rintro ⟨u, ⟨⟩⟩
      · rintro (h | h) <;> exact h.elim
  | array items span =>
    have hname : tool.name ≠ "pipeline" := by cases tool <;> decide
    constructor
    · rintro ⟨u, ⟨⟩⟩
    · rintro (h | ⟨hpipeline, -⟩)
      · exact h.elim
      · exact absurd hpipeline hname
  | table form inner =>
    constructor
    · rintro ⟨u, hu⟩
      exact Or.inl (isTyped_of_toolTable hc hknown (Item.wellFormed_table_iff.mp hi) hu)
    · rintro (htyped | hstands)
      · exact toolTable_exists_ok expected hc htyped t
      · exact hstands.elim
  | tables list =>
    constructor
    · rintro ⟨u, ⟨⟩⟩
    · rintro (h | h) <;> exact h.elim

/-- **What is read as a table of the settings**: a typed table, or what stands in for it. -/
theorem Part.exists_ok_iff (P : Part τ) {i : Item} (hi : i.WellFormed) (t : τ) :
    (∃ u, P.act i t = .ok u) ↔ i.IsTyped P.name ∨ i.StandsIn P.name := by
  cases P
  case pipeline => exact pipelineTable_exists_ok_iff hi t
  all_goals unfold act
  case' isort => refine toolTable_exists_ok_iff isortSetter_covers (fun α k htable => ?_) hi t
  case' black => refine toolTable_exists_ok_iff blackSetter_covers (fun α k htable => ?_) hi t
  case' flake8 => refine toolTable_exists_ok_iff flake8Setter_covers (fun α k htable => ?_) hi t
  case' mypy => refine toolTable_exists_ok_iff mypySetter_covers (fun α k htable => ?_) hi t
  -- a setting of a tool's table is either a shared one or one of its own
  all_goals
    cases k with
    | program tool | extraArgs tool => exact Or.inr (Option.some_ne_none _)
    | _ => first
        | exact Or.inl (Option.some_ne_none _)
        | exact absurd htable (by decide)

/-! ### Documents -/

/-- **Each recognised table that is present is typed, or something stands in for it.** -/
def Toml.Entries.Readable (es : Entries) : Prop :=
  ∀ e ∈ es, e.1.name ∈ tableNames → e.2.IsTyped e.1.name ∨ e.2.StandsIn e.1.name

theorem exists_part_of_mem_tableNames {name : String} (h : name ∈ tableNames) :
    ∃ (τ : Type) (P : Part τ), P.name = name := by
  simp only [tableNames, Tool.all, List.map_cons, List.map_nil, List.mem_cons, List.not_mem_nil,
    or_false] at h
  rcases h with rfl | rfl | rfl | rfl | rfl
  exacts [⟨_, .pipeline, rfl⟩, ⟨_, .isort, rfl⟩, ⟨_, .black, rfl⟩, ⟨_, .flake8, rfl⟩,
    ⟨_, .mypy, rfl⟩]

/-- **The entries that are taken over** are the readable ones. -/
theorem Settings.exists_ofEntries_iff {es : Entries} (hes : es.WellFormed) :
    (∃ s, Settings.ofEntries es = .ok s) ↔ es.Readable := by
  constructor
  · rintro ⟨s, hs⟩ e he hname
    obtain ⟨τ, P, hP⟩ := exists_part_of_mem_tableNames hname
    have hgoverns := settingsSetter_governs P
    obtain ⟨put, hput, -⟩ := hgoverns.here
    obtain ⟨t, t', ht'⟩ := exists_ok_of_takeOver hs e he put (hP ▸ hput)
    rw [← hP]
    exact (P.exists_ok_iff (hes.parts e he) (P.get t)).mp ⟨_, hgoverns.act_eq hput ht'⟩
  · intro hreadable
    refine takeOver_ok (fun e he put hput s => ?_) ({} : Settings)
    obtain ⟨τ, P, hP⟩ := settingsSetter_known hput
    have hitem := hreadable e he (hP ▸ P.name_mem_tableNames)
    rw [← hP] at hitem hput
    obtain ⟨t, ht⟩ := (P.exists_ok_iff (hes.parts e he) (P.get s)).mpr hitem
    exact (settingsSetter_governs P).exists_ok hput ht

/-- **The documents that are read as settings** are those with readable entries. -/
theorem Settings.exists_ofToml_iff {text : String} {root : Toml.Table}
    (hroot : Toml.document text.toList = .ok root) :
    (∃ s, Settings.ofToml text = .ok s) ↔ root.entries.Readable := by
  rw [← Settings.exists_ofEntries_iff (Toml.document_wellFormed hroot), Settings.ofToml, hroot]
  dsimp only
  cases Settings.ofEntries root.entries with
  | ok s => exact ⟨fun _ => ⟨s, rfl⟩, fun _ => ⟨s, rfl⟩⟩
  | error r => constructor <;> rintro ⟨s, ⟨⟩⟩

namespace Settings

/-- A document with a date-time in place of a table, and with a setting of the wrong type. -/
def mistyped : String :=
  "isort = 1979-05-27\n[black]\nline_length = 1.5\n"

theorem exists_document_mistyped :
    ∃ root, Toml.document mistyped.toList = .ok root ∧
      ∃ e ∈ root.entries, e.1.name ∈ tableNames ∧
        ¬e.2.IsTyped e.1.name ∧ ¬e.2.StandsIn e.1.name := by
  unfold mistyped
  rw [String.toList_ofList]
  decide +kernel

/-- A document with an array and a date-time in place of tables. -/
def standIns : String :=
  "pipeline = [\x22act\x22]\nisort = 1979-05-27\n"

theorem exists_document_standIns :
    ∃ root, Toml.document standIns.toList = .ok root ∧ ¬root.entries.WellTyped ∧
      ofToml standIns = .ok { pipeline := { activate := "act" } } := by
  obtain ⟨root, hroot, htyped, _, hentries, rfl⟩ :
      ∃ root, Toml.document standIns.toList = .ok root ∧ ¬root.entries.WellTyped ∧
        ∃ s, ofEntries root.entries = .ok s ∧ s = { pipeline := { activate := "act" } } := by
    unfold standIns
    rw [String.toList_ofList]
    decide +kernel
  exact ⟨root, hroot, htyped, ofToml_of_document hroot hentries⟩

end Settings
end QualityGate
