import QualityGate.Proofs.Settings.Decoding
import QualityGate.Proofs.Toml.Array
import QualityGate.Proofs.Toml.Blocks
import QualityGate.Proofs.Toml.Number
/-!
## Documents that assign values to settings

An assignment gives values to some of the recognised settings. `Assignment.LaidOut` holds of the documents that
write these values and nothing else: each table below its header, with dotted keys or as one inline table,
tables and keys in any order, keys bare or in quotes, with any comments, blank lines and line ends.

* `Setting.readsAs_spells`: what spells a value of a setting is read as that value.
* `Assignment.ofToml_laidOut`: every such document decodes to the settings of the assignment.
-/

namespace QualityGate

open Toml (ArrayText Arranged Block BlockLines Entries Input IsArray IsString Item Lines ReadsAs Spelling
  StringText WritesInteger booleanText dropMark)

variable {α β : Type}

/-! ### Values as they are written -/

namespace Setting

/-- **A text spells a value of a setting**: a string of one line, an array of such strings, a boolean, or an
integer in any radix. -/
def Spells : Setting α → α → List Char → Prop
  | activate, v, w | shell, v, w | settingsPath, v, w | isortTarget, v, w | blackTarget, v, w
  | flake8Config, v, w | mypyTarget, v, w => StringText v w
  | timeout, v, w | program _, v, w => ∃ s, v = some s ∧ StringText s w
  | captureOutput, v, w | skipStringNormalization, v, w => w = booleanText v
  | lineLength, v, w => WritesInteger w v.toNat
  | extraArgs _, vs, w => ∃ ws, ArrayText ws w ∧ List.Forall₂ StringText vs ws

theorem string?_of_isString {s : String} {item : Item} (h : IsString s item) : item.string? = some s := by
  obtain ⟨span, rfl⟩ := h
  rfl

theorem strings?_of_isArray {vs : List String} {item : Item} (h : IsArray IsString vs item) :
    item.strings? = some vs := by
  obtain ⟨items, span, rfl, hall⟩ := h
  rw [Item.strings?]
  induction hall with
  | nil => rfl
  | cons hs _ ih =>
    rw [List.mapM_cons, string?_of_isString hs, ih]
    rfl

theorem readsAs_count {v : UInt32} {w : List Char} (h : WritesInteger w v.toNat) :
    ReadsAs 0 w fun item => item.count? = some v := by
  have hread := Toml.readsTo_integer h
  have hbound : v.toNat < 4294967296 := v.toNat_lt
  refine ⟨hread.head, fun {depth} hdepth {rest} hrest => ?_⟩
  rcases hread.reads hdepth hrest with ⟨item, hvalue, -, span, rfl⟩ | ⟨-, hnone⟩
  · refine Or.inl ⟨_, hvalue, _, rfl, ?_⟩
    have hrange : (0 : Int) ≤ v.toNat ∧ (v.toNat : Int) < 4294967296 := by omega
    show Item.count? (.scalar (.integer v.toNat) span) = some v
    rw [Item.count?, if_pos hrange, Int.toNat_natCast, UInt32.ofNat_toNat]
  · refine absurd ?_ hnone
    rw [Toml.Fits, Toml.signedBound]
    omega

/-- **What spells a value is read as that value** wherever it stands. -/
theorem readsAs_spells {k : Setting α} {v : α} {w : List Char} (h : k.Spells v w) :
    ReadsAs 1 w fun item => k.read? item = some v := by
  cases k with
  | activate | shell | settingsPath | isortTarget | blackTarget | flake8Config | mypyTarget =>
    exact (Toml.readsAs_string h).mono (Nat.zero_le 1) fun _ => string?_of_isString
  | timeout | program _ =>
    obtain ⟨s, rfl, h⟩ := h
    refine (Toml.readsAs_string h).mono (Nat.zero_le 1) fun item hitem => ?_
    rw [read?, string?_of_isString hitem]
    rfl
  | captureOutput | skipStringNormalization =>
    obtain rfl := h
    refine (Toml.readsAs_boolean v).mono (Nat.zero_le 1) fun item hitem => ?_
    obtain ⟨span, rfl⟩ := hitem
    rfl
  | lineLength => exact (readsAs_count h).mono (Nat.zero_le 1) fun _ => id
  -- each string of the list is read where no array may nest deeper
  | extraArgs _ =>
    obtain ⟨ws, harray, hall⟩ := h
    have hread : List.Forall₂ (fun s w => ReadsAs 0 w (IsString s)) v ws :=
      hall.imp fun _ _ => Toml.readsAs_string
    exact (Toml.readsAs_array harray hread).mono (Nat.le_refl 1) fun _ => strings?_of_isArray

/-- Table and key tell settings apart. -/
theorem eq_of_table_key {k : Setting α} {j : Setting β} (htable : k.table = j.table)
    (hkey : k.key = j.key) : (⟨α, k⟩ : Σ α, Setting α) = ⟨β, j⟩ := by
  have hk := k.find?_self
  rw [htable, hkey, j.find?_self] at hk
  exact (Option.some.inj hk).symm

end Setting

/-! ### Assignments -/

/-- **Values for some of the recognised settings.** -/
structure Assignment where
  value? : {α : Type} → Setting α → Option α

namespace Assignment

variable {A : Assignment} {spelling : String → Spelling} {text : Input}

/-- The value that a setting has then, its default if it is assigned none. -/
def value (A : Assignment) (k : Setting α) : α :=
  (A.value? k).getD (k.get {})

/-- What a tool's table overrides then. -/
def overrides (A : Assignment) (tool : Tool) : Overrides where
  program := A.value (.program tool)
  extraArgs := A.value (.extraArgs tool)

/-- **The settings that have the assigned values**, and the defaults where none is assigned. -/
def settings (A : Assignment) : Settings where
  pipeline :=
    { activate := A.value .activate, shell := A.value .shell, timeout := A.value .timeout,
      captureOutput := A.value .captureOutput }
  isort :=
    { settingsPath := A.value .settingsPath, target := A.value .isortTarget, overrides := A.overrides .isort }
  black :=
    { lineLength := A.value .lineLength, skipStringNormalization := A.value .skipStringNormalization,
      target := A.value .blackTarget, overrides := A.overrides .black }
  flake8 := { config := A.value .flake8Config, overrides := A.overrides .flake8 }
  mypy := { target := A.value .mypyTarget, overrides := A.overrides .mypy }

theorem get_settings (A : Assignment) (k : Setting α) : k.get A.settings = A.value k := by
  cases k with
  | program tool | extraArgs tool => cases tool <;> rfl
  | _ => rfl

/-- **Blocks define the assigned settings**, each with what spells its value, and no other key. -/
structure Fills (A : Assignment) (blocks : List Block) : Prop where
  each : ∀ b ∈ blocks, ∀ d ∈ b.definitions, ∃ (α : Type) (k : Setting α) (v : α),
    k.table = b.table ∧ k.key = d.key ∧ A.value? k = some v ∧ k.Spells v d.text
  all : ∀ (α : Type) (k : Setting α), (A.value? k).isSome = true →
    (k.table, k.key) ∈ blocks.flatMap Block.names

/-- **The documents that assign exactly these values**, each table being spelled as chosen. -/
def LaidOut (A : Assignment) (spelling : String → Spelling) (text : Input) : Prop :=
  ∃ blocks parts, Arranged spelling blocks ∧ A.Fills blocks ∧ List.Forall₂ BlockLines blocks parts ∧
    Lines parts.flatten (dropMark text)

/-- An item is the assigned value of the setting of a key. -/
def Tells (A : Assignment) (table key : String) (item : Item) : Prop :=
  ∃ (α : Type) (k : Setting α) (v : α), k.table = table ∧ k.key = key ∧ A.value? k = some v ∧
    k.read? item = some v

/-- Of the settings, only the one of the table and the key can be meant. -/
theorem Tells.value? {k : Setting α} {item : Item} (h : A.Tells k.table k.key item) :
    ∃ v, A.value? k = some v ∧ k.read? item = some v := by
  obtain ⟨β, j, v, htable, hkey, hvalue, hread⟩ := h
  cases Setting.eq_of_table_key htable hkey
  exact ⟨v, hvalue, hread⟩

section Shows

variable {tables : List String} {names : List (String × String)} {es : Entries}

/-- An entry of a document that shows an assignment is a table of assigned values. -/
theorem exists_table_of_mem (hshows : es.Shows A.Tells spelling tables names) (hwell : es.WellFormed)
    {e : Toml.Key × Item} (he : e ∈ es) : ∃ form inner, e.2 = .table form inner ∧
      ∀ d ∈ inner, A.Tells e.1.name d.1.name d.2 := by
  obtain ⟨-, form, inner, htable, hinner, -⟩ :=
    hshows.sound _ _ (Entries.get?_of_mem hwell.once he)
  refine ⟨form, inner, htable, fun d hd => ?_⟩
  have hparts := hwell.parts e he
  rw [htable, Item.wellFormed_table_iff] at hparts
  exact (hinner _ _ (Entries.get?_of_mem hparts.once hd)).2

theorem wellTyped_of_shows (hshows : es.Shows A.Tells spelling tables names) (hwell : es.WellFormed) :
    es.WellTyped := by
  intro e he _
  obtain ⟨form, inner, htable, hinner⟩ := exists_table_of_mem hshows hwell he
  rw [htable]
  intro α k hk d hd hkey
  have htells := hinner d hd
  rw [← hk, hkey] at htells
  obtain ⟨v, -, hread⟩ := htells.value?
  exact ⟨v, hread⟩

/-- **A document that shows an assignment writes the assigned values** and no others. -/
theorem writes_iff_of_shows (hshows : es.Shows A.Tells spelling tables names) (hwell : es.WellFormed)
    (hall : ∀ (α : Type) (k : Setting α), (A.value? k).isSome = true → (k.table, k.key) ∈ names)
    (k : Setting α) (v : α) : k.Writes es v ↔ A.value? k = some v := by
  constructor
  · rintro ⟨e, he, hname, hwritten⟩
    obtain ⟨_, _, htable, d, hd, hkey, hread⟩ := hwritten.exists_table
    obtain ⟨form, inner, hsame, hinner⟩ := exists_table_of_mem hshows hwell he
    rw [htable] at hsame
    cases hsame
    -- what stands at the key tells the value that is assigned to it, so it is the one written
    have htells := hinner d hd
    rw [hname, hkey] at htells
    obtain ⟨v', hvalue, hread'⟩ := htells.value?
    rw [hread] at hread'
    rw [hvalue, hread']
  · intro hvalue
    obtain ⟨form, inner, hfound, hkey⟩ := hshows.complete k.table k.key
      (hall α k (by rw [hvalue]; rfl))
    obtain ⟨item, hitem⟩ := Option.ne_none_iff_exists'.mp hkey
    obtain ⟨e, he, hname, htable⟩ := Entries.mem_of_get? hfound
    obtain ⟨d, hd, hdkey, rfl⟩ := Entries.mem_of_get? hitem
    obtain ⟨_, _, hsame, hinner⟩ := exists_table_of_mem hshows hwell he
    rw [htable] at hsame
    cases hsame
    have htells := hinner d hd
    rw [hname, hdkey] at htells
    obtain ⟨v', hvalue', hread⟩ := htells.value?
    rw [hvalue] at hvalue'
    cases hvalue'
    refine ⟨e, he, hname, ?_⟩
    rw [htable]
    exact ⟨d, hd, hdkey, hread⟩

end Shows

/-! ### Decoding -/

/-- **A document of an assignment decodes to its settings**, however it is laid out. -/
theorem ofToml_laidOut {text : String} (h : A.LaidOut spelling text.toList) :
    Settings.ofToml text = .ok A.settings := by
  obtain ⟨blocks, parts, harranged, hfills, hparts, hlines⟩ := h
  have hread : ∀ b ∈ blocks, ∀ d ∈ b.definitions, ReadsAs 1 d.text (A.Tells b.table d.key) := by
    intro b hb d hd
    obtain ⟨α, k, v, htable, hkey, hvalue, hspells⟩ := hfills.each b hb d hd
    refine (Setting.readsAs_spells hspells).mono (Nat.le_refl 1) fun item hitem => ?_
    exact ⟨α, k, v, htable, hkey, hvalue, hitem⟩
  obtain ⟨root, hroot, hshows⟩ := Toml.document_blocks harranged hparts hread (by decide) hlines
  have hwell := Toml.document_wellFormed hroot
  obtain ⟨s, hs, hget⟩ := Settings.exists_ofToml hroot (wellTyped_of_shows hshows hwell)
  have hsettings : s = A.settings := by
    -- settings that agree in each of them are the same
    refine Setting.ext fun α k => ?_
    have hwrites := writes_iff_of_shows hshows hwell hfills.all k
    rw [A.get_settings, value]
    cases hvalue : A.value? k with
    | none =>
      refine (hget α k).2 fun v hv => ?_
      rw [(hwrites v).mp hv] at hvalue
      cases hvalue
    | some v => exact (hget α k).1 v ((hwrites v).mpr hvalue)
  rw [hs, hsettings]

end Assignment
end QualityGate
