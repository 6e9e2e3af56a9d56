import QualityGate.Proofs.Settings.Tables
import QualityGate.Proofs.Toml.Document
/-!
## Well-typed documents decode to what they write

A document defines no key twice (`Toml.document_wellFormed`), so each of the five records follows the
entries at the name of its table, and each setting in it those of the table at its own key.

* `Settings.get_of_ofEntries`: each setting is what the document writes, or its default.
* `Settings.ofToml_wellTyped`: a document that is well typed decodes, and what it decodes to depends on
  nothing but what it writes.
-/

namespace QualityGate

open Toml (Item Key Entries)

/-! ### The tables of a document -/

/-- **Each of the five tables governs its record.** -/
theorem settingsSetter_governs (P : Part τ) : settingsSetter.Governs P.name P.get P.act := by
  have hmap (σ : Type) (r : Except Refusal σ) (f : σ → Settings) (g : Settings → σ)
      (hfg : ∀ t, g (f t) = t) : (r.map f).map g = r := by
    cases r with
    | ok t => exact congrArg Except.ok (hfg t)
    | error e => rfl
  constructor
  · cases P <;> exact ⟨_, rfl, fun i s => hmap _ _ _ _ fun _ => rfl⟩
  · intro key put hne hput i s s' h
    unfold settingsSetter at hput
    split_ifs at hput
    all_goals
      obtain rfl := Option.some.inj hput
      obtain ⟨t, -, rfl⟩ := exists_of_map_eq_ok h
      cases P <;> first | rfl | exact absurd ‹_› hne

/-- No other key is known. -/
theorem settingsSetter_known {key : String} {put : Item → Settings → Except Refusal Settings}
    (h : settingsSetter key = some put) : ∃ (τ : Type) (P : Part τ), P.name = key := by
  unfold settingsSetter at h
  split_ifs at h with h1 h2 h3 h4 h5
  · exact ⟨_, .pipeline, h1.symm⟩
  · exact ⟨_, .isort, h2.symm⟩
  · exact ⟨_, .black, h3.symm⟩
  · exact ⟨_, .flake8, h4.symm⟩
  · exact ⟨_, .mypy, h5.symm⟩

theorem Part.name_mem_tableNames (P : Part τ) : P.name ∈ tableNames := by
  cases P <;> decide

/-- Every setting stands in one of the five tables. -/
theorem Setting.exists_part (k : Setting α) : ∃ (τ : Type) (P : Part τ), k.table = P.name := by
  cases k with
  | activate | shell | timeout | captureOutput => exact ⟨_, .pipeline, rfl⟩
  | settingsPath | isortTarget => exact ⟨_, .isort, rfl⟩
  | lineLength | skipStringNormalization | blackTarget => exact ⟨_, .black, rfl⟩
  | flake8Config => exact ⟨_, .flake8, rfl⟩
  | mypyTarget => exact ⟨_, .mypy, rfl⟩
  | program tool | extraArgs tool =>
    cases tool
    exacts [⟨_, .isort, rfl⟩, ⟨_, .black, rfl⟩, ⟨_, .flake8, rfl⟩, ⟨_, .mypy, rfl⟩]

/-- An item that is typed is a table. -/
theorem Toml.Item.IsTyped.exists_table {name : String} {i : Item} (h : i.IsTyped name) :
    ∃ form inner, i = .table form inner := by
  cases i with
  | table form inner => exact ⟨form, inner, rfl⟩
  | scalar value span => exact h.elim
  | array items span => exact h.elim
  | tables list => exact h.elim

/-! ### Documents -/

/-- An item that writes a setting is a table. -/
theorem Setting.WrittenIn.exists_table {k : Setting α} {v : α} {i : Item} (h : k.WrittenIn v i) :
    ∃ form inner, i = .table form inner ∧
      ∃ d ∈ inner, d.1.name = k.key ∧ k.read? d.2 = some v := by
  cases i with
  | table form inner => exact ⟨form, inner, rfl, h⟩
  | scalar value span => exact h.elim
  | array items span => exact h.elim
  | tables list => exact h.elim

section Documents

variable {es : Entries} {s : Settings}

/-- **The entries of a well-typed document are taken over.** -/
theorem Settings.exists_ofEntries (htyped : es.WellTyped) : ∃ s, Settings.ofEntries es = .ok s := by
  refine takeOver_ok (fun e he put hput s => ?_) ({} : Settings)
  obtain ⟨τ, P, hname⟩ := settingsSetter_known hput
  have hitem := htyped e he (hname ▸ P.name_mem_tableNames)
  obtain ⟨form, inner, htable⟩ := hitem.exists_table
  rw [htable, ← hname] at hitem
  obtain ⟨t, ht⟩ := P.exists_ok hitem (P.get s)
  rw [← hname] at hput
  rw [htable]
  exact (settingsSetter_governs P).exists_ok hput ht

/-- **Each setting is what the document writes**, or its default if nothing is written. -/
theorem Settings.get_of_ofEntries (htyped : es.WellTyped) (hd : es.WellFormed)
    (h : Settings.ofEntries es = .ok s) (k : Setting α) :
    (∀ v, k.Writes es v → k.get s = v) ∧ ((∀ v, ¬ k.Writes es v) → k.get s = k.get {}) := by
  obtain ⟨τ, P, hP⟩ := k.exists_part
  have hpart : Follows es P.name (fun i t => P.act i (P.get {}) = .ok t) (P.get s) (P.get {}) :=
    (settingsSetter_governs P).takeOver_follows hd.once h
  have hinner : ∀ e ∈ es, e.1.name = k.table → ∀ form inner, e.2 = .table form inner →
      Follows inner k.key (fun i v => k.load i = .ok v) (k.get s) (k.get {}) := by
    intro e he hname form inner htable
    have hread := hpart.present e he (hname.trans hP)
    have honce := (hd.parts e he)
    rw [htable] at hread honce
    rw [← P.get_place_get hP s]
    exact P.follows hP (Item.wellFormed_table_iff.mp honce).once hread
  constructor
  · rintro v ⟨e, he, hname, hwritten⟩
    obtain ⟨form, inner, htable, d, hd, hkey, hread⟩ := hwritten.exists_table
    have htold := (hinner e he hname form inner htable).present d hd hkey
    rw [Setting.load_of_read? hread] at htold
    exact (Except.ok.inj htold).symm
  · intro hnone
    -- its table lacks the key, or there is no such table and the whole record is the default
    by_cases htable : ∃ e ∈ es, e.1.name = k.table
    · obtain ⟨e, he, hname⟩ := htable
      have hitem := htyped e he (hname ▸ hP ▸ P.name_mem_tableNames)
      obtain ⟨form, inner, hinnerTable⟩ := hitem.exists_table
      refine (hinner e he hname form inner hinnerTable).absent fun d hd hkey => ?_
      rw [hinnerTable] at hitem
      obtain ⟨v, hv⟩ := hitem α k hname.symm d hd hkey
      refine hnone v ⟨e, he, hname, ?_⟩
      rw [hinnerTable]
      exact ⟨d, hd, hkey, hv⟩
    · have hdefault : P.get s = P.get {} :=
        hpart.absent fun e he hname => htable ⟨e, he, hname.trans hP.symm⟩
      rw [← P.get_place_get hP s, hdefault, P.place_get_default]

/-- A text decodes to the settings of the document that it is. -/
theorem Settings.ofToml_of_document {text : String} {root : Toml.Table} {s : Settings}
    (hroot : Toml.document text.toList = .ok root) (hs : Settings.ofEntries root.entries = .ok s) :
    Settings.ofToml text = .ok s := by
  rw [Settings.ofToml, hroot]
  dsimp only
  rw [hs]

/-- **A well-typed document is accepted.** -/
theorem Settings.exists_ofToml {text : String} {root : Toml.Table}
    (hroot : Toml.document text.toList = .ok root) (htyped : root.entries.WellTyped) :
    ∃ s, Settings.ofToml text = .ok s ∧ ∀ (α : Type) (k : Setting α),
      (∀ v, k.Writes root.entries v → k.get s = v) ∧
      ((∀ v, ¬ k.Writes root.entries v) → k.get s = k.get {}) := by
  obtain ⟨s, hs⟩ := Settings.exists_ofEntries htyped
  have hwellFormed := Toml.document_wellFormed hroot
  exact ⟨s, Settings.ofToml_of_document hroot hs,
    fun α k => Settings.get_of_ofEntries htyped hwellFormed hs k⟩

end Documents

/-- **A well-typed document decodes to the settings that it writes, and to the defaults where it
writes none.** The result is determined by what is written: any other well-typed document that writes
the same values, in whatever order and among whatever else, decodes to the same settings. -/
theorem Settings.ofToml_wellTyped (text : String) (root : Toml.Table)
    (hroot : Toml.document text.toList = .ok root) (htyped : root.entries.WellTyped) :
    ∃ s, Settings.ofToml text = .ok s ∧
      (∀ (α : Type) (k : Setting α),
        (∀ v, k.Writes root.entries v → k.get s = v) ∧
        ((∀ v, ¬ k.Writes root.entries v) → k.get s = k.get {})) ∧
      ∀ text' root', Toml.document text'.toList = .ok root' → root'.entries.WellTyped →
        (∀ (α : Type) (k : Setting α) v, k.Writes root'.entries v ↔ k.Writes root.entries v) →
        Settings.ofToml text' = .ok s := by
  obtain ⟨s, hs, hget⟩ := Settings.exists_ofToml hroot htyped
  refine ⟨s, hs, hget, fun text' root' hroot' htyped' hsame => ?_⟩
  obtain ⟨s', hs', hget'⟩ := Settings.exists_ofToml hroot' htyped'
  -- both follow what is written, and where nothing is written both have the default
  have heq : s' = s := by
    refine Setting.ext fun α k => ?_
    by_cases hwritten : ∃ v, k.Writes root.entries v
    · obtain ⟨v, hv⟩ := hwritten
      rw [(hget α k).1 v hv, (hget' α k).1 v ((hsame α k v).mpr hv)]
    · have hnone : ∀ v, ¬ k.Writes root.entries v := not_exists.mp hwritten
      have hnone' : ∀ v, ¬ k.Writes root'.entries v := fun v hv => hnone v ((hsame α k v).mp hv)
      rw [(hget α k).2 hnone, (hget' α k).2 hnone']
  exact heq ▸ hs'

/-- What comes out of a computation is found by running it. -/
instance decidableExistsOk {ε α : Type} {P : α → Prop} [DecidablePred P] :
    (x : Except ε α) → Decidable (∃ a, x = .ok a ∧ P a)
  | .error _ => isFalse fun ⟨_, h, _⟩ => by cases h
  | .ok a => decidable_of_iff (P a) ⟨fun h => ⟨a, rfl, h⟩, fun ⟨_, h, hP⟩ => Except.ok.inj h ▸ hP⟩

/-- A document that writes three settings among keys and tables of other names. -/
def mixedDocument : String :=
  "timeout = 3\n[mypy]\nplugins = [1979-05-27, 1.5]\nextra_args = [\x22--strict\x22]\n" ++
    "[black]\nline_length = 88\n[other]\nblack = true\n[pipeline]\nshell = \x22bash\x22\n"

/-- The settings that it writes. -/
def mixedSettings : Settings where
  pipeline := { shell := "bash" }
  black := { lineLength := 88 }
  mypy := { overrides := { extraArgs := ["--strict"] } }

theorem Settings.ofToml_wellTyped_mixed :
    ∃ root, Toml.document mixedDocument.toList = .ok root ∧ root.entries.WellTyped ∧
      Settings.ofToml mixedDocument = .ok mixedSettings ∧
      ∀ (α : Type) (k : Setting α),
        (∀ v, k.Writes root.entries v → k.get mixedSettings = v) ∧
        ((∀ v, ¬ k.Writes root.entries v) → k.get mixedSettings = k.get {}) := by
  -- the characters are read off the literals: an evaluation over their bytes is slow
  have hletters : mixedDocument.toList = _ := String.toList_append.trans
    (congrArg₂ (· ++ ·) String.toList_ofList String.toList_ofList)
  obtain ⟨root, hroot, htyped, _, hentries, rfl⟩ :
      ∃ root, Toml.document mixedDocument.toList = .ok root ∧ root.entries.WellTyped ∧
        ∃ s, Settings.ofEntries root.entries = .ok s ∧ s = mixedSettings := by
    rw [hletters]
    decide +kernel
  have hvalue := Settings.ofToml_of_document hroot hentries
  obtain ⟨s, hs, hget, -⟩ := Settings.ofToml_wellTyped mixedDocument root hroot htyped
  obtain rfl := Except.ok.inj (hs.symm.trans hvalue)
  exact ⟨root, hroot, htyped, hvalue, hget⟩

end QualityGate
