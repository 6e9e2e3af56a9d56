import QualityGate.Proofs.Session.Selection
import QualityGate.Proofs.Settings.Acceptance
import QualityGate.Proofs.Settings.Refusal
import QualityGate.Proofs.Text.Utf8
/-!
## The content of the settings file

The bytes of a settings file can be found at fault in four places: they are no text, the text is no
document of settings, the time limit is out of range, or a setting makes no sense.

* `ofBytes_cases`: which of these it is.
* `load_of_document`: a document is refused exactly if a recognised table in it is not typed and nothing
  stands in for it.
* `decoded_or_refused`: a content that is text and has no time limit out of range is used as it decodes,
  or stops `run` and `list` with the code of a problem with the settings.
* `stopsWith_of_not_text` and `aborted_of_overflow`: how they end otherwise.
-/

namespace QualityGate

open Console (Event)

namespace Settings

variable {settings : Settings}

/-! ### What is found at fault -/

/-- **Settings are refused** for a problem with them, or they have a time limit out of range. -/
theorem validate_error {h : Halt} (hvalid : settings.validate = .error h) :
    (∃ f, h = .failed f ∧ f.exitCode = Failure.codeSettings) ∨ settings.limit = .error .overflow := by
  rcases settings.validate_cases with ⟨hok, -⟩ | ⟨k, -, herror, -⟩ | ⟨-, -, hlimit⟩
  · rw [hok] at hvalid
    cases hvalid
  · rw [herror] at hvalid
    cases hvalid
    exact Or.inl ⟨_, rfl, rfl⟩
  · exact Or.inr hlimit

/-- A time limit out of range is noticed before any rule is tried. -/
theorem validate_of_overflow (h : settings.limit = .error .overflow) :
    settings.validate = .error .overflow := by
  rcases settings.validate_cases with ⟨-, -, limit, hlimit, -⟩ | ⟨k, -, -, limit, hlimit⟩ |
    ⟨-, hvalid, -⟩
  · rw [hlimit] at h
    cases h
  · rw [hlimit] at h
    cases h
  · exact hvalid

/-- **The settings of a content**: it is text that decodes to them, and they make sense. -/
def Gives (data : Bytes) (settings : Settings) : Prop :=
  ∃ text, data = Text.bytes text ∧ ofToml text = .ok settings ∧ settings.validate = .ok ()

/-- **A content that can be judged**: it is text, and a time limit in it is not out of range. -/
def Judgeable (data : Bytes) : Prop :=
  ∃ text, data = Text.bytes text ∧
    ∀ settings, ofToml text = .ok settings → settings.limit ≠ .error .overflow

/-- The fault of a content that is no text. -/
def notText : Failure :=
  .io "read config" (.described "stream did not contain valid UTF-8")

theorem ofBytes_of_not_text {data : Bytes} (h : ∀ text, data ≠ Text.bytes text) (path : Bytes) :
    ofBytes path data = .error (.failed notText) := by
  have hread : Text.decode? data = none := by
    rw [Option.eq_none_iff_forall_not_mem]
    exact fun text htext => h text (Text.decode?_eq_some_iff.mp htext)
  rw [ofBytes, hread]
  rfl

/-- **What a content comes to**: the settings that it gives, or a problem with them. -/
theorem ofBytes_cases {data : Bytes} (h : Judgeable data) (path : Bytes) :
    (∃ settings, Gives data settings ∧ ofBytes path data = .ok settings) ∨
      (∀ settings, ¬Gives data settings) ∧
        ∃ f, ofBytes path data = .error (.failed f) ∧ f.exitCode = Failure.codeSettings := by
  obtain ⟨text, rfl, hlimit⟩ := h
  -- the content is the bytes of one text only, so all that is said of it is said of that text
  simp only [Gives, ofBytes, Text.decode?_bytes, Text.bytes_inj, exists_eq_left']
  cases hdecoded : ofToml text with
  | error report =>
    refine Or.inr ⟨?_, _, rfl, rfl⟩
    rintro settings ⟨⟨⟩, -⟩
  | ok settings =>
    dsimp only
    cases hvalid : settings.validate with
    | ok _ => exact Or.inl ⟨settings, ⟨rfl, hvalid⟩, rfl⟩
    | error halt =>
      obtain ⟨f, rfl, hcode⟩ | hoverflow := validate_error hvalid
      · refine Or.inr ⟨?_, f, rfl, hcode⟩
        rintro other ⟨hother, haccepted⟩
        cases hother
        rw [hvalid] at haccepted
        cases haccepted
      · exact absurd hoverflow (hlimit settings hdecoded)

/-- **A document is refused for its types, and for no other reason.** If a recognised table in it is not
typed and nothing stands in for it, loading fails as it does on a text that is no document. Every other
document is read. -/
theorem load_of_document (site : Site) (path : Bytes) (text : String) (root : Toml.Table)
    (hread : site.files.read site.cwd path = .ok (Text.bytes text))
    (hroot : Toml.document text.toList = .ok root) :
    ((∃ e ∈ root.entries, e.1.name ∈ tableNames ∧
        ¬e.2.IsTyped e.1.name ∧ ¬e.2.StandsIn e.1.name) →
      ∃ report, load site path = .error (.failed
        (.settingsUnreadable ("invalid TOML in " ++ Text.lossy path) (.base report)))) ∧
    ((∀ e ∈ root.entries, e.1.name ∈ tableNames → e.2.IsTyped e.1.name ∨ e.2.StandsIn e.1.name) →
      ∃ settings, ofToml text = .ok settings) := by
  -- what is read as settings is exactly what is typed or stood in for, table by table
  have hreadable := exists_ofToml_iff hroot
  refine ⟨?_, hreadable.mpr⟩
  rintro ⟨e, he, hname, htyped, hstands⟩
  have hloaded : load site path = ofBytes path (Text.bytes text) := load_of_read hread
  rw [hloaded, ofBytes, Text.decode?_bytes]
  dsimp only
  cases hdecoded : ofToml text with
  | error report => exact ⟨report, rfl⟩
  | ok settings =>
    rcases hreadable.mp ⟨settings, hdecoded⟩ e he hname with h | h
    · exact absurd h htyped
    · exact absurd h hstands

/-- A place where the default settings file holds a text. -/
def holding (text : String) : Site :=
  { files := { entries := [([fileName], .file (Text.bytes text) false)] }, cwd := [] }

theorem read_holding (text : String) :
    (holding text).files.read (holding text).cwd fileName = .ok (Text.bytes text) := by
  rfl

/-- A date-time may stand in for a table, but a fraction for no number of characters. -/
theorem load_of_document_mistyped :
    (holding mistyped).files.read (holding mistyped).cwd fileName = .ok (Text.bytes mistyped) ∧
      ∃ root, Toml.document mistyped.toList = .ok root ∧
        (∃ e ∈ root.entries, e.1.name ∈ tableNames ∧
          ¬e.2.IsTyped e.1.name ∧ ¬e.2.StandsIn e.1.name) ∧
        ∃ report, load (holding mistyped) fileName = .error (.failed
          (.settingsUnreadable ("invalid TOML in " ++ Text.lossy fileName) (.base report))) := by
  have hread := read_holding mistyped
  obtain ⟨root, hroot, hmistyped⟩ := exists_document_mistyped
  exact ⟨hread, root, hroot, hmistyped, (load_of_document _ _ _ root hread hroot).1 hmistyped⟩

/-- **Not every document that is not well typed is refused.** -/
theorem load_standIns :
    (∃ root, Toml.document standIns.toList = .ok root ∧ ¬root.entries.WellTyped) ∧
      load (holding standIns) fileName = .ok { pipeline := { activate := "act" } } := by
  obtain ⟨root, hroot, htyped, hdecoded⟩ := exists_document_standIns
  refine ⟨⟨root, hroot, htyped⟩, ?_⟩
  rw [load_of_read (read_holding standIns), ofBytes, Text.decode?_bytes]
  dsimp only
  rw [hdecoded]
  rfl

/-- A session goes by the bytes of a chosen file that can be read. -/
theorem loadOrDefault_of_read {site : Site} {config : Option Bytes} {data : Bytes}
    (h : site.files.read site.cwd (chosenPath site config) = .ok data) :
    loadOrDefault site config = ofBytes (chosenPath site config) data := by
  rw [loadOrDefault_of_exists (Host.FileTree.exists?_of_read h), load_of_read h]

end Settings

namespace Session

variable {s : Surroundings} {config : Option Bytes} {data : Bytes}

/-! ### How the commands end -/

/-- A content that is no text stops `run` and `list` like a file that cannot be read. -/
theorem stopsWith_of_not_text
    (hdata : s.files.read s.cwd (Settings.chosenPath (site s) config) = .ok data)
    (h : ∀ text, data ≠ Text.bytes text) (next : Settings → List Event → Result) :
    StopsWith Settings.notText s (withSettings s config next) := by
  apply withSettings_of_failure
  rw [Settings.loadOrDefault_of_read hdata, Settings.ofBytes_of_not_text h]

/-- A time limit out of range aborts `run` and `list` before they do anything. -/
theorem aborted_of_overflow {text : String} {settings : Settings}
    (hdata : s.files.read s.cwd (Settings.chosenPath (site s) config) = .ok (Text.bytes text))
    (hdecoded : Settings.ofToml text = .ok settings)
    (hlimit : settings.limit = .error .overflow) (next : Settings → List Event → Result) :
    withSettings s config next = ⟨statusAborted, [], s⟩ := by
  have hloaded : Settings.loadOrDefault (site s) config = .error .overflow := by
    rw [Settings.loadOrDefault_of_read hdata, Settings.ofBytes, Text.decode?_bytes]
    dsimp only
    rw [hdecoded]
    dsimp only
    rw [Settings.validate_of_overflow hlimit]
  rw [withSettings, hloaded]
  rfl

/-- **A file content is used as it decodes, or refused as a problem with the settings.** As in every
`FileTree`, there are no links and no path is too long. -/
theorem decoded_or_refused (s : Surroundings) (config : Option Bytes) (data : Bytes)
    (hdata : s.files.read s.cwd (Settings.chosenPath (site s) config) = .ok data)
    (hjudgeable : Settings.Judgeable data) :
    let loaded : List Event := [.log (Settings.loadedRecord (Settings.chosenPath (site s) config))]
    (∃ settings, Settings.Gives data settings ∧
      (∀ launcher args, run launcher s config args = runBy launcher s args settings loaded) ∧
      ∀ mode, list s config mode = listBy s mode settings loaded) ∨
    (∀ settings, ¬Settings.Gives data settings) ∧
      ∃ f, f.exitCode = 78 ∧ (∀ launcher args, StopsWith f s (run launcher s config args)) ∧
        ∀ mode, StopsWith f s (list s config mode) := by
  intro loaded
  rcases Settings.ofBytes_cases hjudgeable (Settings.chosenPath (site s) config) with
    ⟨settings, hgives, hof⟩ | ⟨hnone, f, hof, hcode⟩
  · have hload : Settings.load (site s) (Settings.chosenPath (site s) config) = .ok settings :=
      (Settings.load_of_read hdata).trans hof
    exact Or.inl ⟨settings, hgives, fun launcher args => withSettings_of_chosen hload _,
      fun mode => withSettings_of_chosen hload _⟩
  · have hloaded : Settings.loadOrDefault (site s) config = .error (.failed f) :=
      (Settings.loadOrDefault_of_read hdata).trans hof
    exact Or.inr ⟨hnone, f, hcode, fun launcher args => withSettings_of_failure hloaded _,
      fun mode => withSettings_of_failure hloaded _⟩

/-- A file content that asks for lines of length zero is refused with the code of a problem with the
settings. -/
theorem decoded_or_refused_lengthless :
    (list lengthless none .fix).status = 78 ∧
      ∀ launcher args, (run launcher lengthless none args).status = 78 := by
  have hdecoded : Settings.ofToml "[black]\nline_length = 0\n" =
      .ok { black := { lineLength := 0 } } := by decide +kernel
  have hjudgeable : Settings.Judgeable (Text.bytes "[black]\nline_length = 0\n") := by
    refine ⟨_, rfl, fun settings hsettings => ?_⟩
    rw [hdecoded] at hsettings
    cases hsettings
    decide
  rcases decoded_or_refused lengthless none _ (by decide) hjudgeable with
    ⟨settings, ⟨text, hsame, hsettings, hvalid⟩, -⟩ | ⟨-, f, hcode, hrun, hlist⟩
  · -- these settings make no sense, so the content gives none
    rw [← Text.bytes_inj.mp hsame, hdecoded] at hsettings
    cases hsettings
    exact absurd hvalid (by decide)
  · constructor
    · exact Int.ofNat_inj.mp ((hlist .fix).status.trans hcode)
    · exact fun launcher args => Int.ofNat_inj.mp ((hrun launcher args).status.trans hcode)

/-- A session whose default settings file holds one byte that starts no character. -/
def textless : Surroundings :=
  { files := { entries := [([Settings.fileName], .file [0xFF] false)] }
    cwd := []
    env := .empty }

/-- **A content that is no text has the status of other failures.** -/
theorem status_textless :
    textless.files.read textless.cwd (Settings.chosenPath (site textless) none) = .ok [0xFF] ∧
      (list textless none .fix).status = 1 ∧
      ∀ launcher args, (run launcher textless none args).status = 1 := by
  have hdata : textless.files.read textless.cwd (Settings.chosenPath (site textless) none) =
      .ok [0xFF] := by decide
  have hnot : ∀ text, ([0xFF] : Bytes) ≠ Text.bytes text := by
    intro text htext
    have hnone : Text.decode? [0xFF] = none := by decide +kernel
    rw [← Text.decode?_eq_some_iff, hnone] at htext
    cases htext
  have hstops := stopsWith_of_not_text hdata hnot
  exact ⟨hdata, Int.ofNat_inj.mp (hstops (listBy textless .fix)).status,
    fun launcher args => Int.ofNat_inj.mp (hstops (runBy launcher textless args)).status⟩

end Session
end QualityGate
