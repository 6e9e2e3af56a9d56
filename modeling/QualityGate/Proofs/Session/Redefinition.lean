import QualityGate.Proofs.Session.Content
import QualityGate.Proofs.Toml.Redefinition
import QualityGate.Proofs.Toml.StatementLines
/-!
## Settings that are defined twice

No setting of a file overrides another one of the same file: a file that defines a setting twice, or a table in
two ways, is refused as one that is no document.

* `Settings.load_of_redefines`: so it is, whether this is told from the text or from the lines that it is
  written in.
-/

namespace QualityGate

open Toml (Comment KeySpelling LineTail Lines PathSpelling Redefines Spaces Statement StatementLine StringText
  declarations dropMark statements)

namespace Settings

variable {site : Site} {path : Bytes} {text : String}

/-- A text that is no document is refused as such. -/
theorem load_of_no_document (hread : site.files.read site.cwd path = .ok (Text.bytes text))
    (h : ∀ root, Toml.document text.toList ≠ .ok root) :
    ∃ report, load site path = .error (.failed
      (.settingsUnreadable ("invalid TOML in " ++ Text.lossy path) (.base report))) := by
  cases hdocument : Toml.document text.toList with
  | ok root => exact absurd hdocument (h root)
  | error fault =>
    refine ⟨Toml.report text.toList fault, ?_⟩
    rw [load_of_read hread, ofBytes, Text.decode?_bytes]
    simp only [ofToml, hdocument]

/-- **A file that defines a setting twice is refused**, and so is one that opens a table by two headers, gives
it two values, or defines it by two of a header, a value and dotted keys. What the file states is told from
its text, as far as that can be read, or is what its lines are written for, in whatever order and
spelling. -/
theorem load_of_redefines (site : Site) (path : Bytes) (text : String)
    (hread : site.files.read site.cwd path = .ok (Text.bytes text)) :
    (Redefines (declarations .top (statements text.toList).1) ∨ (statements text.toList).2 = false →
      ∃ report, load site path = .error (.failed
        (.settingsUnreadable ("invalid TOML in " ++ Text.lossy path) (.base report)))) ∧
    ∀ (stated : List Statement) (lines : List (List Char)), Lines lines (dropMark text.toList) →
      List.Forall₂ StatementLine stated lines → Redefines (declarations .top stated) →
        ∃ report, load site path = .error (.failed
          (.settingsUnreadable ("invalid TOML in " ++ Text.lossy path) (.base report))) := by
  -- a document would define nothing twice
  have htold : Redefines (declarations .top (statements text.toList).1) ∨ (statements text.toList).2 = false →
      ∃ report, load site path = .error (.failed
        (.settingsUnreadable ("invalid TOML in " ++ Text.lossy path) (.base report))) := by
    intro h
    refine load_of_no_document hread fun root hroot => ?_
    obtain ⟨hall, honce⟩ := Toml.document_once hroot
    rcases h with htwice | hbroken
    · exact honce htwice
    · exact absurd (hall.symm.trans hbroken) nofun
  refine ⟨htold, fun stated lines hlines hstated htwice => htold ?_⟩
  rcases Toml.statements_lines hlines hstated with hbroken | htext
  · exact Or.inr hbroken
  · exact Or.inl (htext ▸ htwice)

/-- A document that defines one setting twice, with its table named in two ways. -/
def redefining : String :=
  "'black' . target = 'src'\t# here\r\n\n[ \x22black\x22 ]\ntarget=\x22lib\x22"

/-- What it states. -/
def restated : List Statement :=
  [.definition ["black", "target"] [], .header false ["black"], .definition ["target"] []]

theorem statements_redefining : (statements redefining.toList).1 = restated := by
  -- the letters of the literal are at hand: an evaluation over its bytes is slow
  have hletters : redefining.toList = _ := String.toList_ofList
  rw [hletters]
  decide +kernel

theorem lines_redefining : ∃ lines, Lines lines (dropMark redefining.toList) ∧
    List.Forall₂ StatementLine restated lines := by
  have hnone : Spaces [] := by decide
  have hspace : Spaces [' '] := by decide
  have htarget : KeySpelling "target" "target".toList := .bare (by decide) (List.all_eq_true.mp rfl)
  have hdotted : StatementLine (.definition ["black", "target"] [])
      ("'black' . target ".toList ++ '=' :: ([' '] ++ "'src'".toList)) := by
    have hk : PathSpelling ["black", "target"] "'black' . target ".toList :=
      .dot (.quoted (Toml.stringText_literal rfl)) hspace hspace (.one htarget hspace)
    have hv : StringText "src" "'src'".toList := Toml.stringText_literal rfl
    exact .key hk (by decide) hspace (.plain (Toml.readsAs_string hv) (by decide)) (by decide)
  have hheader : StatementLine (.header false ["black"])
      ('[' :: ([' '] ++ ("\x22black\x22 ".toList ++ [']']))) := by
    have hblack : StringText "black" "\x22black\x22".toList :=
      Toml.stringText_quoted rfl
    exact .table hspace (.one (.quoted hblack) hspace) (by decide)
  have hkey : StatementLine (.definition ["target"] [])
      ("target".toList ++ '=' :: ([] ++ "\x22lib\x22".toList)) := by
    have hv : StringText "lib" "\x22lib\x22".toList := Toml.stringText_quoted rfl
    exact .key (.one htarget hnone) (by decide) hnone (.plain (Toml.readsAs_string hv) (by decide)) (by decide)
  have hhere (rest : List Char) : LineTail ("\t# here\r\n".toList ++ rest) rest := by
    have hcomment : Comment "# here".toList := .some (List.all_eq_true.mp rfl)
    exact .ended (show Spaces ['\t'] by decide) hcomment .returnFeed
  have hended (rest : List Char) : LineTail ('\n' :: rest) rest := .ended hnone .none .feed
  exact ⟨_, .line hnone (hhere _) (.idle (hended _) (.line hnone (hended _)
    (.line hnone (.last hnone .none) .done))), .cons hdotted (.cons hheader (.cons hkey .nil))⟩

theorem load_redefining :
    (holding redefining).files.read (holding redefining).cwd fileName = .ok (Text.bytes redefining) ∧
      Redefines (declarations .top (statements redefining.toList).1) ∧
      (∃ stated lines, Lines lines (dropMark redefining.toList) ∧ List.Forall₂ StatementLine stated lines ∧
        Redefines (declarations .top stated)) ∧
      ∃ report, load (holding redefining) fileName = .error (.failed
        (.settingsUnreadable ("invalid TOML in " ++ Text.lossy fileName) (.base report))) := by
  have hread := read_holding redefining
  have htwice : Redefines (declarations .top restated) :=
    ⟨.setting "black" "target", .setting "black" "target", by decide, rfl, rfl⟩
  obtain ⟨lines, hlines, hstated⟩ := lines_redefining
  exact ⟨hread, statements_redefining ▸ htwice, ⟨restated, lines, hlines, hstated, htwice⟩,
    (load_of_redefines _ _ _ hread).2 restated lines hlines hstated htwice⟩

end Settings
end QualityGate
