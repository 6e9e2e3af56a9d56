import QualityGate.Proofs.Session.Content
import QualityGate.Proofs.Settings.Written
/-!
## What a document of settings is loaded as, however it is laid out

* `Settings.load_eq_validate`: a document of an assignment is loaded as its settings, unless they make no
  sense.
* `Settings.load_laidOut`: so all documents of one assignment are loaded alike. They give the same settings or
  name the same field; but where the timeout is out of range, all of them are given up.
-/

namespace QualityGate

open Toml (ArrayText BlockLines Comment DefinitionLine Filler InlineText Input IsBare Lines LineTail PathSpelling
  Spaces Spelling StringText spaces_nil spaces_singleton stringText_literal stringText_quoted)

namespace Settings

variable {A : Assignment} {spelling : String → Spelling} {site : Site} {path : Bytes} {text : String}

/-- **A document of an assignment is loaded as its settings**, if these make sense. -/
theorem load_eq_validate (hread : site.files.read site.cwd path = .ok (Text.bytes text))
    (h : A.LaidOut spelling text.toList) :
    load site path = A.settings.validate.map fun _ => A.settings := by
  rw [load_of_read hread, ofBytes, Text.decode?_bytes]
  dsimp only
  rw [A.ofToml_laidOut h]
  dsimp only
  cases A.settings.validate <;> rfl

/-- **All documents of one assignment are loaded alike.** They give the settings with the assigned values,
or the first of these that makes no sense is named; only a timeout out of range is neither accepted nor
refused, in each of them. -/
theorem load_laidOut (A : Assignment) (site : Site) (path : Bytes) (text : String)
    (spelling : String → Spelling) (hread : site.files.read site.cwd path = .ok (Text.bytes text))
    (h : A.LaidOut spelling text.toList) :
    (A.settings.limit ≠ .error .overflow →
      load site path = .ok A.settings ∨
      ∃ k, A.settings.FirstAtFault k ∧ load site path = .error (.failed (k.2.fault A.settings))) ∧
    (A.settings.limit = .error .overflow → load site path = .error .overflow) ∧
    ∀ (site' : Site) (path' : Bytes) (text' : String) (spelling' : String → Spelling),
      site'.files.read site'.cwd path' = .ok (Text.bytes text') → A.LaidOut spelling' text'.toList →
        load site' path' = load site path := by
  have hload := load_eq_validate hread h
  refine ⟨fun hlimit => ?_, fun hlimit => ?_, fun site' path' text' spelling' hread' h' => ?_⟩
  · rcases A.settings.validate_cases with ⟨hvalid, -⟩ | ⟨k, hfirst, hvalid, -⟩ | ⟨-, -, hoverflow⟩
    · rw [hvalid] at hload
      exact Or.inl hload
    · rw [hvalid] at hload
      exact Or.inr ⟨k, hfirst, hload⟩
    · exact absurd hoverflow hlimit
  · rw [hload, validate_of_overflow hlimit]
    rfl
  · rw [hload, load_eq_validate hread' h']

/-- Values for four settings of three tables. -/
def mixedAssignment : Assignment where
  value?
    | .lineLength => some 88
    | .skipStringNormalization => some false
    | .mypyTarget => some "src"
    | .extraArgs .isort => some ["--profile", "black"]
    | _ => none

/-- A document of them, in which each table is spelled in another way. -/
def mixedLayout : String :=
  "# tools\r\n" ++ ("'black'.line_length = 88" ++ ("\t# columns\r\n" ++ ("\r\n" ++
    ("mypy=\x7b\x22target\x22 = 'src' \x7d" ++ ("\n" ++ ("black . skip_string_normalization=false" ++ ("\n" ++
    ("[ \x22isort\x22 ]" ++ ("\n" ++ "extra_args = [\x22--profile\x22, # as\n'black', ]")))))))))

/-- How it spells them. -/
def mixedSpelling : String → Spelling
  | "isort" => .header
  | "mypy" => .inline
  | _ => .dotted

/-! ### The mixed layout -/

/-- Its array reaches over two lines. -/
theorem arrayText_mixed : ArrayText ["\x22--profile\x22".toList, "'black'".toList]
    "[\x22--profile\x22, # as\n'black', ]".toList := by
  have hcomment : Filler " # as\n".toList :=
    .space rfl (.comment (List.all_eq_true.mp (rfl : " as".toList.all _ = true)) .feed .nil)
  exact .items (.next .nil .nil (.comma hcomment .nil (.space rfl .nil)))

theorem blockLines_lineLength : BlockLines ⟨.dotted, "black", [⟨"line_length", "88".toList⟩]⟩
    ["'black'.line_length = 88".toList] := by
  have hk : PathSpelling ["black", "line_length"] "'black'.line_length ".toList :=
    .dot (.quoted (stringText_literal rfl)) spaces_nil spaces_nil
      (.one (IsBare.spelling (by decide)) spaces_singleton)
  have hline : DefinitionLine ["black"] ⟨"line_length", "88".toList⟩
      ("'black'.line_length ".toList ++ '=' :: ([' '] ++ "88".toList)) := .mk hk spaces_singleton
  exact .dotted (.cons hline .nil)

theorem blockLines_target : BlockLines ⟨.inline, "mypy", [⟨"target", "'src'".toList⟩]⟩
    ["mypy=\x7b\x22target\x22 = 'src' \x7d".toList] := by
  have ht : PathSpelling ["mypy"] "mypy".toList := .one (IsBare.spelling (by decide)) spaces_nil
  have hk : PathSpelling ["target"] "\x22target\x22 ".toList :=
    .one (.quoted (stringText_quoted rfl)) spaces_singleton
  have hw : InlineText [⟨"target", "'src'".toList⟩] ('\x7b' :: ([] ++ ("\x22target\x22 ".toList ++
      '=' :: ([' '] ++ ("'src'".toList ++ [' ']))) ++ ['\x7d'])) :=
    .definitions (.last spaces_nil hk spaces_singleton spaces_singleton)
  have hline : BlockLines ⟨.inline, "mypy", [⟨"target", "'src'".toList⟩]⟩ ["mypy".toList ++ '=' :: ([] ++
      ('\x7b' :: ([] ++ ("\x22target\x22 ".toList ++ '=' :: ([' '] ++ ("'src'".toList ++ [' ']))) ++
        ['\x7d'])))] := .inline ht spaces_nil hw
  exact hline

theorem blockLines_skipStringNormalization :
    BlockLines ⟨.dotted, "black", [⟨"skip_string_normalization", "false".toList⟩]⟩
      ["black . skip_string_normalization=false".toList] := by
  have hk : PathSpelling ["black", "skip_string_normalization"]
      "black . skip_string_normalization".toList :=
    .dot (IsBare.spelling (by decide)) spaces_singleton spaces_singleton
      (.one (IsBare.spelling (by decide)) spaces_nil)
  have hline : DefinitionLine ["black"] ⟨"skip_string_normalization", "false".toList⟩
      ("black . skip_string_normalization".toList ++ '=' :: ([] ++ "false".toList)) := .mk hk spaces_nil
  exact .dotted (.cons hline .nil)

theorem blockLines_extraArgs :
    BlockLines ⟨.header, "isort", [⟨"extra_args", "[\x22--profile\x22, # as\n'black', ]".toList⟩]⟩
      ["[ \x22isort\x22 ]".toList, "extra_args = [\x22--profile\x22, # as\n'black', ]".toList] := by
  have ht : PathSpelling ["isort"] "\x22isort\x22 ".toList :=
    .one (.quoted (stringText_quoted rfl)) spaces_singleton
  have hk : PathSpelling ["extra_args"] "extra_args ".toList :=
    .one (IsBare.spelling (by decide)) spaces_singleton
  have hline : DefinitionLine [] ⟨"extra_args", "[\x22--profile\x22, # as\n'black', ]".toList⟩
      ("extra_args ".toList ++ '=' :: ([' '] ++ "[\x22--profile\x22, # as\n'black', ]".toList)) :=
    .mk hk spaces_singleton
  exact .header spaces_singleton ht (.cons hline .nil)

/-- The lines of its blocks come one after the other, with blank lines and comments between them. -/
theorem lines_mixed :
    Lines ["'black'.line_length = 88".toList, "mypy=\x7b\x22target\x22 = 'src' \x7d".toList,
      "black . skip_string_normalization=false".toList, "[ \x22isort\x22 ]".toList,
      "extra_args = [\x22--profile\x22, # as\n'black', ]".toList] (Toml.dropMark mixedLayout.toList) := by
  have hended (rest : Input) : LineTail ("\n".toList ++ rest) rest := .ended spaces_nil .none .feed
  have hblank (rest : Input) : LineTail ("\r\n".toList ++ rest) rest := .ended spaces_nil .none .returnFeed
  have htools (rest : Input) : LineTail ("# tools\r\n".toList ++ rest) rest := by
    have hcomment : Comment "# tools".toList := .some (List.all_eq_true.mp rfl)
    exact .ended spaces_nil hcomment .returnFeed
  have hcolumns (rest : Input) : LineTail ("\t# columns\r\n".toList ++ rest) rest := by
    have hcomment : Comment "# columns".toList := .some (List.all_eq_true.mp rfl)
    exact .ended (show Spaces ['\t'] by decide) hcomment .returnFeed
  have hline {content tail rest : Input} {contents : List Input} (ht : LineTail tail rest)
      (h : Lines contents rest) : Lines (content :: contents) (content ++ tail) := .line spaces_nil ht h
  have hlast (content : Input) : Lines [content] content := by
    have h : Lines [content] (content ++ []) := hline (.last spaces_nil .none) .done
    rwa [List.append_nil] at h
  -- the text starts with a comment, so there is no byte order mark to drop
  have hmark (more : Input) : Toml.dropMark ("# tools\r\n".toList ++ more) = "# tools\r\n".toList ++ more :=
    rfl
  rw [mixedLayout]
  iterate 10 rw [String.toList_append]
  rw [hmark]
  exact .idle (htools _) (hline (hcolumns _) (.idle (hblank _) (hline (hended _) (hline (hended _)
    (hline (hended _) (hlast _))))))

theorem laidOut_mixed : mixedAssignment.LaidOut mixedSpelling mixedLayout.toList := by
  refine ⟨_, _, ⟨?_, ?_, ?_, ?_⟩, ⟨?_, ?_⟩, .cons blockLines_lineLength (.cons blockLines_target
    (.cons blockLines_skipStringNormalization (.cons blockLines_extraArgs .nil))), lines_mixed⟩
  · decide
  · decide
  · decide
  · decide
  · -- each definition tells a setting's value
    have harray : List.Forall₂ StringText ["--profile", "black"] ["\x22--profile\x22".toList, "'black'".toList] :=
      .cons (stringText_quoted rfl) (.cons (stringText_literal rfl) .nil)
    simp only [List.forall_mem_cons, List.not_mem_nil, false_implies, implies_true, and_true]
    exact ⟨⟨_, .lineLength, 88, rfl, rfl, rfl, Toml.writesInteger_toString 88⟩,
      ⟨_, .mypyTarget, "src", rfl, rfl, rfl, stringText_literal rfl⟩,
      ⟨_, .skipStringNormalization, false, rfl, rfl, rfl, rfl⟩,
      ⟨_, .extraArgs .isort, _, rfl, rfl, rfl, _, arrayText_mixed, harray⟩⟩
  · intro α k hk
    cases k with
    | program tool | extraArgs tool => cases tool <;> first | decide | cases hk
    | _ => first | decide | cases hk

theorem load_laidOut_mixed :
    (holding mixedLayout).files.read (holding mixedLayout).cwd fileName = .ok (Text.bytes mixedLayout) ∧
      mixedAssignment.LaidOut mixedSpelling mixedLayout.toList ∧
      mixedAssignment.settings.limit ≠ .error .overflow ∧
      ∀ text spelling, mixedAssignment.LaidOut spelling text.toList →
        load (holding text) fileName = .ok mixedAssignment.settings := by
  have hread := read_holding mixedLayout
  have hlimit : mixedAssignment.settings.limit ≠ .error .overflow := by decide
  have hvalid : mixedAssignment.settings.validate = .ok () := by decide
  obtain ⟨hloaded, -, hsame⟩ := load_laidOut mixedAssignment (holding mixedLayout) fileName mixedLayout
    mixedSpelling hread laidOut_mixed
  refine ⟨hread, laidOut_mixed, hlimit, fun text spelling h => ?_⟩
  rw [hsame (holding text) fileName text spelling (read_holding text) h]
  rcases hloaded hlimit with hok | ⟨k, hfirst, -⟩
  · exact hok
  · -- no setting is at fault
    obtain ⟨-, -, -, -, hk⟩ := hfirst
    exact absurd ((validate_eq_ok_iff _).mp hvalid _ k.2) hk

/-- A timeout whose sum leaves the range of durations. -/
def overlongAssignment : Assignment where
  value?
    | .timeout => some (some "18446744073709551615s 1000000000ns")
    | _ => none

/-- A document of it. -/
def overlong : String :=
  "[pipeline]\ntimeout='18446744073709551615s 1000000000ns'"

/-- **A document of well-typed values that is neither accepted nor refused.** -/
theorem load_overlong :
    overlongAssignment.LaidOut (fun _ => .header) overlong.toList ∧
      load (holding overlong) fileName = .error .overflow := by
  have hbare {name : String} (h : IsBare name) : PathSpelling [name] (name.toList ++ []) :=
    .one h.spelling spaces_nil
  have htext : StringText "18446744073709551615s 1000000000ns" "'18446744073709551615s 1000000000ns'".toList :=
    stringText_literal rfl
  have hlaidOut : overlongAssignment.LaidOut (fun _ => .header) overlong.toList := by
    have hline : DefinitionLine [] ⟨"timeout", "'18446744073709551615s 1000000000ns'".toList⟩
        ("timeout".toList ++ [] ++ '=' :: ([] ++ "'18446744073709551615s 1000000000ns'".toList)) :=
      .mk (hbare (by decide)) spaces_nil
    refine ⟨_, _, ⟨?_, ?_, ?_, ?_⟩, ⟨?_, ?_⟩,
      .cons (.header spaces_nil (hbare (show IsBare "pipeline" by decide)) (.cons hline .nil)) .nil, ?_⟩
    · decide
    · decide
    · decide
    · decide
    · simp only [List.forall_mem_cons, List.not_mem_nil, false_implies, implies_true, and_true]
      exact ⟨_, .timeout, _, rfl, rfl, rfl, _, rfl, htext⟩
    · intro α k hk
      cases k with
      | timeout => decide
      | _ => cases hk
    · exact .line spaces_nil (.ended spaces_nil .none .feed) (.line spaces_nil (.last spaces_nil .none) .done)
  refine ⟨hlaidOut, ?_⟩
  have hlimit : overlongAssignment.settings.limit = .error .overflow := by decide +kernel
  rw [load_eq_validate (read_holding overlong) hlaidOut, validate_of_overflow hlimit]
  rfl

end Settings
end QualityGate
