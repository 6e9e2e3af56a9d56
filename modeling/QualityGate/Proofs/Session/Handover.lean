import QualityGate.Proofs.Plan.Arguments
import QualityGate.Proofs.Session.Layouts
/-!
## Texts from the settings file to the command lines

A text that the settings file holds as a string stands on a command line as it is, whatever characters it is
made of and however they are escaped.

* `Assignment.laidOut_extraArgs`: a document that sets the extra arguments of a tool, each printed as a basic
  string.
* `Settings.load_commandLine`: what a document of sensible values makes of each command line.
-/

namespace QualityGate

open Toml (DefinitionLine Input IsBare LineTail PathSpelling Spaces Spelling basicString)

/-! ### Extra arguments in a document -/

namespace Toml

/-- A space may stand before the items of an array. -/
theorem ItemTexts.space {vs : List (List Char)} {cs : List Char} (h : ItemTexts vs cs) :
    ItemTexts vs (' ' :: cs) := by
  have hspace {f : List Char} (hf : Filler f) : Filler (' ' :: f) := .space rfl hf
  cases h with
  | last hf hf' => exact .last (hspace hf) hf'
  | comma hf hf' hf'' => exact .comma (hspace hf) hf' hf''
  | next hf hf' h => exact .next (hspace hf) hf' h

/-- Texts with commas between them are the items of an array. -/
theorem itemTexts_intercalate (w : String) (ws : List String) :
    ItemTexts ((w :: ws).map String.toList) (String.intercalate ", " (w :: ws)).toList := by
  induction ws generalizing w with
  | nil =>
    have hlast : ItemTexts [w.toList] ([] ++ (w.toList ++ [])) := .last .nil .nil
    rw [List.append_nil] at hlast
    rw [String.intercalate_singleton]
    exact hlast
  | cons w' ws ih =>
    rw [String.intercalate_cons_cons, String.append_assoc, String.toList_append, String.toList_append]
    exact .next .nil .nil (ih w').space

/-- **Strings as they are printed in a list** are an array of them. -/
theorem arrayText_printed (xs : List String) :
    ArrayText ((xs.map basicString).map String.toList)
      ('[' :: ((String.intercalate ", " (xs.map basicString)).toList ++ [']'])) := by
  cases xs with
  | nil => exact .empty .nil
  | cons x xs => exact .items (itemTexts_intercalate (basicString x) (xs.map basicString))

end Toml

namespace Assignment

/-- Extra arguments for one tool, and no other value. -/
def ofExtraArgs (tool : Tool) (xs : List String) : Assignment where
  value?
    | .extraArgs t => if t = tool then some xs else none
    | _ => none

/-- The document that prints them below the header of the tool's table. -/
def extraArgsDocument (tool : Tool) (xs : List String) : String :=
  "[" ++ tool.name ++ "]\n" ++ Settings.stringsLine "extra_args" xs

/-- **Extra arguments are set by printing each of them as a basic string.** -/
theorem laidOut_extraArgs (tool : Tool) (xs : List String) :
    (ofExtraArgs tool xs).LaidOut (fun _ => .header) (extraArgsDocument tool xs).toList := by
  have hnone : Spaces [] := by decide
  have hspace : Spaces [' '] := by decide
  have hname : IsBare tool.name := by cases tool <;> decide
  have hkey : IsBare "extra_args" := by decide
  have hvalue : (ofExtraArgs tool xs).value? (.extraArgs tool) = some xs := if_pos rfl
  -- the value as it is written
  let w := '[' :: ((String.intercalate ", " (xs.map basicString)).toList ++ [']'])
  have hspells : (Setting.extraArgs tool).Spells xs w := by
    refine ⟨_, Toml.arrayText_printed xs, ?_⟩
    rw [List.map_map, List.forall₂_map_right_iff, List.forall₂_same]
    exact fun x _ => Toml.stringText_basicString x
  have hheader : PathSpelling [tool.name] (tool.name.toList ++ []) := .one hname.spelling hnone
  have hline : DefinitionLine [] ⟨"extra_args", w⟩ ("extra_args".toList ++ [' '] ++ '=' :: ([' '] ++ w)) :=
    .mk (.one hkey.spelling hspace) hspace
  have hended (rest : Input) : LineTail ('\n' :: rest) rest := .ended hnone .none .feed
  refine ⟨[⟨.header, tool.name, [⟨"extra_args", w⟩]⟩], _, ⟨?_, ?_, ?_, ?_⟩, ⟨?_, ?_⟩,
    .cons (.header hnone hheader (.cons hline .nil)) .nil, ?_⟩
  · exact List.forall_mem_singleton.mpr rfl
  · exact List.pairwise_singleton _ _
  · exact List.pairwise_singleton _ _
  · exact List.nodup_singleton _
  · refine List.forall_mem_singleton.mpr (List.forall_mem_singleton.mpr ?_)
    exact ⟨_, .extraArgs tool, xs, rfl, rfl, hvalue, hspells⟩
  · intro α k hk
    cases k with
    | extraArgs t =>
      by_cases ht : t = tool
      · rw [ht]
        exact List.mem_singleton_self _
      · have hother : (ofExtraArgs tool xs).value? (.extraArgs t) = none := if_neg ht
        rw [hother] at hk
        cases hk
    | _ => cases hk
  · have htext : (extraArgsDocument tool xs).toList = '[' :: ([] ++ (tool.name.toList ++ [] ++ [']'])) ++
        '\n' :: ("extra_args".toList ++ [' '] ++ '=' :: ([' '] ++ w) ++ ['\n']) := by
      simp [extraArgsDocument, Settings.stringsLine, w]
    rw [htext]
    exact .line hnone (hended _) (.line hnone (hended _) .done)

end Assignment

namespace Settings

variable {A : Assignment}

/-- Settings with sensible values make sense where no value is assigned too. -/
theorem validate_settings (hsense : ∀ (α : Type) (k : Setting α) v, A.value? k = some v → k.MakesSense v) :
    A.settings.validate = .ok () := by
  rw [validate_eq_ok_iff]
  intro α k
  rw [A.get_settings, Assignment.value]
  cases hvalue : A.value? k with
  | none => exact (validate_eq_ok_iff {}).mp validate_default α k
  | some v => exact hsense α k v hvalue

/-- **What a document of sensible values makes of each command line.** It is accepted, however it is laid out,
and each text in it stands on the command line as it is: the program first, the extra arguments all together
between the flags and the target, and the other texts behind their flags or at the end. -/
theorem load_commandLine (A : Assignment) (site : Site) (path : Bytes) (text : String)
    (spelling : String → Spelling) (hread : site.files.read site.cwd path = .ok (Text.bytes text))
    (h : A.LaidOut spelling text.toList)
    (hsense : ∀ (α : Type) (k : Setting α) (v : α), A.value? k = some v → k.MakesSense v) :
    load site path = .ok A.settings ∧ ∀ mode : Mode,
      (∀ tool : Tool, tool.commandLine A.settings mode =
        ⟨(A.value (.program tool)).getD tool.name,
          tool.front A.settings mode ++ A.value (.extraArgs tool) ++ (tool.target? A.settings).toList⟩) ∧
      Tool.isort.front A.settings mode = ["--settings-path", A.value .settingsPath] ∧
      Tool.isort.target? A.settings = some (A.value .isortTarget) ∧
      Tool.black.target? A.settings = some (A.value .blackTarget) ∧
      Tool.flake8.front A.settings mode = ["--config", A.value .flake8Config] ∧
      Tool.flake8.target? A.settings = none ∧
      Tool.mypy.front A.settings mode = [] ∧
      Tool.mypy.target? A.settings = some (A.value .mypyTarget) := by
  have hload := load_eq_validate hread h
  rw [validate_settings hsense] at hload
  refine ⟨hload, fun mode => ⟨fun tool => ?_, rfl, rfl, rfl, rfl, rfl, rfl, rfl⟩⟩
  have hprogram : (A.settings.overrides tool).program = A.value (.program tool) :=
    A.get_settings (.program tool)
  have hextra : (A.settings.overrides tool).extraArgs = A.value (.extraArgs tool) :=
    A.get_settings (.extraArgs tool)
  rw [tool.commandLine_eq, Overrides.programOr, hprogram, hextra]

/-- Arguments with quotes, a backslash, a line feed, a zero byte and a character of four bytes, and an empty
one. -/
def hardArguments : List String :=
  ["--a=\x22b\\c\x22", "", "--check", "x\ny\x00", "😀 'z'"]

theorem load_commandLine_hard :
    let A := Assignment.ofExtraArgs .black hardArguments
    let text := Assignment.extraArgsDocument .black hardArguments
    (holding text).files.read (holding text).cwd fileName = .ok (Text.bytes text) ∧
      A.LaidOut (fun _ => .header) text.toList ∧
      (∀ (α : Type) (k : Setting α) (v : α), A.value? k = some v → k.MakesSense v) ∧
      ∃ s, load (holding text) fileName = .ok s ∧ Tool.black.commandLine s .check =
        ⟨"black", ["--line-length", "120", "--skip-string-normalization", "--check"] ++ hardArguments ++
          ["."]⟩ := by
  intro A text
  have hread := read_holding text
  have hlaidOut := Assignment.laidOut_extraArgs .black hardArguments
  have hsense : ∀ (α : Type) (k : Setting α) (v : α), A.value? k = some v → k.MakesSense v := by
    intro α k v hk
    cases k with
    | extraArgs t => trivial
    | _ => cases hk
  obtain ⟨hload, hlines⟩ := load_commandLine A (holding text) fileName text _ hread hlaidOut hsense
  have hfront : Tool.black.front A.settings .check =
      ["--line-length", "120", "--skip-string-normalization", "--check"] := by decide
  have hline := (hlines .check).1 .black
  rw [hfront] at hline
  exact ⟨hread, hlaidOut, hsense, _, hload, hline⟩

end Settings
end QualityGate
