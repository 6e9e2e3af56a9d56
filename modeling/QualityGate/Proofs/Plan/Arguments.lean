import QualityGate.Proofs.Settings.Recognised
/-!
## Where each setting stands on a command line

Every command line is made of the program, the arguments in front, the extra arguments and the target, if
the tool is given one.

* `Tool.commandLine_eq`: which settings make up which part.
* `Settings.plan_eq_iff`: what two settings with the same plan have in common. Each value that is put on a
  command line can be told from it; only the flag that leaves strings alone, where no other flag stands
  behind it, may as well be the first of the extra arguments.
-/

namespace QualityGate

namespace Tool

/-! ### The parts of a command line -/

/-- The arguments in front of the extra ones. -/
def front (s : Settings) (mode : Mode) : Tool → List String
  | isort => ["--settings-path", s.isort.settingsPath]
  | black => blackFlags s.black mode
  | flake8 => ["--config", s.flake8.config]
  | mypy => []

/-- What a tool is to work on, behind the extra arguments; the style checker is not told. -/
def target? (s : Settings) : Tool → Option String
  | isort => some s.isort.target
  | black => some s.black.target
  | flake8 => none
  | mypy => some s.mypy.target

/-- **The parts of a command line.** -/
theorem commandLine_eq (t : Tool) (s : Settings) (mode : Mode) : t.commandLine s mode =
    ⟨(s.overrides t).programOr t.name,
      t.front s mode ++ (s.overrides t).extraArgs ++ (t.target? s).toList⟩ := by
  cases t with
  | flake8 =>
    rw [target?, Option.toList_none, List.append_nil]
    rfl
  | isort | black | mypy => rfl

/-- Whether a tool is given a target does not depend on the settings. -/
theorem isSome_target? (t : Tool) (s s' : Settings) : (t.target? s).isSome = (t.target? s').isSome := by
  cases t <;> rfl

/-! ### Telling the parts apart -/

/-- What stands in front and behind is cut off again, where its length is known. -/
theorem args_inj {front front' extra extra' : List String} {target target' : Option String}
    (hfront : front.length = front'.length) (htarget : target.isSome = target'.isSome) :
    front ++ extra ++ target.toList = front' ++ extra' ++ target'.toList ↔
      front = front' ∧ extra = extra' ∧ target = target' := by
  constructor
  · intro h
    have hlength : target.toList.length = target'.toList.length := by
      rw [Option.length_toList, Option.length_toList, htarget]
    obtain ⟨hbefore, hbehind⟩ := List.append_inj' h hlength
    obtain ⟨hf, he⟩ := List.append_inj hbefore hfront
    refine ⟨hf, he, ?_⟩
    rw [← Option.head?_toList (o := target), hbehind, Option.head?_toList]
  · rintro ⟨rfl, rfl, rfl⟩
    rfl

/-- Only the formatter is given more arguments in front or fewer. -/
theorem length_front {t : Tool} (ht : t ≠ .black) (s s' : Settings) (mode : Mode) :
    (t.front s mode).length = (t.front s' mode).length := by
  cases t with
  | black => exact absurd rfl ht
  | isort | flake8 | mypy => rfl

/-- **The command lines of the other tools are the same** if their parts are. -/
theorem commandLine_inj {t : Tool} (ht : t ≠ .black) {s s' : Settings} {mode : Mode} :
    t.commandLine s mode = t.commandLine s' mode ↔
      (s.overrides t).programOr t.name = (s'.overrides t).programOr t.name ∧
      t.front s mode = t.front s' mode ∧ (s.overrides t).extraArgs = (s'.overrides t).extraArgs ∧
      t.target? s = t.target? s' := by
  rw [commandLine_eq, commandLine_eq, CommandLine.mk.injEq,
    args_inj (length_front ht s s' mode) (t.isSome_target? s s')]

/-! ### The formatter's flags -/

/-- The flag that leaves strings alone. -/
def skipFlag : String := "--skip-string-normalization"

/-- **What two tables of the formatter have in common that give the same arguments** behind the line
length: the extra arguments, if both leave strings alone or neither does. Otherwise the one that does not
has the flag as its first extra argument, and no flag for check mode stands in between. -/
structure SameFlags (mode : Mode) (b c : BlackTable) : Prop where
  alike : b.skipStringNormalization = c.skipStringNormalization →
    b.overrides.extraArgs = c.overrides.extraArgs
  left : b.skipStringNormalization = true → c.skipStringNormalization = false →
    mode = .fix ∧ c.overrides.extraArgs = skipFlag :: b.overrides.extraArgs
  right : b.skipStringNormalization = false → c.skipStringNormalization = true →
    mode = .fix ∧ b.overrides.extraArgs = skipFlag :: c.overrides.extraArgs

/-- The arguments behind the line length and before the target. -/
def blackMiddle (b : BlackTable) (mode : Mode) : List String :=
  (if b.skipStringNormalization then [skipFlag] else []) ++
    ((if mode.isCheck then [Mode.checkFlag] else []) ++ b.overrides.extraArgs)

/-- The formatter's command line with its flags taken together with the extra arguments. -/
theorem blackLine_middle (b : BlackTable) (mode : Mode) : blackLine b mode =
    ⟨b.overrides.programOr black.name,
      ["--line-length", toString b.lineLength.toNat] ++ blackMiddle b mode ++
        (some b.target).toList⟩ := by
  simp only [blackLine, CommandLine.push, CommandLine.append, blackFlags, blackMiddle, skipFlag,
    List.append_assoc, List.nil_append, Option.toList_some]

/-- The arguments in the middle are the same in no other way. -/
theorem blackMiddle_inj {b c : BlackTable} {mode : Mode} :
    blackMiddle b mode = blackMiddle c mode ↔ SameFlags mode b c := by
  -- in check mode another flag follows, which is not the one that leaves strings alone
  have hflags : skipFlag ≠ Mode.checkFlag := by decide
  constructor
  · intro h
    unfold blackMiddle at h
    constructor
    · intro hskip
      rw [hskip] at h
      exact List.append_cancel_left (List.append_cancel_left h)
    · intro hb hc
      rw [hb, hc] at h
      cases mode with
      | fix => exact ⟨rfl, h.symm⟩
      | check => exact absurd (List.cons_eq_cons.mp h).1 hflags
    · intro hb hc
      rw [hb, hc] at h
      cases mode with
      | fix => exact ⟨rfl, h⟩
      | check => exact absurd (List.cons_eq_cons.mp h).1.symm hflags
  · intro h
    unfold blackMiddle
    cases hb : b.skipStringNormalization <;> cases hc : c.skipStringNormalization
    · rw [h.alike (hb.trans hc.symm)]
    · obtain ⟨rfl, hextra⟩ := h.right hb hc
      exact hextra
    · obtain ⟨rfl, hextra⟩ := h.left hb hc
      exact hextra.symm
    · rw [h.alike (hb.trans hc.symm)]

/-- A line length can be told from its digits. -/
theorem toString_toNat_inj {m n : UInt32} : toString m.toNat = toString n.toNat ↔ m = n := by
  refine ⟨fun h => ?_, fun h => by rw [h]⟩
  rw [Nat.toString_eq_repr, Nat.toString_eq_repr, Nat.repr, Nat.repr, String.ofList_inj] at h
  have hnumber := congrArg (fun ds => Nat.ofDigitChars 10 ds 0) h
  simp only [Nat.ofDigitChars_toDigits (b := 10) (by decide) (by decide)] at hnumber
  exact UInt32.toNat_inj.mp hnumber

/-- **The formatter's command lines are the same** if their parts are, the flags and the extra arguments
taken together. -/
theorem blackLine_inj {b c : BlackTable} {mode : Mode} : blackLine b mode = blackLine c mode ↔
    b.overrides.programOr black.name = c.overrides.programOr black.name ∧
      b.lineLength = c.lineLength ∧ SameFlags mode b c ∧ b.target = c.target := by
  have hlength : ["--line-length", toString b.lineLength.toNat].length =
      ["--line-length", toString c.lineLength.toNat].length := rfl
  have htarget : (some b.target).isSome = (some c.target).isSome := rfl
  rw [blackLine_middle, blackLine_middle, CommandLine.mk.injEq, args_inj hlength htarget,
    blackMiddle_inj, Option.some_inj, ← toString_toNat_inj]
  simp

end Tool

/-! ### Plans -/

namespace Settings

theorem plan_eq_iff_commandLine {s t : Settings} {mode : Mode} : s.plan mode = t.plan mode ↔
    ∀ tool : Tool, tool.commandLine s mode = tool.commandLine t mode := by
  rw [plan, plan, List.map_inj_left]
  exact ⟨fun h tool => (Prod.mk.inj (h tool tool.mem_all)).2, fun h tool _ => by rw [h tool]⟩

/-- **What settings with the same plan have in common**: every value that is put on a command line, and
nothing else. A program that is not set counts as the tool's own name. The formatter's extra arguments
agree if both settings leave strings alone or neither does. -/
theorem plan_eq_iff (s t : Settings) (mode : Mode) : s.plan mode = t.plan mode ↔
    (∀ tool : Tool,
      (s.overrides tool).programOr tool.name = (t.overrides tool).programOr tool.name) ∧
    (s.isort.settingsPath = t.isort.settingsPath ∧
      s.isort.overrides.extraArgs = t.isort.overrides.extraArgs ∧ s.isort.target = t.isort.target) ∧
    (s.black.lineLength = t.black.lineLength ∧ s.black.target = t.black.target ∧
      Tool.SameFlags mode s.black t.black) ∧
    (s.flake8.config = t.flake8.config ∧
      s.flake8.overrides.extraArgs = t.flake8.overrides.extraArgs) ∧
    (s.mypy.overrides.extraArgs = t.mypy.overrides.extraArgs ∧ s.mypy.target = t.mypy.target) := by
  have hisort : Tool.isort.commandLine s mode = Tool.isort.commandLine t mode ↔
      (s.overrides .isort).programOr Tool.isort.name = (t.overrides .isort).programOr Tool.isort.name ∧
      s.isort.settingsPath = t.isort.settingsPath ∧
      s.isort.overrides.extraArgs = t.isort.overrides.extraArgs ∧ s.isort.target = t.isort.target := by
    rw [Tool.commandLine_inj (by decide)]
    simp [Tool.front, Tool.target?, overrides]
  have hblack : Tool.black.commandLine s mode = Tool.black.commandLine t mode ↔
      (s.overrides .black).programOr Tool.black.name = (t.overrides .black).programOr Tool.black.name ∧
      s.black.lineLength = t.black.lineLength ∧ Tool.SameFlags mode s.black t.black ∧
      s.black.target = t.black.target :=
    Tool.blackLine_inj
  have hflake8 : Tool.flake8.commandLine s mode = Tool.flake8.commandLine t mode ↔
      (s.overrides .flake8).programOr Tool.flake8.name =
        (t.overrides .flake8).programOr Tool.flake8.name ∧
      s.flake8.config = t.flake8.config ∧
      s.flake8.overrides.extraArgs = t.flake8.overrides.extraArgs := by
    rw [Tool.commandLine_inj (by decide)]
    simp [Tool.front, Tool.target?, overrides]
  have hmypy : Tool.mypy.commandLine s mode = Tool.mypy.commandLine t mode ↔
      (s.overrides .mypy).programOr Tool.mypy.name = (t.overrides .mypy).programOr Tool.mypy.name ∧
      s.mypy.overrides.extraArgs = t.mypy.overrides.extraArgs ∧ s.mypy.target = t.mypy.target := by
    rw [Tool.commandLine_inj (by decide)]
    simp [Tool.front, Tool.target?, overrides]
  -- each tool has its own settings but for the program, which is read alike for all of them
  rw [plan_eq_iff_commandLine]
  constructor
  · intro h
    obtain ⟨hprogram, hpath, hextra, htarget⟩ := hisort.mp (h .isort)
    obtain ⟨hblackProgram, hlength, hflags, hblackTarget⟩ := hblack.mp (h .black)
    obtain ⟨hflake8Program, hconfig, hflake8Extra⟩ := hflake8.mp (h .flake8)
    obtain ⟨hmypyProgram, hmypyExtra, hmypyTarget⟩ := hmypy.mp (h .mypy)
    refine ⟨fun tool => ?_, ⟨hpath, hextra, htarget⟩, ⟨hlength, hblackTarget, hflags⟩,
      ⟨hconfig, hflake8Extra⟩, hmypyExtra, hmypyTarget⟩
    cases tool <;> assumption
  · rintro ⟨hprogram, hisort', ⟨hlength, htarget, hflags⟩, hflake8', hmypy'⟩ tool
    cases tool with
    | isort => exact hisort.mpr ⟨hprogram .isort, hisort'⟩
    | black => exact hblack.mpr ⟨hprogram .black, hlength, hflags, htarget⟩
    | flake8 => exact hflake8.mpr ⟨hprogram .flake8, hflake8'⟩
    | mypy => exact hmypy.mpr ⟨hprogram .mypy, hmypy'⟩

/-- In fix mode the flag may as well be given among the extra arguments. -/
example :
    let flagged : BlackTable :=
      { skipStringNormalization := false, overrides := { extraArgs := [Tool.skipFlag] } }
    ({ black := flagged } : Settings).plan .fix = ({} : Settings).plan .fix := by
  decide

end Settings
end QualityGate
