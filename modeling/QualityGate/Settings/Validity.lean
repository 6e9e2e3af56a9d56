import QualityGate.Settings.Basic
import QualityGate.Duration.Reader
import QualityGate.Failure
/-!
Which settings make sense. `Settings.validate` accepts them or names the first field at fault;
`Settings.limit` is the time limit that an accepted timeout stands for.
-/

namespace QualityGate

namespace Settings

/-! ### The time limit -/

/-- **The time limit of one tool.** A timeout that does not read as a duration is none. -/
def limit (s : Settings) : Except Halt (Option Duration) :=
  match s.pipeline.timeout with
  | none => .ok none
  | some text =>
    match Duration.read text with
    | .ok d => .ok (some d)
    | .error .malformed => .ok none
    | .error .overflow => .error .overflow

/-! ### The rules -/

/-- What is wrong with a timeout, if anything. -/
def checkTimeout (s : Settings) : Except Halt Unit :=
  match s.pipeline.timeout with
  | none => .ok ()
  | some text =>
    match Duration.read text with
    | .ok _ => .ok ()
    | .error .malformed =>
      .error (.failed (.settingInvalid "pipeline.timeout" ("Invalid duration: " ++ text)))
    | .error .overflow => .error .overflow

/-- A rule on one field: whether it is kept, and what to say if not. -/
structure Rule where
  field : String
  kept : Bool
  complaint : String

/-- A field that must hold more than blanks. -/
def Rule.filled (field value : String) : Rule :=
  ⟨field, !Text.isBlankText value, "must not be empty"⟩

/-- A field that must hold more than blanks when it is set. -/
def Rule.filledIfSet (field : String) (value : Option String) : Rule :=
  ⟨field, (value.map fun v => !Text.isBlankText v).getD true, "must not be empty"⟩

/-- **The rules after that on the timeout**, in the order in which they are tried. -/
def rules (s : Settings) : List Rule :=
  [.filled "pipeline.shell" s.pipeline.shell,
   ⟨"black.line_length", s.black.lineLength ≠ 0, "must be greater than zero"⟩,
   .filled "isort.settings_path" s.isort.settingsPath,
   .filled "isort.target" s.isort.target,
   .filled "black.target" s.black.target,
   .filled "flake8.config" s.flake8.config,
   .filled "mypy.target" s.mypy.target,
   .filledIfSet "isort.program" s.isort.overrides.program,
   .filledIfSet "black.program" s.black.overrides.program,
   .filledIfSet "flake8.program" s.flake8.overrides.program,
   .filledIfSet "mypy.program" s.mypy.overrides.program]

/-- The first rule that is broken decides. -/
def checkRules : List Rule → Except Halt Unit
  | [] => .ok ()
  | r :: rs =>
    if r.kept then checkRules rs else .error (.failed (.settingInvalid r.field r.complaint))

/-- **Accepts settings that make sense**, or names the first field at fault. -/
def validate (s : Settings) : Except Halt Unit :=
  match s.checkTimeout with
  | .error e => .error e
  | .ok () => checkRules s.rules

theorem checkRules_eq_ok_iff (rs : List Rule) :
    checkRules rs = .ok () ↔ ∀ r ∈ rs, r.kept = true := by
  induction rs with
  | nil => simp [checkRules]
  | cons r rs ih => by_cases h : r.kept = true <;> simp [checkRules, h, ih]

/-- **Accepted settings have a time limit or none**, but never one out of range. -/
theorem limit_of_validate {s : Settings} (h : s.validate = .ok ()) : ∃ limit, s.limit = .ok limit := by
  have hcheck : s.checkTimeout = .ok () := by
    unfold validate at h
    split at h
    · cases h
    · assumption
  unfold checkTimeout at hcheck
  unfold limit
  cases htimeout : s.pipeline.timeout with
  | none => exact ⟨none, rfl⟩
  | some text =>
    simp only [htimeout] at hcheck ⊢
    cases hread : Duration.read text with
    | ok d => exact ⟨some d, rfl⟩
    | error e => cases e <;> simp [hread] at hcheck

/-- The default settings make sense. -/
theorem validate_default : ({} : Settings).validate = .ok () := by
  have hrules : ∀ r ∈ ({} : Settings).rules, r.kept = true := by decide +kernel
  simp [validate, checkTimeout, (checkRules_eq_ok_iff _).mpr hrules]

end Settings
end QualityGate
