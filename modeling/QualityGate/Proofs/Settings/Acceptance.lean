import QualityGate.Proofs.Duration.RoundTrip
import QualityGate.Proofs.Settings.Recognised
import QualityGate.Run.Outcome
import QualityGate.Settings.Validity
/-!
## Which settings are accepted

`Setting.MakesSense` says of each recognised setting which of its values make sense, and
`Setting.checked` lists those of which not every value does, in the order in which they are looked at.

* `validate_cases`: settings are accepted if each of them makes sense; if not, the first one that does
  not is named, unless the sum of the timeout leaves the range of durations before anything else is
  looked at.
* `validate_withTimeout`: for settings that are otherwise accepted, which timeouts are accepted, which
  are refused, and which do neither (`Duration.Overflows`).
* `limit_withTimeout_described`: the time that a report says a tool took until it ran out of time is
  accepted as a timeout, and limits to exactly that time.
-/

namespace QualityGate

/-- **A text that holds more than blanks.** -/
def Text.Filled (s : String) : Prop :=
  ∃ c ∈ s.toList, Text.isBlank c = false

theorem Text.filled_iff {s : String} : Text.Filled s ↔ (!Text.isBlankText s) = true := by
  rw [Filled, isBlankText, Bool.not_eq_true', List.all_eq_false]
  simp

instance : DecidablePred Text.Filled := fun _ => decidable_of_iff' _ Text.filled_iff

namespace Setting

/-! ### The values that make sense -/

/-- The name of a setting, with its table. -/
def path (k : Setting α) : String :=
  k.table ++ "." ++ k.key

/-- **The values of a setting that make sense.** -/
def MakesSense : Setting α → α → Prop
  | timeout, v => ∀ text, v = some text → ∃ d, Duration.read text = .ok d
  | shell, v | settingsPath, v | isortTarget, v | blackTarget, v | flake8Config, v
  | mypyTarget, v => Text.Filled v
  | lineLength, v => 0 < v
  | program _, v => ∀ name, v = some name → Text.Filled name
  | activate, _ | captureOutput, _ | skipStringNormalization, _ | extraArgs _, _ => True

/-- What is said of a value that makes no sense. -/
def complaint : Setting α → α → String
  | timeout, v => "Invalid duration: " ++ v.getD ""
  | lineLength, _ => "must be greater than zero"
  | _, _ => "must not be empty"

/-- **The settings that are checked**, in their order. -/
def checked : List (Σ α, Setting α) :=
  [⟨_, timeout⟩, ⟨_, shell⟩, ⟨_, lineLength⟩, ⟨_, settingsPath⟩, ⟨_, isortTarget⟩, ⟨_, blackTarget⟩,
    ⟨_, flake8Config⟩, ⟨_, mypyTarget⟩] ++
  Tool.all.map fun t => ⟨_, program t⟩

/-- What is said of settings in which a setting makes no sense. -/
def fault (k : Setting α) (s : Settings) : Failure :=
  .settingInvalid k.path (k.complaint (k.get s))

/-- Settings in which every checked setting makes sense make sense in all of them. -/
theorem makesSense_of_checked {s : Settings} (h : ∀ k ∈ checked, k.2.MakesSense (k.2.get s))
    (k : Setting α) : k.MakesSense (k.get s) := by
  by_cases hk : ⟨α, k⟩ ∈ checked
  · exact h _ hk
  · cases k with
    | activate | captureOutput | skipStringNormalization | extraArgs => trivial
    | program t => exact absurd (by simp [checked, Tool.mem_all]) hk
    | _ => exact absurd (by simp [checked]) hk

/-! ### The rule on each setting -/

/-- Whether a value of a setting makes sense, as the rules compute it. -/
def accepts : Setting α → α → Bool
  | timeout, v => (v.map fun text => (Duration.read text).isOk).getD true
  | shell, v | settingsPath, v | isortTarget, v | blackTarget, v | flake8Config, v
  | mypyTarget, v => !Text.isBlankText v
  | lineLength, v => v ≠ 0
  | program _, v => (v.map fun name => !Text.isBlankText name).getD true
  | activate, _ | captureOutput, _ | skipStringNormalization, _ | extraArgs _, _ => true

theorem accepts_iff (k : Setting α) (v : α) : k.accepts v = true ↔ k.MakesSense v := by
  -- Optional values are accepted when they are unset; the texts share one rule.
  cases k with
  | timeout =>
    cases v with
    | none => simp [accepts, MakesSense]
    | some text =>
      cases h : Duration.read text <;>
        simp [accepts, MakesSense, h, Except.isOk, Except.toBool]
  | program t =>
    cases v with
    | none => simp [accepts, MakesSense]
    | some name => simp [accepts, MakesSense, Text.filled_iff]
  | lineLength => simp [accepts, MakesSense, UInt32.pos_iff_ne_zero]
  | activate | captureOutput | skipStringNormalization | extraArgs => simp [accepts, MakesSense]
  | _ => exact Text.filled_iff.symm

instance (k : Setting α) : DecidablePred k.MakesSense := fun v =>
  decidable_of_iff _ (k.accepts_iff v)

/-- The rule on a setting. -/
def rule (s : Settings) (k : Setting α) : Settings.Rule :=
  ⟨k.path, k.accepts (k.get s), k.complaint (k.get s)⟩

end Setting

namespace Settings

open Setting (checked)

/-- The rules after that on the timeout are those on the settings checked after it. -/
theorem rules_eq (s : Settings) : s.rules = checked.tail.map fun k => k.2.rule s := rfl

/-- **The first setting at fault**: those that are checked before it make sense, but it does not. -/
def FirstAtFault (s : Settings) (k : Σ α, Setting α) : Prop :=
  ∃ front back, checked = front ++ k :: back ∧
    (∀ j ∈ front, j.2.MakesSense (j.2.get s)) ∧ ¬k.2.MakesSense (k.2.get s)

/-- The first broken rule decides. -/
theorem checkRules_cases (rs : List Rule) :
    (checkRules rs = .ok () ∧ ∀ r ∈ rs, r.kept = true) ∨
      ∃ front r back, rs = front ++ r :: back ∧ (∀ q ∈ front, q.kept = true) ∧ r.kept = false ∧
        checkRules rs = .error (.failed (.settingInvalid r.field r.complaint)) := by
  induction rs with
  | nil => exact Or.inl ⟨rfl, by simp⟩
  | cons r rs ih =>
    cases hr : r.kept with
    | false => exact Or.inr ⟨[], r, rs, rfl, by simp, hr, by simp [checkRules, hr]⟩
    | true =>
      have hstep : checkRules (r :: rs) = checkRules rs := by simp [checkRules, hr]
      rw [hstep]
      rcases ih with ⟨hok, hkept⟩ | ⟨front, q, back, rfl, hfront, hq, herror⟩
      · exact Or.inl ⟨hok, List.forall_mem_cons.mpr ⟨hr, hkept⟩⟩
      · exact Or.inr ⟨r :: front, q, back, rfl, List.forall_mem_cons.mpr ⟨hr, hfront⟩, hq, herror⟩

/-- **What a timeout comes to**: it is accepted, it is no duration, or its sum is out of range. -/
theorem timeout_cases (s : Settings) :
    (Setting.timeout.MakesSense s.pipeline.timeout ∧ s.checkTimeout = .ok () ∧
      ∃ limit, s.limit = .ok limit ∧ limit.isSome = s.pipeline.timeout.isSome) ∨
    (¬Setting.timeout.MakesSense s.pipeline.timeout ∧
      s.checkTimeout = .error (.failed (Setting.timeout.fault s)) ∧ s.limit = .ok none) ∨
    (¬Setting.timeout.MakesSense s.pipeline.timeout ∧
      s.checkTimeout = .error .overflow ∧ s.limit = .error .overflow) := by
  have hfault : Setting.timeout.fault s =
      .settingInvalid "pipeline.timeout" ("Invalid duration: " ++ s.pipeline.timeout.getD "") := rfl
  rw [hfault]
  unfold checkTimeout limit
  cases s.pipeline.timeout with
  | none => exact Or.inl ⟨(fun _ h => nomatch h), rfl, none, rfl, rfl⟩
  | some text =>
    have hsense : Setting.timeout.MakesSense (some text) ↔ ∃ d, Duration.read text = .ok d := by
      simp [Setting.MakesSense]
    rw [hsense]
    dsimp only
    cases Duration.read text with
    | ok d => exact Or.inl ⟨⟨d, rfl⟩, rfl, some d, rfl, rfl⟩
    | error e =>
      have hnone : ¬∃ d, (Except.error e : Except Duration.Fault Duration) = .ok d := by simp
      cases e with
      | malformed => exact Or.inr (Or.inl ⟨hnone, rfl, rfl⟩)
      | overflow => exact Or.inr (Or.inr ⟨hnone, rfl, rfl⟩)

/-- **What settings come to**: each of them makes sense, the first one that does not is named, or the
timeout is out of range, which is found before anything else. -/
theorem validate_cases (s : Settings) :
    (s.validate = .ok () ∧ (∀ (α : Type) (k : Setting α), k.MakesSense (k.get s)) ∧
      ∃ limit, s.limit = .ok limit ∧ limit.isSome = s.pipeline.timeout.isSome) ∨
    (∃ k, s.FirstAtFault k ∧ s.validate = .error (.failed (k.2.fault s)) ∧
      ∃ limit, s.limit = .ok limit) ∨
    (¬Setting.timeout.MakesSense s.pipeline.timeout ∧
      s.validate = .error .overflow ∧ s.limit = .error .overflow) := by
  rw [validate]
  rcases s.timeout_cases with ⟨htimeout, hcheck, limit, hlimit, hsame⟩ | ⟨htimeout, hcheck, hlimit⟩ |
    ⟨htimeout, hcheck, hlimit⟩
  · simp only [hcheck]
    rcases checkRules_cases s.rules with ⟨hok, hkept⟩ | ⟨front, r, back, hrules, hfront, hr, herror⟩
    · refine Or.inl ⟨hok, fun α => Setting.makesSense_of_checked ?_, limit, hlimit, hsame⟩
      rw [rules_eq, List.forall_mem_map] at hkept
      exact List.forall_mem_cons.mpr ⟨htimeout, fun k hk => (k.2.accepts_iff _).mp (hkept k hk)⟩
    · -- The broken rule and those before it are rules on settings that are checked.
      rw [rules_eq] at hrules
      obtain ⟨frontChecked, rest, hchecked, rfl, hrest⟩ := List.map_eq_append_iff.mp hrules
      obtain ⟨k, backChecked, rfl, rfl, rfl⟩ := List.map_eq_cons_iff.mp hrest
      refine Or.inr (Or.inl ⟨k, ⟨⟨_, .timeout⟩ :: frontChecked, backChecked, ?_, ?_, ?_⟩, herror,
        limit, hlimit⟩)
      · exact congrArg (_ :: ·) hchecked
      · rw [List.forall_mem_map] at hfront
        exact List.forall_mem_cons.mpr ⟨htimeout, fun j hj => (j.2.accepts_iff _).mp (hfront j hj)⟩
      · rw [← k.2.accepts_iff, Bool.not_eq_true]
        exact hr
  · have hfirst : s.FirstAtFault ⟨_, .timeout⟩ := ⟨[], checked.tail, rfl, by simp, htimeout⟩
    refine Or.inr (Or.inl ⟨_, hfirst, ?_, none, hlimit⟩)
    simp only [hcheck]
  · refine Or.inr (Or.inr ⟨htimeout, ?_, hlimit⟩)
    simp only [hcheck]

/-- **Settings are accepted** exactly if each of them makes sense. -/
theorem validate_eq_ok_iff (s : Settings) :
    s.validate = .ok () ↔ ∀ (α : Type) (k : Setting α), k.MakesSense (k.get s) := by
  rcases s.validate_cases with ⟨hvalid, hsense, -⟩ | ⟨k, ⟨-, -, -, -, hk⟩, hvalid, -⟩ | ⟨htimeout, hvalid, -⟩
  · exact iff_of_true hvalid hsense
  · rw [hvalid]
    exact iff_of_false nofun fun h => hk (h _ k.2)
  · rw [hvalid]
    exact iff_of_false nofun fun h => htimeout (h _ .timeout)

/-! ### Timeouts in settings that are otherwise accepted -/

/-- Settings with another timeout. -/
def withTimeout (s : Settings) (timeout : Option String) : Settings :=
  { s with pipeline := { s.pipeline with timeout := timeout } }

/-- Whether anything but the timeout is at fault does not depend on the timeout. -/
theorem checkRules_withTimeout {s : Settings} (h : (s.withTimeout none).validate = .ok ())
    (timeout : Option String) : checkRules (s.withTimeout timeout).rules = .ok () :=
  h

/-- **Which timeouts are accepted, in settings that are otherwise**: those that read as durations. The
others are refused, and limit nothing; but where the sum of a text is out of range there is neither an
answer nor a limit. -/
theorem validate_withTimeout (settings : Settings)
    (hvalid : (settings.withTimeout none).validate = .ok ()) (text : String) :
    let s := settings.withTimeout (some text)
    (¬Duration.Overflows text →
      (∃ d, Duration.read text = .ok d ∧ s.validate = .ok () ∧ s.limit = .ok (some d)) ∨
      Duration.read text = .error .malformed ∧
        s.validate =
          .error (.failed (.settingInvalid "pipeline.timeout" ("Invalid duration: " ++ text))) ∧
        s.limit = .ok none) ∧
    (Duration.Overflows text → s.validate = .error .overflow ∧ s.limit = .error .overflow) := by
  intro s
  -- The other rules are kept, so that the reading of the text alone decides.
  have hrules := checkRules_withTimeout hvalid (some text)
  have htimeout : s.pipeline.timeout = some text := rfl
  rw [← Duration.read_eq_overflow_iff]
  unfold validate checkTimeout limit
  simp only [htimeout]
  cases hread : Duration.read text with
  | ok d => exact ⟨fun _ => Or.inl ⟨d, rfl, hrules, rfl⟩, fun h => nomatch h⟩
  | error e =>
    cases e with
    | malformed => exact ⟨fun _ => Or.inr ⟨rfl, rfl, rfl⟩, fun h => nomatch h⟩
    | overflow => exact ⟨fun h => absurd rfl h, fun _ => ⟨rfl, rfl⟩⟩

/-- The longest duration is accepted as a timeout. -/
theorem validate_withTimeout_longest :
    let s := ({} : Settings).withTimeout (some "18446744073709551615s 999999999ns")
    s.validate = .ok () ∧ ∃ d, s.limit = .ok (some d) := by
  intro s
  have hread : (Duration.read "18446744073709551615s 999999999ns").isOk = true := by decide +kernel
  have hsum : ¬Duration.Overflows "18446744073709551615s 999999999ns" := by
    rw [← Duration.read_eq_overflow_iff]
    intro h
    rw [h] at hread
    cases hread
  rcases (validate_withTimeout {} validate_default _).1 hsum with ⟨d, -, hok, hlimit⟩ | ⟨hnone, -⟩
  · exact ⟨hok, d, hlimit⟩
  · rw [hnone] at hread
    cases hread

/-- **A nanosecond more is neither accepted nor refused.** -/
theorem validate_timeout_overflow :
    let s := ({} : Settings).withTimeout (some "18446744073709551615s 1000000000ns")
    (({} : Settings).withTimeout none).validate = .ok () ∧ s.validate = .error .overflow ∧
      s.limit = .error .overflow := by
  decide +kernel

/-! ### The time that a report names -/

/-- A text that reads as a duration is accepted as a timeout, whatever the other settings are. -/
theorem validate_withTimeout_of_read {text : String} {d : Duration}
    (h : Duration.read text = .ok d) (s : Settings) :
    (s.withTimeout (some text)).validate = (s.withTimeout none).validate ∧
      (s.withTimeout (some text)).limit = .ok (some d) := by
  have htimeout : (s.withTimeout (some text)).pipeline.timeout = some text := rfl
  constructor
  · rw [validate, checkTimeout, htimeout]
    dsimp only
    rw [h]
    rfl
  · rw [limit, htimeout]
    dsimp only
    rw [h]

/-- **The time that a report names can be set as the timeout**: of a tool that ran out of time, the
report says after how long, and that text is accepted wherever no timeout would be, and limits to
exactly as long. -/
theorem limit_withTimeout_described (o : Outcome) (h : o.timedOut = true) (c : CommandLine) :
    ∃ text, o.describe c = "Command '" ++ c.render ++ "' timed out after " ++ text ++ "." ∧
      ∀ s : Settings, (s.withTimeout (some text)).validate = (s.withTimeout none).validate ∧
        (s.withTimeout (some text)).limit = .ok (some o.elapsed) := by
  refine ⟨o.elapsed.print, ?_, validate_withTimeout_of_read o.elapsed.read_print⟩
  rw [Outcome.describe, if_pos h]

/-- The longest time of all has a count of each unit. -/
theorem limit_withTimeout_described_longest :
    let o : Outcome :=
      { timedOut := true, elapsed := ⟨wordBound - 1, 999999999, by decide, by decide⟩ }
    let text := "584542046090years 7months 15days 17h 5m 3s 999ms 999us 999ns"
    o.timedOut = true ∧
      o.describe ⟨"mypy", ["src"]⟩ = "Command 'mypy src' timed out after " ++ text ++ "." ∧
      (({} : Settings).withTimeout (some text)).validate = .ok () ∧
      (({} : Settings).withTimeout (some text)).limit = .ok (some o.elapsed) := by
  intro o text
  have hdescribed : o.describe ⟨"mypy", ["src"]⟩ =
      "Command 'mypy src' timed out after " ++ text ++ "." := by decide
  obtain ⟨same, hsame, haccepted⟩ := limit_withTimeout_described o rfl ⟨"mypy", ["src"]⟩
  -- Both sentences are the same one, so that they name the same time.
  have hfront : "Command '" ++ CommandLine.render ⟨"mypy", ["src"]⟩ ++ "' timed out after " =
      "Command 'mypy src' timed out after " := by decide
  rw [hdescribed, hfront, String.append_left_inj, String.append_right_inj] at hsame
  obtain ⟨hvalid, hlimit⟩ := haccepted {}
  rw [← hsame] at hvalid hlimit
  exact ⟨rfl, hdescribed, hvalid.trans validate_default, hlimit⟩

end Settings
end QualityGate
