import Mathlib.Tactic.TFAE
import QualityGate.Run.Summary
/-!
## What the steps of a run come to

A summary is read in four ways: whether it succeeded, which step failed, how many steps passed, and
the status byte of its exit code. Each is computed on its own from the steps.

* `succeeded_tfae`: the four agree on whether every step passed.
* `statusByte_exitCode_of_first`: of a run that failed, the first step that did not pass decides the
  status, whatever stands before and behind it.
* `status_accounted`: both for any list of steps.
-/

namespace QualityGate

/-! ### Codes and bytes -/

/-- **Only the code zero becomes the status zero.** -/
theorem statusByte_eq_zero_iff (code : Int) : statusByte code = 0 ↔ code = 0 := by
  unfold statusByte
  split
  · omega
  · omega

/-- A tool that did not pass with a code that is no error code of its own was killed, or has a code that
fits no byte. -/
theorem Outcome.failed_cases {o : Outcome} (h : o.passed = false)
    (hcode : ¬(1 ≤ o.exitCode ∧ o.exitCode ≤ 255)) :
    o.exitCode < 0 ∨ 255 < o.exitCode ∨
      o.exitCode = 0 ∧ (o.signal ≠ none ∨ o.timedOut = true) := by
  by_cases hzero : o.exitCode = 0
  · refine Or.inr (Or.inr ⟨hzero, ?_⟩)
    by_cases hsignal : o.signal = none
    · cases htime : o.timedOut with
      | true => exact Or.inr rfl
      | false =>
        rw [o.passed_iff.mpr ⟨hzero, hsignal, htime⟩] at h
        cases h
    · exact Or.inl hsignal
  · omega

namespace Summary

variable {s : Summary} {step : Step}

/-! ### The failed step -/

/-- **The failed step is the first one that did not pass.** -/
theorem failedStep?_eq_some_iff :
    s.failedStep? = some step ↔
      ∃ front back, s.steps = front ++ step :: back ∧ (∀ before ∈ front, before.passed = true) ∧
        step.passed = false := by
  rw [failedStep?, List.find?_eq_some_iff_append]
  constructor
  · rintro ⟨hstep, front, back, hsteps, hfront⟩
    exact ⟨front, back, hsteps, by simpa using hfront, by simpa using hstep⟩
  · rintro ⟨front, back, hsteps, hfront, hstep⟩
    exact ⟨by simpa using hstep, front, back, hsteps, by simpa using hfront⟩

theorem passedCount_eq_length_iff :
    s.passedCount = s.steps.length ↔ ∀ step ∈ s.steps, step.passed = true := by
  rw [passedCount, List.countP_eq_length]

/-! ### The status -/

/-- **The readings of a summary agree** on whether every step passed. -/
theorem succeeded_tfae (s : Summary) :
    [s.succeeded = true, s.failedStep? = none, s.passedCount = s.steps.length,
      statusByte s.exitCode = 0].TFAE := by
  have hall := s.exitCode_eq_zero_iff
  tfae_have 1 ↔ 4 := by rw [succeeded, decide_eq_true_iff, statusByte_eq_zero_iff]
  tfae_have 2 ↔ 4 := by rw [failedStep?_eq_none_iff, statusByte_eq_zero_iff, hall]
  tfae_have 3 ↔ 4 := by rw [passedCount_eq_length_iff, statusByte_eq_zero_iff, hall]
  tfae_finish

/-- **The first step that did not pass decides the status**: by its code if that is an error code, and
with 1 if not. -/
theorem statusByte_exitCode_of_first (h : s.failedStep? = some step) :
    statusByte s.exitCode =
      if 1 ≤ step.outcome.exitCode ∧ step.outcome.exitCode ≤ 255 then step.outcome.exitCode.toNat
      else 1 := by
  rw [exitCode, h]
  dsimp only
  -- The code zero of a step that did not pass is replaced by 1 before it becomes a status.
  by_cases hzero : step.outcome.exitCode = 0
  · rw [if_neg (by simpa using hzero), if_neg (by omega)]
    rfl
  · rw [if_pos hzero, statusByte]
    have hrange : (0 ≤ step.outcome.exitCode ∧ step.outcome.exitCode ≤ 255) ↔
        (1 ≤ step.outcome.exitCode ∧ step.outcome.exitCode ≤ 255) := by omega
    simp only [hrange]

/-- **What a list of steps comes to.** All readings of it agree on whether every step passed. If not,
there is a first step that did not, and the status depends on that step's code alone: it is the code
where that is from 1 to 255, and 1 otherwise, which is after a death by signal or a time-out with the
code zero, a negative code, or one that fits no byte. -/
theorem status_accounted (s : Summary) :
    [s.succeeded = true, s.failedStep? = none, s.passedCount = s.steps.length,
      statusByte s.exitCode = 0].TFAE ∧
    (s.succeeded = false → ∃ front step back, s.steps = front ++ step :: back ∧
      (∀ before ∈ front, before.passed = true) ∧ step.passed = false) ∧
    ∀ front step back, s.steps = front ++ step :: back →
      (∀ before ∈ front, before.passed = true) → step.passed = false →
        let code := step.outcome.exitCode
        s.failedStep? = some step ∧
        statusByte s.exitCode = (if 1 ≤ code ∧ code ≤ 255 then code.toNat else 1) ∧
        (¬(1 ≤ code ∧ code ≤ 255) → code < 0 ∨ 255 < code ∨
          code = 0 ∧ (step.outcome.signal ≠ none ∨ step.outcome.timedOut = true)) := by
  refine ⟨s.succeeded_tfae, ?_, ?_⟩
  · intro hfailed
    -- not all steps pass, so one that does not can be found
    have hagree : s.succeeded = true ↔ s.failedStep? = none := s.succeeded_tfae.out 0 1
    have hsome : s.failedStep? ≠ none := by
      rw [ne_eq, ← hagree, hfailed]
      decide
    obtain ⟨step, hstep⟩ := Option.ne_none_iff_exists'.mp hsome
    obtain ⟨front, back, hfirst⟩ := failedStep?_eq_some_iff.mp hstep
    exact ⟨front, step, back, hfirst⟩
  · intro front step back hsteps hfront hstep code
    have hfirst : s.failedStep? = some step :=
      failedStep?_eq_some_iff.mpr ⟨front, back, hsteps, hfront, hstep⟩
    exact ⟨hfirst, statusByte_exitCode_of_first hfirst, Outcome.failed_cases hstep⟩

/-- A tool that was killed, with the code zero, before one whose code fits no byte. -/
theorem status_accounted_killed :
    let step (o : Outcome) : Step := ⟨.black, ⟨"black", []⟩, o⟩
    let steps := [step {}, step { signal := some 9 }, step { exitCode := 300 }]
    statusByte (exitCode { mode := .check, steps := steps, activated := false }) = 1 := by
  intro step steps
  have hdecided := (status_accounted { mode := .check, steps := steps, activated := false }).2.2
    [step {}] (step { signal := some 9 }) [step { exitCode := 300 }] rfl (by decide) (by decide)
  exact hdecided.2.1

end Summary
end QualityGate
