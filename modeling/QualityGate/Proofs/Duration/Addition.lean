import QualityGate.Duration.Reader
/-!
## Adding an amount to a duration

An addition looks at the seconds and at the nanoseconds on their own, and it carries only more than a
whole second. So it can fail in two ways on a sum that is too long, and also on one that is not.

* `add_cases`: what an addition comes to in each case.
* `add_eq_overflow_iff`: it leaves the range of durations unnoticed if the sum is one nanosecond longer
  than the longest duration and the nanoseconds alone make a whole second (`Overruns`).
-/

namespace QualityGate.Duration

/-- Seconds and nanoseconds, not carried. -/
abbrev Amount : Type := Nat × Nat

/-- The length of an amount. -/
def Amount.toNanos (a : Amount) : Nat :=
  a.1 * nanosPerSec + a.2

/-- **An amount overruns a total**: their sum is one nanosecond more than the longest duration, and the
nanoseconds alone make a whole second. -/
def Overruns (total : Duration) (a : Amount) : Prop :=
  total.toNanos + a.toNanos = wordBound * nanosPerSec ∧ total.nanos + a.2 = nanosPerSec

theorem word_of_lt {n : Nat} (h : n < wordBound) : word n = .ok n :=
  if_pos h

theorem word_of_not_lt {n : Nat} (h : ¬n < wordBound) : word n = .error .malformed :=
  if_neg h

/-- **The carry of an addition.** Only more than a second of nanoseconds is carried, so a whole second
of them is left to the construction of the total. -/
theorem exists_carried {total : Duration} {a : Amount} (h : total.nanos + a.2 < wordBound) :
    ∃ secs nanos, secs * nanosPerSec + nanos = a.toNanos + total.nanos ∧ nanos ≤ nanosPerSec ∧
      (nanos = nanosPerSec ↔ total.nanos + a.2 = nanosPerSec) ∧
      add total a.1 a.2 =
        if total.secs + secs < wordBound then
          (ofParts? (total.secs + secs) nanos).elim (.error .overflow) .ok
        else .error .malformed := by
  let carried := if nanosPerSec < total.nanos + a.2 then (total.nanos + a.2) / nanosPerSec else 0
  let left :=
    if nanosPerSec < total.nanos + a.2 then (total.nanos + a.2) % nanosPerSec else total.nanos + a.2
  -- with the carry or without it, no nanosecond is lost
  have hleft : carried * nanosPerSec + left = total.nanos + a.2 ∧ left ≤ nanosPerSec ∧
      (left = nanosPerSec ↔ total.nanos + a.2 = nanosPerSec) := by
    by_cases hcarry : nanosPerSec < total.nanos + a.2
    · simp only [carried, left, if_pos hcarry]
      simp only [nanosPerSec] at hcarry ⊢
      omega
    · simp only [carried, left, if_neg hcarry, and_true]
      simp only [nanosPerSec] at hcarry ⊢
      omega
  obtain ⟨hwhole, hle, hsecond⟩ := hleft
  refine ⟨a.1 + carried, left, ?_, hle, hsecond, ?_⟩
  · rw [Nat.add_mul, Nat.add_assoc, hwhole, Amount.toNanos]
    omega
  · have hnanos := word_of_lt h
    -- a carry that fits no word makes a total that fits none
    by_cases htotal : total.secs + (a.1 + carried) < wordBound
    · rw [if_pos htotal]
      have hsecs : word (a.1 + carried) = .ok (a.1 + carried) := word_of_lt (by omega)
      have hall := word_of_lt htotal
      simp only [carried] at hsecs hall
      simp only [add, hnanos, hsecs, hall, carried, left]
      cases ofParts? _ _ <;> rfl
    · rw [if_neg htotal]
      have hall := word_of_not_lt htotal
      by_cases hless : a.1 + carried < wordBound
      · have hsecs := word_of_lt hless
        simp only [carried] at hsecs hall
        simp only [add, hnanos, hsecs, hall]
      · have hsecs := word_of_not_lt hless
        simp only [carried] at hsecs
        simp only [add, hnanos, hsecs]

/-- **What an addition comes to**: the exact sum, where it is a duration and the nanoseconds fit a word
before they are carried; an overflow, where the amount overruns the total; and a fault otherwise. -/
theorem add_cases (total : Duration) (a : Amount) :
    (total.nanos + a.2 < wordBound ∧
      ∃ d, add total a.1 a.2 = .ok d ∧ d.toNanos = total.toNanos + a.toNanos) ∨
    (Overruns total a ∧ add total a.1 a.2 = .error .overflow) ∨
    ((wordBound ≤ total.nanos + a.2 ∨
        wordBound * nanosPerSec ≤ total.toNanos + a.toNanos ∧ ¬Overruns total a) ∧
      add total a.1 a.2 = .error .malformed) := by
  -- The seconds count the carry too: they fit a word, or the sum is too long in any case.
  by_cases hn : total.nanos + a.2 < wordBound
  · obtain ⟨secs, nanos, hsum, hle, hsecond, hadd⟩ := exists_carried hn
    have htotal : total.toNanos = total.secs * nanosPerSec + total.nanos := rfl
    by_cases hsecs : total.secs + secs < wordBound
    · rw [if_pos hsecs] at hadd
      cases hparts : ofParts? (total.secs + secs) nanos with
      | some d =>
        rw [hparts] at hadd
        have hd := toNanos_of_ofParts? hparts
        refine Or.inl ⟨hn, d, hadd, ?_⟩
        simp only [nanosPerSec] at hd hsum htotal
        omega
      | none =>
        rw [hparts] at hadd
        have hout := (ofParts?_eq_none_iff _ _).mp hparts
        refine Or.inr (Or.inl ⟨⟨?_, ?_⟩, hadd⟩)
        · simp only [nanosPerSec, wordBound] at hout hsum htotal hle hsecs ⊢
          omega
        · apply hsecond.mp
          simp only [nanosPerSec, wordBound] at hout hle hsecs ⊢
          omega
    · rw [if_neg hsecs] at hadd
      refine Or.inr (Or.inr ⟨Or.inr ⟨?_, ?_⟩, hadd⟩)
      · simp only [nanosPerSec, wordBound] at hsum htotal hsecs ⊢
        omega
      · rintro ⟨hexact, hsame⟩
        have hnanos := hsecond.mpr hsame
        simp only [nanosPerSec, wordBound] at hexact hnanos hsum htotal hsecs
        omega
  · refine Or.inr (Or.inr ⟨Or.inl (Nat.le_of_not_lt hn), ?_⟩)
    simp only [add, word_of_not_lt hn]

theorem toNanos_lt (d : Duration) : d.toNanos < wordBound * nanosPerSec := by
  have hsecs := d.secs_lt
  have hnanos := d.nanos_lt
  simp only [toNanos, wordBound, nanosPerSec] at hsecs hnanos ⊢
  omega

/-- **The only addition that leaves the range of durations unnoticed.** -/
theorem add_eq_overflow_iff {total : Duration} {a : Amount} :
    add total a.1 a.2 = .error .overflow ↔ Overruns total a := by
  rcases add_cases total a with ⟨-, d, hadd, hd⟩ | ⟨hover, hadd⟩ | ⟨hout, hadd⟩
  · rw [hadd]
    have hlt := d.toNanos_lt
    constructor
    · rintro ⟨⟩
    · -- a duration is shorter than the sum would be
      rintro ⟨hsum, -⟩
      omega
  · exact ⟨fun _ => hover, fun _ => hadd⟩
  · rw [hadd]
    constructor
    · rintro ⟨⟩
    · intro hover
      rcases hout with hnanos | ⟨-, hnot⟩
      · have hsecond := hover.2
        simp only [wordBound, nanosPerSec] at hnanos hsecond
        omega
      · exact absurd hover hnot

end QualityGate.Duration
