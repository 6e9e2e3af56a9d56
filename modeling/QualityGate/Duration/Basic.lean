/-!
Lengths of time: whole seconds that fit 64 bits and less than a second of nanoseconds. `toNanos` is
the exact length, and `ofParts?` builds a duration from seconds and any number of nanoseconds, which
it carries; it fails exactly when the sum does not fit (`ofParts?_eq_none_iff`).
-/

namespace QualityGate

/-! ### The type -/

/-- The first number that no 64-bit word holds. -/
def wordBound : Nat := 18446744073709551616

/-- Nanoseconds in a second. -/
def nanosPerSec : Nat := 1000000000

/-- **A length of time**, exact to the nanosecond. -/
structure Duration where
  /-- Whole seconds. -/
  secs : Nat
  /-- The rest, in nanoseconds. -/
  nanos : Nat
  /-- Seconds fit 64 bits. -/
  secs_lt : secs < wordBound
  /-- The rest is less than a second. -/
  nanos_lt : nanos < nanosPerSec
  deriving DecidableEq

namespace Duration

instance : Repr Duration where
  reprPrec d _ := s!"{d.secs}s+{d.nanos}ns"

/-- No time at all. -/
def zero : Duration := ⟨0, 0, by decide, by decide⟩

instance : Inhabited Duration := ⟨zero⟩

/-! ### The exact length -/

/-- The length in nanoseconds. -/
def toNanos (d : Duration) : Nat :=
  d.secs * nanosPerSec + d.nanos

/-- A duration is determined by its length. -/
theorem toNanos_inj {a b : Duration} : a.toNanos = b.toNanos ↔ a = b := by
  constructor
  · intro h
    obtain ⟨s, n, hs, hn⟩ := a
    obtain ⟨t, m, ht, hm⟩ := b
    simp only [toNanos, nanosPerSec] at h hn hm
    have hsec : s = t := by omega
    have hnan : n = m := by omega
    subst hsec hnan
    rfl
  · rintro rfl; rfl

/-! ### Building from parts -/

/-- **A duration from seconds and nanoseconds**, whole seconds among the nanoseconds carried over. -/
def ofParts? (secs nanos : Nat) : Option Duration :=
  if h : secs + nanos / nanosPerSec < wordBound then
    some ⟨secs + nanos / nanosPerSec, nanos % nanosPerSec, h, Nat.mod_lt _ (by decide)⟩
  else none

/-- What is built has the length of its parts. -/
theorem toNanos_of_ofParts? {s n : Nat} {d : Duration} (h : ofParts? s n = some d) :
    d.toNanos = s * nanosPerSec + n := by
  unfold ofParts? at h
  split at h
  · cases h
    simp only [toNanos, nanosPerSec]
    omega
  · exact absurd h (by simp)

/-- **Building fails exactly when the seconds do not fit after the carry.** -/
theorem ofParts?_eq_none_iff (s n : Nat) :
    ofParts? s n = none ↔ wordBound * nanosPerSec ≤ s * nanosPerSec + n := by
  unfold ofParts?
  split <;> rename_i h <;> simp only [wordBound, nanosPerSec] at h ⊢
  · simp only [reduceCtorEq, false_iff]; omega
  · simp only [true_iff]; omega

/-- A duration is rebuilt from its own parts. -/
theorem ofParts?_parts (d : Duration) : ofParts? d.secs d.nanos = some d := by
  obtain ⟨s, n, hs, hn⟩ := d
  have h0 : n / nanosPerSec = 0 := Nat.div_eq_of_lt hn
  have h1 : n % nanosPerSec = n := Nat.mod_eq_of_lt hn
  simp [ofParts?, h0, h1, hs]

/-- A number of milliseconds, when it fits. -/
def ofMillis? (ms : Nat) : Option Duration :=
  ofParts? 0 (ms * 1000000)

end Duration
end QualityGate
