import QualityGate.Duration.Basic
import QualityGate.Duration.TimeUnit
import QualityGate.Text.Blank
/-!
Durations as people write them: one or more items, each a number with an optional decimal fraction
and a unit, as in `1h 30m` or `2.5s`. Blanks may stand between items, between a number and its unit,
and inside a number. `read` adds the items from left to right; the bare `0` needs no unit.

Reading fails in two ways. A text is `malformed` when it does not follow the grammar, when a number
does not fit 64 bits, or when a fraction does not come out even. It is `overflow` when the sum is
one nanosecond-carry past the largest duration, which the running addition notices too late.
-/

namespace QualityGate.Duration

/-! ### Faults -/

/-- Why a text is no duration. -/
inductive Fault where
  /-- The text breaks the grammar or a number does not fit. -/
  | malformed
  /-- The carry of exactly one second leaves the range of durations. -/
  | overflow
  deriving DecidableEq, Repr

/-- The value of a decimal digit. -/
def digit? (c : Char) : Option Nat :=
  if '0' ≤ c ∧ c ≤ '9' then some (c.toNat - 48) else none

/-- A letter of a unit's name. -/
def isUnitLetter (c : Char) : Bool :=
  ('a' ≤ c ∧ c ≤ 'z') ∨ ('A' ≤ c ∧ c ≤ 'Z') ∨ c = 'µ'

/-- A number that fits a 64-bit word. -/
def word (n : Nat) : Except Fault Nat :=
  if n < wordBound then .ok n else .error .malformed

/-! ### One item -/

/-- A decimal fraction `num / den`, where `den` is a power of ten. -/
structure Fraction where
  num : Nat
  den : Nat
  deriving DecidableEq, Repr

/-- **One number with its unit.** -/
structure Item where
  whole : Nat
  fraction : Option Fraction
  unit : TimeUnit
  deriving DecidableEq, Repr

/-- The further digits of a whole number, blanks passed over; stops before a letter or a point. -/
def readWhole (n : Nat) : List Char → Except Fault (Nat × List Char)
  | [] => .ok (n, [])
  | c :: r =>
    match digit? c with
    | some d =>
      match word (n * 10 + d) with
      | .ok n => readWhole n r
      | .error e => .error e
    | none =>
      if Text.isBlank c then readWhole n r
      else if isUnitLetter c ∨ c = '.' then .ok (n, c :: r)
      else .error .malformed

/-- The digits after the point, blanks passed over; stops before a letter. -/
def readFraction (num den : Nat) : List Char → Except Fault (Fraction × List Char)
  | [] => .ok (⟨num, den⟩, [])
  | c :: r =>
    match digit? c with
    | some d =>
      match word (den * 10), word (num * 10 + d) with
      | .ok den, .ok num => readFraction num den r
      | _, _ => .error .malformed
    | none =>
      if Text.isBlank c then readFraction num den r
      else if isUnitLetter c then .ok (⟨num, den⟩, c :: r)
      else .error .malformed

/-- The name of a unit. It ends at a blank, at the digit that begins the next item, or with the
text. -/
def readUnit (s : List Char) : Except Fault (TimeUnit × List Char) :=
  let name := s.takeWhile isUnitLetter
  let rest := s.dropWhile isUnitLetter
  let unit : Except Fault TimeUnit :=
    match TimeUnit.ofName? name with
    | some u => .ok u
    | none => .error .malformed
  match rest with
  | [] => unit.map fun u => (u, [])
  | c :: r =>
    if (digit? c).isSome ∨ Text.isBlank c then unit.map fun u => (u, c :: r)
    else .error .malformed

/-- What follows the first digit of an item. -/
def readItem (first : Nat) (s : List Char) : Except Fault (Item × List Char) :=
  match readWhole first s with
  | .error e => .error e
  | .ok (whole, '.' :: r) =>
    match readFraction 0 1 r with
    | .error e => .error e
    | .ok (fraction, r) =>
      if fraction.den = 1 then .error .malformed
      else
        match readUnit r with
        | .error e => .error e
        | .ok (unit, r) => .ok (⟨whole, some fraction, unit⟩, r)
  | .ok (whole, r) =>
    match readUnit r with
    | .error e => .error e
    | .ok (unit, r) => .ok (⟨whole, none, unit⟩, r)

theorem length_of_readWhole {n : Nat} {s : List Char} {v : Nat × List Char}
    (h : readWhole n s = .ok v) : v.2.length ≤ s.length := by
  induction s generalizing n with
  | nil => simp only [readWhole, Except.ok.injEq] at h; subst h; simp
  | cons c r ih =>
    unfold readWhole at h
    split at h
    · split at h
      · exact Nat.le_succ_of_le (ih h)
      · simp at h
    · split at h
      · exact Nat.le_succ_of_le (ih h)
      · split at h
        · cases h; simp
        · simp at h

theorem length_of_readFraction {num den : Nat} {s : List Char} {v : Fraction × List Char}
    (h : readFraction num den s = .ok v) : v.2.length ≤ s.length := by
  induction s generalizing num den with
  | nil => simp only [readFraction, Except.ok.injEq] at h; subst h; simp
  | cons c r ih =>
    unfold readFraction at h
    split at h
    · split at h
      · exact Nat.le_succ_of_le (ih h)
      · simp at h
    · split at h
      · exact Nat.le_succ_of_le (ih h)
      · split at h
        · cases h; simp
        · simp at h

theorem length_of_readUnit {s : List Char} {v : TimeUnit × List Char}
    (h : readUnit s = .ok v) : v.2.length ≤ s.length := by
  have hd : (s.dropWhile isUnitLetter).length ≤ s.length := (List.dropWhile_sublist _).length_le
  unfold readUnit at h
  simp only at h
  split at h
  · rename_i hr
    revert h
    cases TimeUnit.ofName? (s.takeWhile isUnitLetter) <;> intro h <;> simp [Except.map] at h
    subst h; simp
  · rename_i c r hr
    split at h
    · revert h
      cases TimeUnit.ofName? (s.takeWhile isUnitLetter) <;> intro h <;> simp [Except.map] at h
      subst h
      simp only
      rw [← hr]; exact hd
    · simp at h

/-- An item leaves no more than it was given. -/
theorem length_of_readItem {n : Nat} {s : List Char} {v : Item × List Char}
    (h : readItem n s = .ok v) : v.2.length ≤ s.length := by
  unfold readItem at h
  split at h
  · simp at h
  · rename_i whole r hw
    have h1 := length_of_readWhole hw
    simp only [List.length_cons] at h1
    split at h
    · simp at h
    · rename_i f r2 hf
      have h2 := length_of_readFraction hf
      split at h
      · simp at h
      · split at h
        · simp at h
        · rename_i u r3 hu
          have h3 := length_of_readUnit hu
          cases h
          simp only at h2 h3 ⊢
          omega
  · rename_i whole r _ hw
    have h1 := length_of_readWhole hw
    split at h
    · simp at h
    · rename_i u r3 hu
      have h3 := length_of_readUnit hu
      cases h
      simp only at h1 h3 ⊢
      omega

/-! ### Adding items up -/

/-- A count of units as seconds and nanoseconds, each a 64-bit word. -/
def parts (n : Nat) : TimeUnit.Scale → Except Fault (Nat × Nat)
  | .nanos k => (word (n * k)).map fun x => (0, x)
  | .secs k => (word (n * k)).map fun x => (x, 0)

/-- A fraction of a unit, which has to come out even. -/
def fractionParts (f : Fraction) : TimeUnit.Scale → Except Fault (Nat × Nat)
  | .nanos k =>
    match word (f.num * k) with
    | .ok x => if x % f.den = 0 then .ok (0, x / f.den) else .error .malformed
    | .error e => .error e
  | .secs k =>
    match word (f.num * k) with
    | .ok x => if x % f.den = 0 then .ok (x / f.den, 0) else .error .malformed
    | .error e => .error e

/-- **Adds seconds and nanoseconds to a running total.** More than a second of nanoseconds is
carried in checked steps; a carry of exactly one second is left to the construction of the total,
where running out of range is an overflow. -/
def add (total : Duration) (secs nanos : Nat) : Except Fault Duration :=
  match word (total.nanos + nanos) with
  | .error e => .error e
  | .ok n =>
    let carry := if nanosPerSec < n then n / nanosPerSec else 0
    let n := if nanosPerSec < n then n % nanosPerSec else n
    match word (secs + carry) with
    | .error e => .error e
    | .ok s =>
      match word (total.secs + s) with
      | .error e => .error e
      | .ok s =>
        match ofParts? s n with
        | some d => .ok d
        | none => .error .overflow

/-- Adds the whole part of an item and then its fraction. -/
def addItem (total : Duration) (item : Item) : Except Fault Duration :=
  match parts item.whole item.unit.scale with
  | .error e => .error e
  | .ok p =>
    match add total p.1 p.2 with
    | .error e => .error e
    | .ok total =>
      match item.fraction with
      | none => .ok total
      | some f =>
        match item.unit.fractionScale? with
        | none => .error .malformed
        | some scale =>
          match fractionParts f scale with
          | .error e => .error e
          | .ok q => add total q.1 q.2

/-- The items of a text added to a running total; no item is left once only blanks are. -/
def readItems (total : Duration) (s : List Char) : Except Fault Duration :=
  match _hs : s.dropWhile Text.isBlank with
  | [] => .ok total
  | c :: r =>
    match digit? c with
    | none => .error .malformed
    | some d =>
      match _hi : readItem d r with
      | .error e => .error e
      | .ok (item, rest) =>
        match addItem total item with
        | .error e => .error e
        | .ok total => readItems total rest
termination_by s.length
decreasing_by
  have h1 : (s.dropWhile Text.isBlank).length ≤ s.length := (List.dropWhile_sublist _).length_le
  have h2 := length_of_readItem _hi
  rw [_hs] at h1
  simp only [List.length_cons] at h1 h2
  omega

/-- **The duration that a text writes.** -/
def read (s : String) : Except Fault Duration :=
  if s = "0" then .ok zero
  else if Text.isBlankText s then .error .malformed
  else readItems zero s.toList

end QualityGate.Duration
