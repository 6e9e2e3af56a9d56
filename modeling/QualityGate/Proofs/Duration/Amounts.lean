import Mathlib.Data.List.TakeWhile
import QualityGate.Proofs.Duration.Addition
/-!
## A duration as a sum of amounts

Reading a text finds numbers with units and adds them up as it goes. Here the two are taken apart:
`amounts` are the seconds and nanoseconds that the items of a text stand for, up to the place where it
stops being a list of items, and `sumFrom` adds them to a total. `readItems_eq_sumFrom` puts them
together again.

* `toNanos_of_sumFrom`: a sum is exact.
* `overflow_not_mem_amounts`: what is wrong with a text apart from its sum is a fault of the grammar.
* `read_eq_overflow_iff`: reading overflows exactly if some first amounts of the text can be added and
  the next one overruns their sum (`Overflows`).
-/

namespace QualityGate.Duration

/-! ### The amounts that a text stands for -/

/-- **The amounts of an item**: its whole part and then its fraction, if it has one. -/
def Item.amounts (item : Item) : List (Except Fault Amount) :=
  parts item.whole item.unit.scale ::
    match item.fraction with
    | none => []
    | some f =>
      match item.unit.fractionScale? with
      | none => [.error .malformed]
      | some scale => [fractionParts f scale]

/-- **The amounts of a text**, in their order. Where the text stops being a list of items, a fault ends
them. -/
def amounts (s : List Char) : List (Except Fault Amount) :=
  match _hs : s.dropWhile Text.isBlank with
  | [] => []
  | c :: r =>
    match digit? c with
    | none => [.error .malformed]
    | some d =>
      match _hi : readItem d r with
      | .error e => [.error e]
      | .ok (item, rest) => item.amounts ++ amounts rest
termination_by s.length
decreasing_by
  have h1 : (s.dropWhile Text.isBlank).length ≤ s.length := (List.dropWhile_sublist _).length_le
  have h2 := length_of_readItem _hi
  rw [_hs] at h1
  simp only [List.length_cons] at h1 h2
  omega

theorem amounts_of_blank {s : List Char} (h : s.dropWhile Text.isBlank = []) : amounts s = [] := by
  rw [amounts]
  split
  · rfl
  · rename_i hs
    rw [h] at hs
    cases hs

theorem amounts_cons {s : List Char} {c : Char} {r : List Char}
    (h : s.dropWhile Text.isBlank = c :: r) :
    amounts s =
      match digit? c with
      | none => [.error .malformed]
      | some d =>
        match readItem d r with
        | .error e => [.error e]
        | .ok (item, rest) => item.amounts ++ amounts rest := by
  rw [amounts]
  -- the reader matches on the text without its blanks, together with what it is equal to
  split
  · rename_i hs
    rw [h] at hs
    cases hs
  · rename_i hs
    rw [h] at hs
    cases hs
    cases digit? c with
    | none => rfl
    | some d =>
      dsimp only
      split
      · rename_i hi
        rw [hi]
      · rename_i hi
        rw [hi]

/-- Blanks before an item mean nothing. -/
theorem amounts_cons_of_isBlank {c : Char} (h : Text.isBlank c = true) (s : List Char) :
    amounts (c :: s) = amounts s := by
  have hdrop : (c :: s).dropWhile Text.isBlank = s.dropWhile Text.isBlank :=
    List.dropWhile_cons_of_pos h
  cases hs : s.dropWhile Text.isBlank with
  | nil => rw [amounts_of_blank hs, amounts_of_blank (hdrop.trans hs)]
  | cons first rest => rw [amounts_cons hs, amounts_cons (hdrop.trans hs)]

/-- **Adds amounts to a total**, up to the first fault. -/
def sumFrom (total : Duration) : List (Except Fault Amount) → Except Fault Duration
  | [] => .ok total
  | .error e :: _ => .error e
  | .ok a :: rest =>
    match add total a.1 a.2 with
    | .error e => .error e
    | .ok total => sumFrom total rest

theorem sumFrom_append (total : Duration) (front back : List (Except Fault Amount)) :
    sumFrom total (front ++ back) =
      match sumFrom total front with
      | .error e => .error e
      | .ok total => sumFrom total back := by
  induction front generalizing total with
  | nil => rfl
  | cons first front ih =>
    cases first with
    | error e => rfl
    | ok a =>
      rw [List.cons_append, sumFrom, sumFrom]
      cases add total a.1 a.2 with
      | error e => rfl
      | ok total => exact ih total

/-- Adding an item is adding its amounts. -/
theorem addItem_eq_sumFrom (total : Duration) (item : Item) :
    addItem total item = sumFrom total item.amounts := by
  rw [addItem, Item.amounts]
  cases parts item.whole item.unit.scale with
  | error e => rfl
  | ok p =>
    rw [sumFrom]
    dsimp only
    cases add total p.1 p.2 with
    | error e => rfl
    | ok total =>
      dsimp only
      cases item.fraction with
      | none => rfl
      | some f =>
        dsimp only
        cases item.unit.fractionScale? with
        | none => rfl
        | some scale =>
          dsimp only
          cases fractionParts f scale with
          | error e => rfl
          | ok q =>
            rw [sumFrom]
            dsimp only
            cases add total q.1 q.2 <;> rfl

/-- **Reading a text is adding its amounts.** -/
theorem readItems_eq_sumFrom (total : Duration) (s : List Char) :
    readItems total s = sumFrom total (amounts s) := by
  fun_induction readItems total s with
  | case1 total s hblank => rw [amounts_of_blank hblank, sumFrom]
  | case2 total s c r hs hd => rw [amounts_cons hs, hd]; rfl
  | case3 total s c r hs d hd e hi =>
    rw [amounts_cons hs, hd]
    dsimp only
    rw [hi, sumFrom]
  -- the item is read, but one of its amounts cannot be added
  | case4 total s c r hs d hd item rest hi e hadd =>
    rw [amounts_cons hs, hd]
    dsimp only
    rw [hi]
    dsimp only
    rw [sumFrom_append, ← addItem_eq_sumFrom, hadd]
  | case5 total s c r hs d hd item rest hi total' hadd ih =>
    rw [amounts_cons hs, hd]
    dsimp only
    rw [hi]
    dsimp only
    rw [sumFrom_append, ← addItem_eq_sumFrom, hadd]
    exact ih

/-! ### Sums -/

/-- The length of some amounts; a fault has none. -/
def lengthOf : List (Except Fault Amount) → Nat
  | [] => 0
  | .ok a :: l => a.toNanos + lengthOf l
  | .error _ :: l => lengthOf l

theorem lengthOf_append (l m : List (Except Fault Amount)) :
    lengthOf (l ++ m) = lengthOf l + lengthOf m := by
  induction l with
  | nil => exact (Nat.zero_add _).symm
  | cons first l ih =>
    cases first with
    | error e => exact ih
    | ok a => rw [List.cons_append, lengthOf, lengthOf, ih, Nat.add_assoc]

/-- **A sum is exact.** -/
theorem toNanos_of_sumFrom {l : List (Except Fault Amount)} {total d : Duration}
    (h : sumFrom total l = .ok d) : d.toNanos = total.toNanos + lengthOf l := by
  induction l generalizing total with
  | nil =>
    cases h
    rw [lengthOf, Nat.add_zero]
  | cons first l ih =>
    cases first with
    | error e => cases h
    | ok a =>
      rw [sumFrom] at h
      rcases add_cases total a with ⟨-, mid, hadd, hmid⟩ | ⟨-, hadd⟩ | ⟨-, hadd⟩
      · rw [hadd] at h
        have hrest := ih h
        rw [hrest, hmid, lengthOf, Nat.add_assoc]
      · -- the two faults end the sum
        rw [hadd] at h
        cases h
      · rw [hadd] at h
        cases h

/-- **A sum overflows where an amount overruns the total so far**, if no fault before it is one. -/
theorem sumFrom_eq_overflow_iff {l : List (Except Fault Amount)} (hl : .error .overflow ∉ l)
    (total : Duration) :
    sumFrom total l = .error .overflow ↔
      ∃ front a back mid, l = front ++ .ok a :: back ∧ sumFrom total front = .ok mid ∧
        Overruns mid a := by
  -- The total changes with each amount, so the induction is for all totals.
  induction l generalizing total with
  | nil => simp [sumFrom]
  | cons first l ih =>
    rw [List.mem_cons, not_or] at hl
    cases first with
    | error e =>
      have he : e ≠ .overflow := fun h => hl.1 (h ▸ rfl)
      constructor
      · intro h
        cases h
        exact absurd rfl he
      · rintro ⟨front, a, back, mid, hsame, hfront, -⟩
        cases front with
        | nil => cases hsame
        | cons b front =>
          cases hsame
          cases hfront
    | ok b =>
      rw [sumFrom]
      constructor
      · intro h
        cases hadd : add total b.1 b.2 with
        | error e =>
          rw [hadd] at h
          cases h
          exact ⟨[], b, l, total, rfl, rfl, add_eq_overflow_iff.mp hadd⟩
        | ok next =>
          rw [hadd] at h
          obtain ⟨front, a, back, mid, rfl, hfront, hover⟩ := (ih hl.2 next).mp h
          exact ⟨.ok b :: front, a, back, mid, rfl, by rw [sumFrom, hadd]; exact hfront, hover⟩
      · rintro ⟨front, a, back, mid, hsame, hfront, hover⟩
        cases front with
        | nil =>
          cases hsame
          cases hfront
          rw [add_eq_overflow_iff.mpr hover]
        | cons c front =>
          cases hsame
          rw [sumFrom] at hfront
          cases hadd : add total b.1 b.2 with
          | error e =>
            rw [hadd] at hfront
            cases hfront
          | ok next =>
            rw [hadd] at hfront
            exact (ih hl.2 next).mpr ⟨front, a, back, mid, rfl, hfront, hover⟩

/-! ### Faults of the grammar -/

theorem error_of_word {n : Nat} {e : Fault} (h : word n = .error e) : e = .malformed := by
  unfold word at h
  split at h
  · cases h
  · cases h
    rfl

theorem error_of_readWhole {n : Nat} {s : List Char} {e : Fault} (h : readWhole n s = .error e) :
    e = .malformed := by
  induction s generalizing n with
  | nil => cases h
  | cons c r ih =>
    rw [readWhole] at h
    split at h
    · split at h
      · exact ih h
      · rename_i hword
        cases h
        exact error_of_word hword
    · split at h
      · exact ih h
      · split at h <;> cases h
        rfl

theorem error_of_readFraction {num den : Nat} {s : List Char} {e : Fault}
    (h : readFraction num den s = .error e) : e = .malformed := by
  induction s generalizing num den with
  | nil => cases h
  | cons c r ih =>
    rw [readFraction] at h
    split at h
    · split at h
      · exact ih h
      · cases h
        rfl
    · split at h
      · exact ih h
      · split at h <;> cases h
        rfl

theorem error_of_readUnit {s : List Char} {e : Fault} (h : readUnit s = .error e) :
    e = .malformed := by
  unfold readUnit at h
  simp only at h
  cases hunit : TimeUnit.ofName? (s.takeWhile isUnitLetter) with
  | none =>
    rw [hunit] at h
    split at h
    · cases h
      rfl
    · split at h <;> cases h <;> rfl
  | some u =>
    rw [hunit] at h
    split at h
    · cases h
    · split at h <;> cases h
      rfl

theorem error_of_readItem {n : Nat} {s : List Char} {e : Fault} (h : readItem n s = .error e) :
    e = .malformed := by
  unfold readItem at h
  split at h
  · rename_i hwhole
    cases h
    exact error_of_readWhole hwhole
  · split at h
    · rename_i hfraction
      cases h
      exact error_of_readFraction hfraction
    · split at h
      · cases h
        rfl
      · split at h
        · rename_i hunit
          cases h
          exact error_of_readUnit hunit
        · cases h
  · split at h
    · rename_i hunit
      cases h
      exact error_of_readUnit hunit
    · cases h

theorem error_of_map {α β : Type} {x : Except Fault α} {f : α → β} {e : Fault}
    (h : x.map f = .error e) : x = .error e := by
  cases x with
  | error e' =>
    cases h
    rfl
  | ok a => cases h

theorem error_of_parts {n : Nat} {scale : TimeUnit.Scale} {e : Fault} (h : parts n scale = .error e) :
    e = .malformed := by
  cases scale with
  | nanos k => exact error_of_word (error_of_map h)
  | secs k => exact error_of_word (error_of_map h)

theorem error_of_fractionParts {f : Fraction} {scale : TimeUnit.Scale} {e : Fault}
    (h : fractionParts f scale = .error e) : e = .malformed := by
  unfold fractionParts at h
  split at h
  all_goals
    split at h
    · split at h
      · cases h
      · cases h
        rfl
    · rename_i hword
      cases h
      exact error_of_word hword

/-- No item has an overflow among its amounts. -/
theorem Item.overflow_not_mem_amounts (item : Item) : .error .overflow ∉ item.amounts := by
  rw [Item.amounts, List.mem_cons, not_or]
  constructor
  · intro h
    cases error_of_parts h.symm
  · split
    · exact List.not_mem_nil
    · split
      · simp
      · rw [List.mem_singleton]
        intro h
        cases error_of_fractionParts h.symm

/-- **What is wrong with a text apart from its sum is a fault of the grammar.** -/
theorem overflow_not_mem_amounts (s : List Char) : .error .overflow ∉ amounts s := by
  fun_induction amounts s with
  | case1 s hs => exact List.not_mem_nil
  | case2 s c r hs hd => simp
  | case3 s c r hs d hd e hi =>
    rw [List.mem_singleton]
    rintro ⟨⟩
    cases error_of_readItem hi
  | case4 s c r hs d hd item rest hi ih =>
    rw [List.mem_append, not_or]
    exact ⟨item.overflow_not_mem_amounts, ih⟩

/-! ### Texts that overflow -/

/-- **A text overflows** if some first amounts of it can be added, and the next one makes them a
nanosecond longer than the longest duration, by nanoseconds that make a whole second. -/
def Overflows (text : String) : Prop :=
  ∃ front a back total, amounts text.toList = front ++ .ok a :: back ∧
    sumFrom zero front = .ok total ∧
    lengthOf (front ++ [.ok a]) = wordBound * nanosPerSec ∧ total.nanos + a.2 = nanosPerSec

theorem amounts_of_isBlankText {text : String} (h : Text.isBlankText text = true) :
    amounts text.toList = [] :=
  amounts_of_blank (List.dropWhile_eq_nil_iff.mpr (List.all_eq_true.mp h))

/-- **Reading overflows exactly on the texts that do.** -/
theorem read_eq_overflow_iff (text : String) : read text = .error .overflow ↔ Overflows text := by
  -- Two kinds of text are not read item by item, the bare zero and the blank ones; neither has a sum.
  have hread : read text = .error .overflow ↔
      sumFrom zero (amounts text.toList) = .error .overflow := by
    rw [read]
    split
    · rename_i hzero
      have hamounts : amounts "0".toList = [.error .malformed] := by
        rw [amounts_cons (show "0".toList.dropWhile Text.isBlank = '0' :: [] by decide)]
        rfl
      rw [hzero, hamounts, sumFrom]
      constructor <;> rintro ⟨⟩
    · split
      · rename_i hblank
        rw [amounts_of_isBlankText hblank, sumFrom]
        constructor <;> rintro ⟨⟩
      · rw [readItems_eq_sumFrom]
  rw [hread, sumFrom_eq_overflow_iff (overflow_not_mem_amounts _)]
  have hlength {front : List (Except Fault Amount)} {a : Amount} {total : Duration}
      (h : sumFrom zero front = .ok total) :
      lengthOf (front ++ [.ok a]) = total.toNanos + a.toNanos := by
    have hfront := toNanos_of_sumFrom h
    have hzero : zero.toNanos = 0 := by decide
    rw [lengthOf_append, lengthOf, lengthOf, Nat.add_zero, hfront, hzero, Nat.zero_add]
  constructor
  · rintro ⟨front, a, back, total, hsame, hfront, hsum, hsecond⟩
    exact ⟨front, a, back, total, hsame, hfront, (hlength hfront).trans hsum, hsecond⟩
  · rintro ⟨front, a, back, total, hsame, hfront, hsum, hsecond⟩
    exact ⟨front, a, back, total, hsame, hfront, (hlength hfront).symm.trans hsum, hsecond⟩

end QualityGate.Duration
