import Mathlib.Data.List.Basic
import QualityGate.Duration.Printer
import QualityGate.Proofs.Duration.Amounts
/-!
## Reading what was printed

`print` breaks a duration into items over nine units, the largest first, and `read` adds up what the
items of a text stand for, in checked steps. The first is undone by the second.

* `writes_item`: a number before the name of a unit is read as one amount, whatever stands after it.
* `Spells`: a list of items is as long as its amounts together. Lists of items are put together
  (`Spells.append`), and a list that spells a length is added to any total with room for it
  (`exists_sumFrom_of_spells`).
* `spells_items`: the items of a duration spell it.
* `read_print`: **what is printed is read back**, for every duration.
-/

namespace QualityGate

/-! ### Units -/

/-- **A count fits a unit**: it is less than a second of nanoseconds, or its seconds fit a word. -/
def TimeUnit.Scale.Fits : Scale → Nat → Prop
  | nanos each, n => n * each < nanosPerSec
  | secs each, n => n * each < wordBound

namespace Duration

theorem exists_parts_of_fits {scale : TimeUnit.Scale} {n : Nat} (h : scale.Fits n) :
    ∃ a : Amount, parts n scale = .ok a ∧ a.2 < nanosPerSec ∧ a.toNanos = n * scale.toNanos := by
  cases scale with
  | nanos each =>
    have hbound : nanosPerSec ≤ wordBound := by decide
    have hword := word_of_lt (Nat.lt_of_lt_of_le h hbound)
    refine ⟨(0, n * each), ?_, h, ?_⟩
    · rw [parts, hword]
      rfl
    · rw [Amount.toNanos, Nat.zero_mul, Nat.zero_add, TimeUnit.Scale.toNanos]
  | secs each =>
    refine ⟨(n * each, 0), ?_, ?_, ?_⟩
    · rw [parts, word_of_lt h]
      rfl
    · show 0 < nanosPerSec
      decide
    · rw [Amount.toNanos, Nat.add_zero, TimeUnit.Scale.toNanos, Nat.mul_assoc]
      rfl

/-- A count that fits a unit fits a word. -/
theorem lt_wordBound_of_fits {u : TimeUnit} {n : Nat} (h : u.scale.Fits n) : n < wordBound := by
  cases u
  all_goals
    simp only [TimeUnit.scale, TimeUnit.Scale.Fits, nanosPerSec, wordBound] at h ⊢
    omega

/-- The name of a unit is a word of letters. -/
theorem isUnitLetter_of_ofName? {name : List Char} {u : TimeUnit}
    (h : TimeUnit.ofName? name = some u) : name ≠ [] ∧ ∀ c ∈ name, isUnitLetter c = true := by
  have hall : ∀ entry ∈ TimeUnit.spellings, ∀ s ∈ entry.2,
      s.toList ≠ [] ∧ ∀ c ∈ s.toList, isUnitLetter c = true := by
    simp [TimeUnit.spellings, isUnitLetter]
  obtain ⟨entry, hfound, -⟩ := Option.map_eq_some_iff.mp h
  have hany := List.find?_some hfound
  obtain ⟨s, hs, hname⟩ := List.any_eq_true.mp hany
  rw [← of_decide_eq_true hname]
  exact hall entry (List.mem_of_find?_eq_some hfound) s hs

/-- The code of a letter of a unit's name. -/
theorem toNat_of_isUnitLetter {c : Char} (h : isUnitLetter c = true) :
    97 ≤ c.toNat ∧ c.toNat ≤ 122 ∨ 65 ≤ c.toNat ∧ c.toNat ≤ 90 ∨ c.toNat = 181 := by
  simp only [isUnitLetter, decide_eq_true_eq] at h
  rcases h with hlower | hupper | hmicro
  · exact Or.inl hlower
  · exact Or.inr (Or.inl hupper)
  · exact Or.inr (Or.inr (congrArg Char.toNat hmicro))

theorem digit?_of_isUnitLetter {c : Char} (h : isUnitLetter c = true) : digit? c = none := by
  have hcode := toNat_of_isUnitLetter h
  apply if_neg
  rintro ⟨-, hhigh⟩
  have hdigit : c.toNat ≤ 57 := hhigh
  omega

theorem isBlank_of_isUnitLetter {c : Char} (h : isUnitLetter c = true) :
    Text.isBlank c = false := by
  have hcode := toNat_of_isUnitLetter h
  simp only [Text.isBlank, Text.blankRanges, List.any_eq_false, List.forall_mem_cons,
    Bool.and_eq_true, decide_eq_true_eq]
  refine ⟨?_, ?_, ?_, ?_, ?_, ?_, ?_, ?_, ?_, ?_, by simp⟩ <;> omega

theorem ne_point_of_isUnitLetter {c : Char} (h : isUnitLetter c = true) : c ≠ '.' := by
  rintro rfl
  exact absurd h (by decide)

/-! ### Numbers -/

theorem digit?_of_isDigit {c : Char} (h : c.isDigit = true) :
    digit? c = some (c.toNat - '0'.toNat) := by
  simp only [Char.isDigit, Bool.and_eq_true, decide_eq_true_eq] at h
  exact if_pos h

theorem le_ofDigitChars (digits : List Char) (n : Nat) : n ≤ Nat.ofDigitChars 10 digits n := by
  induction digits generalizing n with
  | nil => exact Nat.le_refl n
  | cons c r ih =>
    rw [Nat.ofDigitChars_cons]
    have hrest := ih (10 * n + (c.toNat - '0'.toNat))
    omega

/-- **Digits are read as their number**, if it fits a word. -/
theorem readWhole_digits {digits : List Char} (hdigits : ∀ c ∈ digits, c.isDigit = true) {n : Nat}
    (hn : Nat.ofDigitChars 10 digits n < wordBound) (rest : List Char) :
    readWhole n (digits ++ rest) = readWhole (Nat.ofDigitChars 10 digits n) rest := by
  induction digits generalizing n with
  | nil => rfl
  | cons c r ih =>
    obtain ⟨hc, hr⟩ := List.forall_mem_cons.mp hdigits
    rw [Nat.ofDigitChars_cons, Nat.mul_comm 10 n] at hn ⊢
    -- The number so far is no greater than the whole number.
    have hword := word_of_lt (Nat.lt_of_le_of_lt (le_ofDigitChars r _) hn)
    rw [List.cons_append, readWhole, digit?_of_isDigit hc]
    dsimp only
    rw [hword]
    exact ih hr hn

/-- A written number, read from its first digit on. -/
theorem exists_digits_toString {n : Nat} (hn : n < wordBound) :
    ∃ c d r, (toString n).toList = c :: r ∧ digit? c = some d ∧ Text.isBlank c = false ∧
      ∀ rest, readWhole d (r ++ rest) = readWhole n rest := by
  have htext : (toString n).toList = Nat.toDigits 10 n := by
    rw [Nat.toString_eq_repr, Nat.toList_repr]
  have hdigits : ∀ c ∈ Nat.toDigits 10 n, c.isDigit = true := fun c hc =>
    Nat.isDigit_of_mem_toDigits (by decide) (by decide) hc
  have hvalue : Nat.ofDigitChars 10 (Nat.toDigits 10 n) 0 = n := Nat.ofDigitChars_ten_toDigits
  obtain ⟨c, r, hsplit⟩ := List.exists_cons_of_ne_nil (Nat.toDigits_ne_nil (n := n) (b := 10))
  rw [hsplit] at htext hdigits hvalue
  rw [Nat.ofDigitChars_cons, Nat.mul_zero, Nat.zero_add] at hvalue
  obtain ⟨hc, hr⟩ := List.forall_mem_cons.mp hdigits
  refine ⟨c, c.toNat - '0'.toNat, r, htext, digit?_of_isDigit hc, Text.isBlank_of_isDigit hc, ?_⟩
  intro rest
  have hread := readWhole_digits hr (hvalue.symm ▸ hn) rest
  rw [hread, hvalue]

/-! ### One item -/

/-- What may stand after an item: nothing, or a blank. -/
def Parted (rest : List Char) : Prop :=
  rest = [] ∨ ∃ c r, rest = c :: r ∧ Text.isBlank c = true

/-- What ends the name of a unit: nothing more, a blank, or the digit that begins the next item. -/
def EndsName (rest : List Char) : Prop :=
  rest = [] ∨ ∃ c r, rest = c :: r ∧ ((digit? c).isSome = true ∨ Text.isBlank c = true)

theorem Parted.endsName {rest : List Char} (h : Parted rest) : EndsName rest := by
  rcases h with rfl | ⟨c, r, rfl, hblank⟩
  · exact Or.inl rfl
  · exact Or.inr ⟨c, r, rfl, Or.inr hblank⟩

theorem readUnit_name {name rest : List Char} {u : TimeUnit} (hname : TimeUnit.ofName? name = some u)
    (hrest : EndsName rest) : readUnit (name ++ rest) = .ok (u, rest) := by
  have hletters := (isUnitLetter_of_ofName? hname).2
  have hstop : rest.takeWhile isUnitLetter = [] ∧ rest.dropWhile isUnitLetter = rest := by
    rcases hrest with rfl | ⟨c, r, rfl, hends⟩
    · exact ⟨rfl, rfl⟩
    · -- neither a digit nor a blank is a letter of a unit
      have hc : ¬isUnitLetter c = true := by
        intro hletter
        rw [isBlank_of_isUnitLetter hletter, digit?_of_isUnitLetter hletter] at hends
        simp at hends
      exact ⟨List.takeWhile_cons_of_neg hc, List.dropWhile_cons_of_neg hc⟩
  have htake : (name ++ rest).takeWhile isUnitLetter = name := by
    rw [List.takeWhile_append_of_pos hletters, hstop.1, List.append_nil]
  have hdrop : (name ++ rest).dropWhile isUnitLetter = rest := by
    rw [List.dropWhile_append_of_pos hletters, hstop.2]
  unfold readUnit
  simp only [htake, hdrop, hname]
  rcases hrest with rfl | ⟨c, r, rfl, hends⟩
  · rfl
  · simp only [hends, ↓reduceIte]
    rfl

/-- **A number before the name of a unit is read as one item**, which its first digit begins. -/
theorem exists_readItem {n : Nat} {name : String} {u : TimeUnit} {rest : List Char}
    (hname : TimeUnit.ofName? name.toList = some u) (hn : n < wordBound) (hrest : Parted rest) :
    ∃ c d s, (toString n ++ name).toList ++ rest = c :: s ∧ digit? c = some d ∧
      Text.isBlank c = false ∧ readItem d s = .ok (⟨n, none, u⟩, rest) := by
  obtain ⟨c, d, r, htext, hd, hblank, hwhole⟩ := exists_digits_toString hn
  have hunit := readUnit_name hname hrest.endsName
  obtain ⟨hne, hletters⟩ := isUnitLetter_of_ofName? hname
  obtain ⟨l, letters, hsplit⟩ := List.exists_cons_of_ne_nil hne
  rw [hsplit] at hletters hunit
  -- The first letter of the name ends the number, and it is no point.
  have hl := hletters l List.mem_cons_self
  have hread : readWhole d (r ++ (l :: letters ++ rest)) = .ok (n, l :: (letters ++ rest)) := by
    rw [hwhole, List.cons_append, readWhole, digit?_of_isUnitLetter hl]
    simp only [isBlank_of_isUnitLetter hl, hl, true_or, Bool.false_eq_true, ↓reduceIte]
  refine ⟨c, d, r ++ (l :: letters ++ rest), ?_, hd, hblank, ?_⟩
  · rw [String.toList_append, htext, hsplit, List.append_assoc, List.cons_append]
  · unfold readItem
    rw [hread]
    split
    · rename_i herror
      cases herror
    · rename_i hpoint
      cases hpoint
      exact absurd rfl (ne_point_of_isUnitLetter hl)
    · rename_i hletter
      cases hletter
      rw [← List.cons_append, hunit]

/-- **A text writes an amount** if it is read as that amount, whatever stands after it. -/
def Writes (text : String) (a : Amount) : Prop :=
  ∀ rest, Parted rest → amounts (text.toList ++ rest) = .ok a :: amounts rest

/-- **A number before the name of a unit writes so many of it.** -/
theorem writes_item {n : Nat} {name : String} {u : TimeUnit} {a : Amount}
    (hname : TimeUnit.ofName? name.toList = some u) (hn : n < wordBound)
    (ha : parts n u.scale = .ok a) : Writes (toString n ++ name) a := by
  intro rest hrest
  obtain ⟨c, d, s, htext, hd, hblank, hitem⟩ := exists_readItem hname hn hrest
  have hfirst : (c :: s).dropWhile Text.isBlank = c :: s :=
    List.dropWhile_cons_of_neg (by rw [hblank]; exact Bool.false_ne_true)
  rw [htext, amounts_cons hfirst, hd]
  dsimp only
  rw [hitem]
  dsimp only
  rw [Item.amounts, ha]
  rfl

/-! ### Lists of items -/

/-- **Items that spell a length**: each of them writes an amount with less than a second of
nanoseconds, and the amounts are that long together. -/
inductive Spells : List String → Nat → Prop
  | nil : Spells [] 0
  | cons {text : String} {a : Amount} {texts : List String} {length : Nat}
      (writes : Writes text a) (nanos_lt : a.2 < nanosPerSec) (rest : Spells texts length) :
      Spells (text :: texts) (a.toNanos + length)

theorem Spells.append {front back : List String} {n m : Nat} (hfront : Spells front n)
    (hback : Spells back m) : Spells (front ++ back) (n + m) := by
  induction hfront with
  | nil =>
    rw [Nat.zero_add]
    exact hback
  | cons writes nanos_lt rest ih =>
    rw [Nat.add_assoc]
    exact .cons writes nanos_lt ih

theorem spells_singleton {n : Nat} {name : String} {u : TimeUnit}
    (hname : TimeUnit.ofName? name.toList = some u) (hn : u.scale.Fits n) :
    Spells [toString n ++ name] (n * u.scale.toNanos) := by
  obtain ⟨a, ha, hnanos, hlength⟩ := exists_parts_of_fits hn
  rw [← hlength, ← Nat.add_zero a.toNanos]
  exact .cons (writes_item hname (lt_wordBound_of_fits hn) ha) hnanos .nil

theorem spells_printItem {n : Nat} {name : String} {u : TimeUnit}
    (hname : TimeUnit.ofName? name.toList = some u) (hn : u.scale.Fits n) :
    Spells (printItem name n) (n * u.scale.toNanos) := by
  unfold printItem
  split
  · rename_i hzero
    rw [hzero, Nat.zero_mul]
    exact .nil
  · exact spells_singleton hname hn

theorem spells_printPlural {n : Nat} {name : String} {u : TimeUnit}
    (hone : TimeUnit.ofName? name.toList = some u)
    (hmany : TimeUnit.ofName? (name ++ "s").toList = some u) (hn : u.scale.Fits n) :
    Spells (printPlural name n) (n * u.scale.toNanos) := by
  unfold printPlural
  split
  · rename_i hzero
    rw [hzero, Nat.zero_mul]
    exact .nil
  · split
    · rw [String.append_empty]
      exact spells_singleton hone hn
    · rw [String.append_assoc]
      exact spells_singleton hmany hn

/-- **The items of a duration spell it.** -/
theorem spells_items (d : Duration) : Spells d.items d.toNanos := by
  let inYear := d.secs % 31557600
  let inMonth := inYear % 2630016
  let inDay := inMonth % 86400
  -- The seconds of each part fit a word with those of the whole, its nanoseconds make no second.
  have hfitsSecs {n each : Nat} (h : n * each ≤ d.secs) : n * each < wordBound :=
    Nat.lt_of_le_of_lt h d.secs_lt
  have hfitsNanos {n each : Nat} (h : n * each ≤ d.nanos) : n * each < nanosPerSec :=
    Nat.lt_of_le_of_lt h d.nanos_lt
  have hyears : Spells (printPlural "year" (d.secs / 31557600))
      (d.secs / 31557600 * 31557600000000000) :=
    spells_printPlural (u := .year) (by decide) (by decide) (hfitsSecs (by omega))
  have hmonths : Spells (printPlural "month" (inYear / 2630016))
      (inYear / 2630016 * 2630016000000000) :=
    spells_printPlural (u := .month) (by decide) (by decide) (hfitsSecs (by omega))
  have hdays : Spells (printPlural "day" (inMonth / 86400)) (inMonth / 86400 * 86400000000000) :=
    spells_printPlural (u := .day) (by decide) (by decide) (hfitsSecs (by omega))
  have hhours : Spells (printItem "h" (inDay / 3600)) (inDay / 3600 * 3600000000000) :=
    spells_printItem (u := .hour) (by decide) (hfitsSecs (by omega))
  have hminutes : Spells (printItem "m" (inDay % 3600 / 60)) (inDay % 3600 / 60 * 60000000000) :=
    spells_printItem (u := .minute) (by decide) (hfitsSecs (by omega))
  have hseconds : Spells (printItem "s" (inDay % 60)) (inDay % 60 * 1000000000) :=
    spells_printItem (u := .second) (by decide) (hfitsSecs (by omega))
  have hmillis : Spells (printItem "ms" (d.nanos / 1000000)) (d.nanos / 1000000 * 1000000) :=
    spells_printItem (u := .millisecond) (by decide) (hfitsNanos (by omega))
  have hmicros : Spells (printItem "us" (d.nanos / 1000 % 1000)) (d.nanos / 1000 % 1000 * 1000) :=
    spells_printItem (u := .microsecond) (by decide) (hfitsNanos (by omega))
  have hrest : Spells (printItem "ns" (d.nanos % 1000)) (d.nanos % 1000 * 1) :=
    spells_printItem (u := .nanosecond) (by decide) (hfitsNanos (by omega))
  have hall := (((((((hyears.append hmonths).append hdays).append hhours).append hminutes).append
    hseconds).append hmillis).append hmicros).append hrest
  have hsum : d.secs / 31557600 * 31557600000000000 + inYear / 2630016 * 2630016000000000 +
      inMonth / 86400 * 86400000000000 + inDay / 3600 * 3600000000000 +
      inDay % 3600 / 60 * 60000000000 + inDay % 60 * 1000000000 + d.nanos / 1000000 * 1000000 +
      d.nanos / 1000 % 1000 * 1000 + d.nanos % 1000 * 1 = d.toNanos := by
    simp only [toNanos, nanosPerSec, inDay, inMonth, inYear]
    omega
  rw [hsum] at hall
  exact hall

/-! ### Sums -/

/-- **An amount with less than a second of nanoseconds is added**, if there is room for it. -/
theorem exists_add_of_lt {total : Duration} {a : Amount} (hnanos : a.2 < nanosPerSec)
    (hroom : total.toNanos + a.toNanos < wordBound * nanosPerSec) :
    ∃ d, add total a.1 a.2 = .ok d ∧ d.toNanos = total.toNanos + a.toNanos := by
  rcases add_cases total a with ⟨-, hadd⟩ | ⟨⟨hover, -⟩, -⟩ | ⟨hword | ⟨hover, -⟩, -⟩
  · exact hadd
  · omega
  · have htotal := total.nanos_lt
    simp only [wordBound, nanosPerSec] at hword htotal hnanos
    omega
  · omega

/-- **A length that is spelled is added to any total with room for it.** -/
theorem exists_sumFrom_of_spells {texts : List String} {length : Nat} (h : Spells texts length)
    {total : Duration} (hroom : total.toNanos + length < wordBound * nanosPerSec) :
    ∃ d, sumFrom total (amounts (String.intercalate " " texts).toList) = .ok d ∧
      d.toNanos = total.toNanos + length := by
  -- For every total, since an item is added to what those before it came to.
  induction h generalizing total with
  | nil =>
    rw [String.intercalate_nil, amounts_of_blank (by rfl)]
    exact ⟨total, rfl, (Nat.add_zero _).symm⟩
  | @cons text a texts length writes nanos_lt rest ih =>
    have hfirst : total.toNanos + a.toNanos < wordBound * nanosPerSec := by omega
    obtain ⟨next, hadd, hnext⟩ := exists_add_of_lt nanos_lt hfirst
    have hothers : next.toNanos + length < wordBound * nanosPerSec := by omega
    obtain ⟨d, hd, hlength⟩ := ih hothers
    refine ⟨d, ?_, by omega⟩
    have hsplit : amounts (String.intercalate " " (text :: texts)).toList =
        .ok a :: amounts (String.intercalate " " texts).toList := by
      -- A blank parts the item from the others; after the last one the text ends.
      cases texts with
      | nil =>
        have hlast := writes [] (Or.inl rfl)
        rw [List.append_nil] at hlast
        rw [String.intercalate_singleton, String.intercalate_nil, hlast]
        rfl
      | cons second texts =>
        have hblank : Text.isBlank ' ' = true := by decide
        have hspace : " ".toList = [' '] := rfl
        rw [String.intercalate_cons_cons, String.append_assoc, String.toList_append,
          String.toList_append, hspace, List.singleton_append,
          writes _ (Or.inr ⟨' ', _, rfl, hblank⟩)]
        exact congrArg _ (amounts_cons_of_isBlank hblank _)
    rw [hsplit, sumFrom, hadd]
    exact hd

/-! ### Whole texts -/

/-- A text with a sum reads as it, unless there is nothing to add. -/
theorem read_of_sumFrom {text : String} {d : Duration}
    (h : sumFrom zero (amounts text.toList) = .ok d) (hne : d ≠ zero) : read text = .ok d := by
  rw [read]
  split
  · rename_i hzero
    rw [hzero, amounts_cons (show "0".toList.dropWhile Text.isBlank = '0' :: [] by decide)] at h
    cases h
  · split
    · rename_i hblank
      rw [amounts_of_isBlankText hblank] at h
      cases h
      exact absurd rfl hne
    · rw [readItems_eq_sumFrom]
      exact h

/-- **What is printed is read back.** -/
theorem read_print (d : Duration) : read d.print = .ok d := by
  unfold print
  split
  · rename_i hzero
    rw [hzero]
    decide +kernel
  · rename_i hne
    have hzero : zero.toNanos = 0 := by decide
    have hroom : zero.toNanos + d.toNanos < wordBound * nanosPerSec := by
      rw [hzero, Nat.zero_add]
      exact d.toNanos_lt
    obtain ⟨sum, hsum, hlength⟩ := exists_sumFrom_of_spells (spells_items d) hroom
    rw [hzero, Nat.zero_add, toNanos_inj] at hlength
    rw [hlength] at hsum
    exact read_of_sumFrom hsum hne

end Duration
end QualityGate
