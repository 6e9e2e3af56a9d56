import QualityGate.Proofs.Duration.RoundTrip
/-!
## Two durations in one text

The items of two texts with a blank between them are those of the first and then those of the second
(`amounts_append`). So what the second text stands for is added to the first, in checked steps. A step
looks at nanoseconds before it carries them, and can fail there though there is room for the sum
(`Jams`).

* `sumFrom_cases`: a chain of additions gives the exact sum, unless it is too long or an amount jams.
* `read_joined_cases`: what two durations in one text come to.
* `toNanos_of_perm`: the order of the amounts does not matter to their sum.
-/

namespace QualityGate.Duration

/-! ### Reading an item that other text follows -/

section Append

variable {s rest : List Char}

theorem readWhole_append {n v : Nat} {t : List Char} (h : readWhole n s = .ok (v, t)) (ht : t ≠ [])
    (rest : List Char) : readWhole n (s ++ rest) = .ok (v, t ++ rest) := by
  fun_induction readWhole n s with
  -- the text ended here, but something was left
  | case1 n =>
    cases h
    exact absurd rfl ht
  | case2 n c r d hd m hword ih =>
    rw [List.cons_append, readWhole, hd]
    simp only [hword]
    exact ih h
  | case3 n c r d hd e hword => cases h
  | case4 n c r hd hblank ih =>
    rw [List.cons_append, readWhole, hd]
    simp only [hblank, ↓reduceIte]
    exact ih h
  | case5 n c r hd hblank hstop =>
    cases h
    rw [List.cons_append, readWhole, hd]
    simp only [hblank, hstop, ↓reduceIte]
    rfl
  | case6 n c r hd hblank hstop => cases h

theorem readFraction_append {num den : Nat} {f : Fraction} {t : List Char}
    (h : readFraction num den s = .ok (f, t)) (ht : t ≠ []) (rest : List Char) :
    readFraction num den (s ++ rest) = .ok (f, t ++ rest) := by
  fun_induction readFraction num den s with
  | case1 num den =>
    cases h
    exact absurd rfl ht
  | case2 num den c r d hd den' num' hden hnum ih =>
    rw [List.cons_append, readFraction, hd]
    simp only [hden, hnum]
    exact ih h
  | case3 num den c r d hd hwords => cases h
  | case4 num den c r hd hblank ih =>
    rw [List.cons_append, readFraction, hd]
    simp only [hblank, ↓reduceIte]
    exact ih h
  | case5 num den c r hd hblank hletter =>
    cases h
    rw [List.cons_append, readFraction, hd]
    simp only [hblank, hletter, ↓reduceIte]
    rfl
  | case6 num den c r hd hblank hletter => cases h

/-- **What is read as a unit** is its name, and the text after it ends a name. -/
theorem exists_name_of_readUnit {u : TimeUnit} {t : List Char} (h : readUnit s = .ok (u, t)) :
    ∃ name, s = name ++ t ∧ TimeUnit.ofName? name = some u ∧ EndsName t := by
  refine ⟨s.takeWhile isUnitLetter, ?_⟩
  have hsplit := List.takeWhile_append_dropWhile (p := isUnitLetter) (l := s)
  unfold readUnit at h
  dsimp only at h
  cases hname : TimeUnit.ofName? (s.takeWhile isUnitLetter) with
  -- a name that is no unit is a fault, with or without something behind it
  | none =>
    rw [hname] at h
    split at h
    · cases h
    · split at h <;> cases h
  | some v =>
    rw [hname] at h
    split at h
    · rename_i hdrop
      cases h
      exact ⟨(hdrop ▸ hsplit).symm, rfl, Or.inl rfl⟩
    · rename_i c r hdrop
      split at h
      · rename_i hends
        cases h
        exact ⟨(hdrop ▸ hsplit).symm, rfl, Or.inr ⟨c, r, rfl, hends⟩⟩
      · cases h

theorem EndsName.append {t : List Char} (h : EndsName t) (hrest : Parted rest) :
    EndsName (t ++ rest) := by
  rcases h with rfl | ⟨c, r, rfl, hends⟩
  · exact hrest.endsName
  · exact Or.inr ⟨c, r ++ rest, rfl, hends⟩

theorem readUnit_append {u : TimeUnit} {t : List Char} (h : readUnit s = .ok (u, t))
    (hrest : Parted rest) : readUnit (s ++ rest) = .ok (u, t ++ rest) := by
  obtain ⟨name, rfl, hname, hends⟩ := exists_name_of_readUnit h
  rw [List.append_assoc]
  exact readUnit_name hname (hends.append hrest)

/-- A unit has a name. -/
theorem ne_nil_of_readUnit {v : TimeUnit × List Char} (h : readUnit s = .ok v) : s ≠ [] := by
  rintro rfl
  cases h

/-- **An item is read from the front of a text**, whatever follows it after a blank. -/
theorem readItem_append {n : Nat} {item : Item} {t : List Char} (h : readItem n s = .ok (item, t))
    (hrest : Parted rest) : readItem n (s ++ rest) = .ok (item, t ++ rest) := by
  unfold readItem at h
  split at h
  · cases h
  · rename_i whole r hwhole
    split at h
    · cases h
    · rename_i f r2 hfraction
      split at h
      · cases h
      · rename_i hden
        split at h
        · cases h
        · rename_i u r3 hunit
          cases h
          have hfirst := readWhole_append hwhole (List.cons_ne_nil '.' r) rest
          have hnext := readFraction_append hfraction (ne_nil_of_readUnit hunit) rest
          rw [List.cons_append] at hfirst
          unfold readItem
          simp only [hfirst, hnext, hden, ↓reduceIte, readUnit_append hunit hrest]
  · rename_i whole r hpoint hwhole
    split at h
    · cases h
    · rename_i u r3 hunit
      cases h
      have hnext := readUnit_append hunit hrest
      -- a unit follows the number, so the text after it starts with a letter
      obtain ⟨c, r, rfl⟩ := List.exists_cons_of_ne_nil (ne_nil_of_readUnit hunit)
      have hc : c ≠ '.' := fun hsame => hpoint r (hsame ▸ rfl)
      unfold readItem
      rw [readWhole_append hwhole (List.cons_ne_nil c r), List.cons_append]
      split
      · rename_i herror
        cases herror
      · rename_i hdot
        cases hdot
        exact absurd rfl hc
      · rename_i hletter
        cases hletter
        rw [← List.cons_append, hnext]

end Append

/-! ### The items of two texts -/

/-- **The amounts of two texts with a blank between them**, of which the first one has no fault. -/
theorem amounts_append {s rest : List Char} (h : ∀ e, .error e ∉ amounts s) (hrest : Parted rest) :
    amounts (s ++ rest) = amounts s ++ amounts rest := by
  fun_induction amounts s with
  | case1 s hblank =>
    have hdrop : (s ++ rest).dropWhile Text.isBlank = rest.dropWhile Text.isBlank := by
      rw [List.dropWhile_append, hblank]
      rfl
    rw [List.nil_append]
    cases hs : rest.dropWhile Text.isBlank with
    | nil => rw [amounts_of_blank hs, amounts_of_blank (hdrop.trans hs)]
    | cons c r => rw [amounts_cons hs, amounts_cons (hdrop.trans hs)]
  -- the first text has no fault
  | case2 s c r hs hd => exact absurd (List.mem_singleton_self _) (h _)
  | case3 s c r hs d hd e hi => exact absurd (List.mem_singleton_self _) (h _)
  | case4 s c r hs d hd item t hi ih =>
    have hdrop : (s ++ rest).dropWhile Text.isBlank = c :: (r ++ rest) := by
      rw [List.dropWhile_append, hs]
      rfl
    have hlater : ∀ e, .error e ∉ amounts t := fun e he => h e (List.mem_append_right _ he)
    rw [amounts_cons hdrop, hd]
    dsimp only
    rw [readItem_append hi hrest]
    dsimp only
    rw [ih hlater, List.append_assoc]

/-! ### Sums that start from another one -/

/-- **An amount jams** where its nanoseconds and those that the sum of everything before it has beyond
its seconds do not fit a word together. -/
def Jams (total : Duration) (l : List (Except Fault Amount)) : Prop :=
  ∃ front a back, l = front ++ .ok a :: back ∧
    wordBound ≤ (total.toNanos + lengthOf front) % nanosPerSec + a.2

theorem toNanos_mod (d : Duration) : d.toNanos % nanosPerSec = d.nanos := by
  have hnanos := d.nanos_lt
  simp only [toNanos, nanosPerSec] at hnanos ⊢
  omega

theorem not_jams_nil (total : Duration) : ¬Jams total [] := by
  rintro ⟨front, a, back, hsame, -⟩
  simp at hsame

theorem jams_of_first {total : Duration} {a : Amount} (h : wordBound ≤ total.nanos + a.2)
    (l : List (Except Fault Amount)) : Jams total (.ok a :: l) := by
  refine ⟨[], a, l, rfl, ?_⟩
  rwa [lengthOf, Nat.add_zero, toNanos_mod]

/-- The first amount jams, or one after it does. -/
theorem jams_cons_iff {total next : Duration} {a : Amount} {l : List (Except Fault Amount)}
    (hnext : next.toNanos = total.toNanos + a.toNanos) :
    Jams total (.ok a :: l) ↔ wordBound ≤ total.nanos + a.2 ∨ Jams next l := by
  constructor
  · rintro ⟨front, b, back, hsame, hjam⟩
    cases front with
    | nil =>
      cases hsame
      rw [lengthOf, Nat.add_zero, toNanos_mod] at hjam
      exact Or.inl hjam
    | cons first front =>
      cases hsame
      -- what comes before the amount is as long as `next` with the rest of it
      rw [lengthOf, ← Nat.add_assoc, ← hnext] at hjam
      exact Or.inr ⟨front, b, back, rfl, hjam⟩
  · rintro (hjam | ⟨front, b, back, rfl, hjam⟩)
    · exact jams_of_first hjam l
    · refine ⟨.ok a :: front, b, back, rfl, ?_⟩
      rwa [lengthOf, ← Nat.add_assoc, ← hnext]

/-- **What a chain of additions comes to**: the exact sum, or a fault where an amount jams on the way to
a sum that there is room for; a sum that is too long is none in any case. -/
theorem sumFrom_cases {l : List (Except Fault Amount)} (hl : ∀ e, .error e ∉ l) (total : Duration) :
    (¬Jams total l ∧
      ∃ d, sumFrom total l = .ok d ∧ d.toNanos = total.toNanos + lengthOf l) ∨
    (Jams total l ∧ total.toNanos + lengthOf l < wordBound * nanosPerSec ∧
      sumFrom total l = .error .malformed) ∨
    (wordBound * nanosPerSec ≤ total.toNanos + lengthOf l ∧ ∃ e, sumFrom total l = .error e) := by
  -- The total changes with each amount, so the induction is for all totals.
  induction l generalizing total with
  | nil => exact Or.inl ⟨not_jams_nil total, total, rfl, (Nat.add_zero _).symm⟩
  | cons first l ih =>
    cases first with
    | error e => exact absurd List.mem_cons_self (hl e)
    | ok a =>
      have hrest : ∀ e, .error e ∉ l := fun e he => hl e (List.mem_cons_of_mem _ he)
      rw [sumFrom, lengthOf, ← Nat.add_assoc]
      rcases add_cases total a with ⟨hword, next, hadd, hnext⟩ | ⟨⟨hexact, -⟩, hadd⟩ | ⟨hout, hadd⟩
      · rw [hadd, jams_cons_iff hnext, ← hnext, or_iff_right (Nat.not_le.mpr hword)]
        exact ih hrest next
      · have hlong : wordBound * nanosPerSec ≤ total.toNanos + a.toNanos + lengthOf l :=
          Nat.le_trans (Nat.le_of_eq hexact.symm) (Nat.le_add_right _ _)
        rw [hadd]
        exact Or.inr (Or.inr ⟨hlong, _, rfl⟩)
      · rw [hadd]
        rcases hout with hjam | ⟨hlong, -⟩
        · by_cases hroom : total.toNanos + a.toNanos + lengthOf l < wordBound * nanosPerSec
          · exact Or.inr (Or.inl ⟨jams_of_first hjam l, hroom, rfl⟩)
          · exact Or.inr (Or.inr ⟨Nat.le_of_not_lt hroom, _, rfl⟩)
        · exact Or.inr (Or.inr ⟨Nat.le_trans hlong (Nat.le_add_right _ _), _, rfl⟩)

/-- Amounts with a sum have no fault among them. -/
theorem error_not_mem_of_sumFrom {l : List (Except Fault Amount)} {total d : Duration}
    (h : sumFrom total l = .ok d) (e : Fault) : .error e ∉ l := by
  induction l generalizing total with
  | nil => exact List.not_mem_nil
  | cons first l ih =>
    cases first with
    | error f => cases h
    | ok a =>
      rw [sumFrom] at h
      cases hadd : add total a.1 a.2 with
      | error f =>
        rw [hadd] at h
        cases h
      | ok next =>
        rw [hadd] at h
        rw [List.mem_cons, not_or]
        exact ⟨by simp, ih h⟩

/-- **The order of amounts does not matter to their length.** -/
theorem lengthOf_of_perm {l m : List (Except Fault Amount)} (h : l.Perm m) :
    lengthOf l = lengthOf m := by
  induction h with
  | nil => rfl
  | cons x h ih => cases x <;> simp only [lengthOf, ih]
  | swap x y l => cases x <;> cases y <;> simp only [lengthOf, Nat.add_left_comm]
  | trans _ _ ih ih' => exact ih.trans ih'

/-! ### Whole texts -/

/-- A text that reads as a duration holds more than blanks. -/
theorem isBlankText_of_read {text : String} {d : Duration} (h : read text = .ok d) :
    Text.isBlankText text = false := by
  rw [read] at h
  split at h
  · rename_i hzero
    rw [hzero]
    decide
  · split at h
    · cases h
    · rename_i hfilled
      simpa using hfilled

/-- **Any text but the bare zero is read by its amounts.** -/
theorem read_eq_sumFrom {text : String} (hzero : text ≠ "0") (hfilled : Text.isBlankText text = false) :
    read text = sumFrom zero (amounts text.toList) := by
  rw [read, if_neg hzero, hfilled, if_neg (by decide), readItems_eq_sumFrom]

/-- What was read is as long as its amounts. -/
theorem toNanos_of_read {text : String} {d : Duration} (h : read text = .ok d) (hzero : text ≠ "0") :
    d.toNanos = lengthOf (amounts text.toList) := by
  rw [read_eq_sumFrom hzero (isBlankText_of_read h)] at h
  rw [toNanos_of_sumFrom h, show zero.toNanos = 0 by decide, Nat.zero_add]

/-- **Two durations in one text**: the amounts of the second are added to the first. -/
theorem read_joined {a b : String} {x : Duration} (ha : read a = .ok x) (hzero : a ≠ "0") :
    read (a ++ " " ++ b) = sumFrom x (amounts b.toList) := by
  have hspace : " ".toList = [' '] := rfl
  have hblank : Text.isBlank ' ' = true := by decide
  have hfilled := isBlankText_of_read ha
  -- a lone zero is read apart, but here a blank stands behind it
  have hne : a ++ " " ++ b ≠ "0" := by
    intro h
    have hmem : ' ' ∈ (a ++ " " ++ b).toList := by simp [hspace]
    rw [h] at hmem
    revert hmem
    decide
  have hmore : Text.isBlankText (a ++ " " ++ b) = false := by
    rw [Text.isBlankText] at hfilled ⊢
    rw [String.toList_append, String.toList_append, List.all_append, List.all_append, hfilled]
    rfl
  rw [read_eq_sumFrom hzero hfilled] at ha
  rw [read_eq_sumFrom hne hmore, String.toList_append, String.toList_append, List.append_assoc, hspace,
    List.singleton_append,
    amounts_append (error_not_mem_of_sumFrom ha) (Or.inr ⟨' ', _, rfl, hblank⟩),
    amounts_cons_of_isBlank hblank, sumFrom_append, ha]

/-- **What two durations in one text come to**: their exact sum, or a fault where an amount of the second
jams though there is room for the sum; a sum that is too long is none in any case. -/
theorem read_joined_cases {a b : String} {x y : Duration} (ha : read a = .ok x) (hb : read b = .ok y)
    (hzeroA : a ≠ "0") (hzeroB : b ≠ "0") :
    (¬Jams x (amounts b.toList) ∧
      ∃ d, read (a ++ " " ++ b) = .ok d ∧ d.toNanos = x.toNanos + y.toNanos) ∨
    (Jams x (amounts b.toList) ∧ x.toNanos + y.toNanos < wordBound * nanosPerSec ∧
      read (a ++ " " ++ b) = .error .malformed) ∨
    (wordBound * nanosPerSec ≤ x.toNanos + y.toNanos ∧ ∃ e, read (a ++ " " ++ b) = .error e) := by
  have hsum : sumFrom zero (amounts b.toList) = .ok y := by
    rw [← read_eq_sumFrom hzeroB (isBlankText_of_read hb), hb]
  rw [read_joined ha hzeroA, toNanos_of_read hb hzeroB]
  exact sumFrom_cases (error_not_mem_of_sumFrom hsum) x

/-- **When two durations in one text are one.** -/
theorem exists_read_joined_iff {a b : String} {x y : Duration} (ha : read a = .ok x)
    (hb : read b = .ok y) (hzeroA : a ≠ "0") (hzeroB : b ≠ "0") :
    (∃ d, read (a ++ " " ++ b) = .ok d) ↔
      x.toNanos + y.toNanos < wordBound * nanosPerSec ∧ ¬Jams x (amounts b.toList) := by
  have hnone {e : Fault} (h : read (a ++ " " ++ b) = .error e) :
      ¬∃ d, read (a ++ " " ++ b) = .ok d := by
    rintro ⟨d, hd⟩
    cases h ▸ hd
  rcases read_joined_cases ha hb hzeroA hzeroB with
    ⟨hclear, d, hread, hd⟩ | ⟨hjams, -, hread⟩ | ⟨hlong, e, hread⟩
  · have hroom : x.toNanos + y.toNanos < wordBound * nanosPerSec := hd ▸ d.toNanos_lt
    exact ⟨fun _ => ⟨hroom, hclear⟩, fun _ => ⟨d, hread⟩⟩
  · exact ⟨fun h => absurd h (hnone hread), fun h => absurd hjams h.2⟩
  · exact ⟨fun h => absurd h (hnone hread), fun h => absurd h.1 (Nat.not_lt.mpr hlong)⟩

/-- **The order of the amounts of two durations does not matter to their sum**, however they are spread
over a text. -/
theorem toNanos_of_perm {a b text : String} {x y d : Duration} (ha : read a = .ok x)
    (hb : read b = .ok y) (h : read text = .ok d) (hzeroA : a ≠ "0") (hzeroB : b ≠ "0")
    (hzero : text ≠ "0") (hperm : (amounts text.toList).Perm (amounts a.toList ++ amounts b.toList)) :
    d.toNanos = x.toNanos + y.toNanos := by
  calc d.toNanos = lengthOf (amounts text.toList) := toNanos_of_read h hzero
    _ = lengthOf (amounts a.toList ++ amounts b.toList) := lengthOf_of_perm hperm
    _ = lengthOf (amounts a.toList) + lengthOf (amounts b.toList) := lengthOf_append _ _
    _ = x.toNanos + y.toNanos := by rw [toNanos_of_read ha hzeroA, toNanos_of_read hb hzeroB]

end QualityGate.Duration
