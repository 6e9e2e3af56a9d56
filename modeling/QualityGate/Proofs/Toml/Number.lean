import Mathlib.Data.List.Induction
import Mathlib.Data.Nat.Digits.Defs
import Mathlib.Tactic.Ring
import QualityGate.Proofs.Toml.Value
/-!
## Integers as they are written

An integer can be written in four radices, in groups of digits, and in decimal with a sign.

* `digits_grouped`: digits are read back from their groups, up to what ends a value.
* `readsTo_integer`: what writes an integer is read as that integer and nothing else, neither as a date nor
  as a fraction, or it is refused where 64 bits with a sign do not hold it.
* `writesInteger_toString`: an integer as it is printed is one of its spellings.
-/

namespace QualityGate.Toml

variable {p : Char → Bool} {cs ds rest w : List Char} {n : Int}

/-! ### Groups of digits -/

/-- **Digits as they are written**, single underscores between them. -/
inductive Grouped (p : Char → Bool) : List Char → List Char → Prop
  | one {c : Char} (hc : p c = true) : Grouped p [c] [c]
  | next {c : Char} (hc : p c = true) {cs ds : List Char} (h : Grouped p cs ds) :
    Grouped p (c :: cs) (c :: ds)
  | group {c : Char} (hc : p c = true) {cs ds : List Char} (h : Grouped p cs ds) :
    Grouped p (c :: '_' :: cs) (c :: ds)

namespace Grouped

/-- Groups start with the first digit. -/
theorem exists_cons (h : Grouped p cs ds) : ∃ c cs' ds', cs = c :: cs' ∧ ds = c :: ds' ∧ p c = true := by
  cases h with
  | one hc => exact ⟨_, _, _, rfl, rfl, hc⟩
  | next hc => exact ⟨_, _, _, rfl, rfl, hc⟩
  | group hc => exact ⟨_, _, _, rfl, rfl, hc⟩

theorem mem (h : Grouped p cs ds) : ∀ c ∈ cs, p c = true ∨ c = '_' := by
  induction h with
  | one hc => simpa using Or.inl hc
  | next hc _ ih => exact List.forall_mem_cons.mpr ⟨Or.inl hc, ih⟩
  | group hc _ ih =>
    exact List.forall_mem_cons.mpr ⟨Or.inl hc, List.forall_mem_cons.mpr ⟨Or.inr rfl, ih⟩⟩

/-- Digits without underscores are one group. -/
theorem of_all (hne : ds ≠ []) (h : ∀ c ∈ ds, p c = true) : Grouped p ds ds := by
  induction ds with
  | nil => exact absurd rfl hne
  | cons c ds ih =>
    obtain ⟨hc, hds⟩ := List.forall_mem_cons.mp h
    cases ds with
    | nil => exact .one hc
    | cons d ds => exact .next hc (ih (List.cons_ne_nil _ _) hds)

end Grouped

/-- What ends digits: neither a digit nor an underscore follows. -/
def EndsDigits (p : Char → Bool) (rest : Input) : Prop :=
  ∀ c ∈ rest.head?, p c = false ∧ c ≠ '_'

theorem moreDigits_ends (acc : List Char) (h : EndsDigits p rest) :
    moreDigits p acc rest = .ok acc.reverse rest := by
  rw [moreDigits.eq_def]
  cases rest with
  | nil => rfl
  | cons c r =>
    obtain ⟨hc, hmark⟩ := h c rfl
    simp [hc, hmark]

theorem moreDigits_digit {c : Char} (hc : p c = true) (acc r : List Char) :
    moreDigits p acc (c :: r) = moreDigits p (c :: acc) r := by
  rw [moreDigits.eq_def]
  exact if_pos hc

/-- An underscore before a digit is passed over. -/
theorem moreDigits_underscore (hp : p '_' = false) {d : Char} (hd : p d = true) (acc r : List Char) :
    moreDigits p acc ('_' :: d :: r) = moreDigits p acc (d :: r) := by
  rw [moreDigits_digit hd, moreDigits.eq_def]
  simp [hp, hd]

/-- **Further digits are read back from their groups.** -/
theorem moreDigits_grouped (hp : p '_' = false) (h : Grouped p cs ds) (hrest : EndsDigits p rest)
    (acc : List Char) : moreDigits p acc (cs ++ rest) = .ok (acc.reverse ++ ds) rest := by
  induction h generalizing acc with
  | one hc =>
    rw [List.singleton_append, moreDigits_digit hc, moreDigits_ends _ hrest, List.reverse_cons]
  | next hc _ ih =>
    rw [List.cons_append, moreDigits_digit hc, ih, List.reverse_cons, List.append_assoc]
    rfl
  | group hc h ih =>
    obtain ⟨d, cs', ds', rfl, rfl, hd⟩ := h.exists_cons
    rw [List.cons_append, List.cons_append, List.cons_append, moreDigits_digit hc,
      moreDigits_underscore hp hd, ← List.cons_append, ih, List.reverse_cons, List.append_assoc]
    rfl

/-- **Digits are read back from their groups.** -/
theorem digits_grouped (hp : p '_' = false) (h : Grouped p cs ds) (hrest : EndsDigits p rest) :
    digits p (cs ++ rest) = .ok ds rest := by
  have hmore := moreDigits_grouped hp h hrest []
  obtain ⟨c, cs', ds', rfl, -, hc⟩ := h.exists_cons
  rw [List.cons_append, moreDigits_digit hc] at hmore
  rw [List.cons_append, digits, if_pos hc, hmore]
  rfl

/-- The number that digits write, the last one counting least. -/
def valueOf (radix : Nat) (ds : List Char) : Nat :=
  Nat.ofDigits radix (ds.map digitValue).reverse

theorem numberOf_eq_valueOf (radix : Nat) (ds : List Char) : numberOf radix ds = valueOf radix ds := by
  induction ds using List.reverseRecOn with
  | nil => rfl
  | append_singleton ds d ih =>
    have hfront : numberOf radix (ds ++ [d]) = numberOf radix ds * radix + digitValue d := by
      simp [numberOf]
    rw [hfront, ih, valueOf, valueOf, List.map_append, List.reverse_append]
    simp only [List.map_cons, List.map_nil, List.reverse_singleton, List.singleton_append,
      Nat.ofDigits_cons]
    ring

/-! ### Spellings of integers -/

/-- **Decimal digits as they are written**, without a superfluous zero in front. -/
def Decimal (cs ds : List Char) : Prop :=
  Grouped isDigit cs ds ∧ (ds.head? = some '0' → ds = ['0'])

/-- **What writes an integer**: decimal digits with or without a sign, or digits in another radix after
its mark. -/
inductive WritesInteger : List Char → Int → Prop
  | unsigned {cs ds : List Char} (h : Decimal cs ds) : WritesInteger cs (valueOf 10 ds)
  | plus {cs ds : List Char} (h : Decimal cs ds) : WritesInteger ('+' :: cs) (valueOf 10 ds)
  | minus {cs ds : List Char} (h : Decimal cs ds) : WritesInteger ('-' :: cs) (-valueOf 10 ds)
  | hexadecimal {cs ds : List Char} (h : Grouped isHexDigit cs ds) :
    WritesInteger ('0' :: 'x' :: cs) (valueOf 16 ds)
  | octal {cs ds : List Char} (h : Grouped isOctalDigit cs ds) :
    WritesInteger ('0' :: 'o' :: cs) (valueOf 8 ds)
  | binary {cs ds : List Char} (h : Grouped isBinaryDigit cs ds) :
    WritesInteger ('0' :: 'b' :: cs) (valueOf 2 ds)

/-- A zero stands alone. -/
theorem Decimal.eq_zero_or {c : Char} (h : Decimal (c :: cs) ds) : (c = '0' ∧ cs = [] ∧ ds = ['0']) ∨
    c ≠ '0' := by
  obtain ⟨hgroups, hzero⟩ := h
  by_cases hc : c = '0'
  · subst hc
    refine Or.inl ⟨rfl, ?_⟩
    cases hgroups with
    | one _ => exact ⟨rfl, rfl⟩
    | next _ h =>
      obtain ⟨_, _, _, -, rfl, -⟩ := h.exists_cons
      cases hzero rfl
    | group _ h =>
      obtain ⟨_, _, _, -, rfl, -⟩ := h.exists_cons
      cases hzero rfl
  · exact Or.inr hc

theorem Ends.endsDigits (h : Ends rest) {p : Char → Bool}
    (hp : endMarks.all (fun c => !p c) = true) : EndsDigits p rest := by
  intro c hc
  have hmark := h.head (q := fun c => !p c && c != '_') (by
    rw [List.all_eq_true] at hp ⊢
    intro c hc
    have hne : endMarks.all (· != '_') = true := by decide
    rw [hp c hc, List.all_eq_true.mp hne c hc]
    rfl) c hc
  simpa using hmark

theorem isDigit_ne {c d : Char} (h : isDigit c = true) (hd : isDigit d = false) : c ≠ d := by
  rintro rfl
  rw [h] at hd
  cases hd

theorem takeSign_digit {c : Char} (hc : isDigit c = true) (r : Input) :
    takeSign (c :: r) = (false, c :: r) := by
  have hplus : c ≠ '+' := isDigit_ne hc (by decide)
  have hminus : c ≠ '-' := isDigit_ne hc (by decide)
  unfold takeSign
  split
  · exact absurd (List.cons_eq_cons.mp ‹_›).1 hplus
  · exact absurd (List.cons_eq_cons.mp ‹_›).1 hminus
  · rfl

/-- **A decimal numeral is read** behind its sign. -/
theorem numeral_decimal {s : Input} {negative : Bool} (hsign : takeSign s = (negative, cs ++ rest))
    (h : Decimal cs ds) (hrest : Ends rest) : numeral s = .ok ⟨negative, ds⟩ rest := by
  have hdigits := digits_grouped (by decide) h.1 (hrest.endsDigits (by decide))
  obtain ⟨c, cs', ds', rfl, rfl, hc⟩ := h.1.exists_cons
  unfold numeral
  rw [hsign]
  dsimp only [List.cons_append] at hdigits ⊢
  split
  · rename_i r hzero
    obtain ⟨rfl, rfl⟩ := List.cons_eq_cons.mp hzero
    rcases h.eq_zero_or with ⟨-, rfl, hds⟩ | hzero
    · rw [hds]
      rfl
    · exact absurd rfl hzero
  · rw [hdigits]
    rfl

/-! ### Other readings -/

theorem mark_isTentative {m : Char} {s : Input} (h : ∀ c ∈ s.head?, c ≠ m) : (mark m s).IsTentative := by
  cases s with
  | nil => exact ⟨_, _, rfl⟩
  | cons c r =>
    rw [mark, oneOf, if_neg (by simpa using h c rfl)]
    exact ⟨_, _, rfl⟩

/-- **What follows some digits within a word or at its end** is no mark that the word does not have. -/
theorem head_drop_ne {m : Char} {k : Nat} (hk : 0 < k) (hw : ∀ c ∈ w.tail, c ≠ m)
    (hrest : ∀ c ∈ rest.head?, isDigit c = false ∧ c ≠ m)
    (hlength : ((w ++ rest).take k).length = k) (hdigits : ((w ++ rest).take k).all isDigit = true) :
    ∀ c ∈ ((w ++ rest).drop k).head?, c ≠ m := by
  intro c hc
  rw [List.head?_drop] at hc
  rcases Nat.lt_trichotomy k w.length with hlt | heq | hgt
  · rw [List.getElem?_append_left hlt] at hc
    obtain ⟨j, rfl⟩ := Nat.exists_eq_add_of_lt hk
    refine hw c (List.mem_of_getElem? (i := j) ?_)
    rw [List.getElem?_tail]
    simpa using hc
  · rw [List.getElem?_append_right heq.ge, heq, Nat.sub_self, ← List.head?_eq_getElem?] at hc
    exact (hrest c hc).2
  · -- the digits would go on with what follows the word
    rw [List.length_take, List.length_append] at hlength
    cases rest with
    | nil =>
      rw [List.length_nil] at hlength
      omega
    | cons d rest =>
      have hmem : d ∈ (w ++ d :: rest).take k := by
        rw [List.mem_take_iff_getElem]
        refine ⟨w.length, ?_, ?_⟩
        · simp only [List.length_append, List.length_cons]
          omega
        · simp
      have hdigit := List.all_eq_true.mp hdigits d hmem
      rw [(hrest d rfl).1] at hdigit
      cases hdigit

/-- A field of digits and then a mark are not what such a word is. -/
theorem field_mark_isTentative {β : Type} {m : Char} {k : Nat} (hk : 0 < k) (low high : Nat)
    (hw : ∀ c ∈ w.tail, c ≠ m) (hrest : ∀ c ∈ rest.head?, isDigit c = false ∧ c ≠ m)
    (next : Nat → Unit → Input → Reply β) :
    ((field k low high (w ++ rest)).andThen fun v s =>
      (mark m s).andThen fun u s => next v u s).IsTentative := by
  unfold field
  dsimp only
  split
  · rename_i hdigits
    split
    · exact (mark_isTentative (head_drop_ne hk hw hrest hdigits.1 hdigits.2)).andThen _
    · exact ⟨_, _, rfl⟩
  · exact ⟨_, _, rfl⟩

/-- **A word without dashes and colons is no date and no time.** -/
theorem dateTime_isTentative (hw : ∀ c ∈ w.tail, c ≠ '-' ∧ c ≠ ':') (hrest : Ends rest) :
    (dateTime (w ++ rest)).IsTentative := by
  have hmark {m : Char} (hm : endMarks.all (fun c => !isDigit c && c != m) = true) :
      ∀ c ∈ rest.head?, isDigit c = false ∧ c ≠ m := by
    intro c hc
    simpa using hrest.head hm c hc
  have hdate : (date (w ++ rest)).IsTentative :=
    field_mark_isTentative (by decide) _ _ (fun c hc => (hw c hc).1) (hmark (by decide)) _
  have htime : (time (w ++ rest)).IsTentative :=
    field_mark_isTentative (by decide) _ _ (fun c hc => (hw c hc).2) (hmark (by decide)) _
  unfold dateTime
  dsimp only
  rw [((hdate.andThen _).labelled _).orElse]
  exact htime.labelled _

/-- **A numeral that neither a point nor an exponent follows is no fraction.** -/
theorem float_isTentative {s : Input} {v : Numeral} (hv : numeral s = .ok v rest)
    (hrest : ∀ c ∈ rest.head?, c ≠ '.' ∧ c ≠ 'e' ∧ c ≠ 'E')
    (hname : ∀ c ∈ (takeSign s).2.head?, c ≠ 'i' ∧ c ≠ 'n') : (float s).IsTentative := by
  have hexponent : exponentPart? rest = none := by
    cases rest with
    | nil => rfl
    | cons c r =>
      obtain ⟨-, hlower, hupper⟩ := hrest c rfl
      exact if_neg (not_or.mpr ⟨hlower, hupper⟩)
  have hfraction : (fractionAndExponent rest).IsTentative := by
    unfold fractionAndExponent
    split
    · exact absurd rfl (hrest '.' rfl).1
    · rw [hexponent]
      exact ⟨_, _, rfl⟩
  have hdecimal : (decimalFloat s).IsTentative := by
    rw [decimalFloat, hv]
    exact hfraction.andThen _
  have hnamed : (namedFloat s).IsTentative := by
    unfold namedFloat
    dsimp only
    split
    · rename_i h
      exact absurd rfl (hname 'i' (by rw [h]; rfl)).1
    · rename_i h
      exact absurd rfl (hname 'n' (by rw [h]; rfl)).2
    · exact ⟨_, _, rfl⟩
  rw [float, hdecimal.orElse]
  exact hnamed.labelled _

/-! ### Reading integers -/

/-- Whether 64 bits with a sign hold an integer. -/
def Fits (n : Int) : Prop :=
  -signedBound ≤ n ∧ n < signedBound

/-- **The answer of a reader of integers** that has read `n`. -/
def IntegerReply (n : Int) (rest : Input) (r : Reply Int) : Prop :=
  (Fits n ∧ r = .ok n rest) ∨ (¬Fits n ∧ ∃ place complaint, r = .committed place complaint)

theorem signed_reply {m : Nat} (negative : Bool) (hn : n = if negative then -(m : Int) else m)
    (start rest : Input) : IntegerReply n rest (signed start negative m rest) := by
  unfold signed IntegerReply Fits
  dsimp only
  rw [← hn]
  split
  · exact Or.inr ⟨by omega, _, _, rfl⟩
  · split
    · exact Or.inr ⟨by omega, _, _, rfl⟩
    · exact Or.inl ⟨by omega, rfl⟩

/-- The mark of another radix stands behind a zero. -/
theorem integer_decimal {s : Input} {v : Numeral} (hv : numeral s = .ok v rest)
    (hmark : ∀ c r, s = '0' :: c :: r → c ≠ 'x' ∧ c ≠ 'o' ∧ c ≠ 'b') :
    integer s = signed s v.negative (numberOf 10 v.digits) rest := by
  unfold integer
  split
  · exact absurd rfl (hmark _ _ rfl).1
  · exact absurd rfl (hmark _ _ rfl).2.1
  · exact absurd rfl (hmark _ _ rfl).2.2
  · rw [hv]
    rfl

theorem radixInteger_reply {radix : Nat} (hp : p '_' = false) (h : Grouped p cs ds)
    (hrest : EndsDigits p rest) (label : String) (start : Input) :
    IntegerReply (valueOf radix ds) rest (radixInteger start radix p label (cs ++ rest)) := by
  rw [radixInteger, digits_grouped hp h hrest, ← numberOf_eq_valueOf]
  exact signed_reply false rfl start rest

/-- A decimal numeral behind its sign is read as an integer only. -/
theorem decimal_reads {s : Input} {negative : Bool} (hsign : takeSign s = (negative, cs ++ rest))
    (h : Decimal cs ds) (hrest : Ends rest)
    (hmark : ∀ c r, s = '0' :: c :: r → c ≠ 'x' ∧ c ≠ 'o' ∧ c ≠ 'b')
    (hn : n = if negative then -(valueOf 10 ds : Int) else valueOf 10 ds) :
    (float s).IsTentative ∧ IntegerReply n rest (integer s) := by
  have hnumeral := numeral_decimal hsign h hrest
  refine ⟨float_isTentative hnumeral ?_ ?_, ?_⟩
  · intro c hc
    simpa [and_assoc] using
      hrest.head (q := fun c => c != '.' && c != 'e' && c != 'E') (by decide) c hc
  · obtain ⟨c, cs', ds', rfl, rfl, hc⟩ := h.1.exists_cons
    rw [hsign]
    rintro d ⟨⟩
    exact ⟨isDigit_ne hc (by decide), isDigit_ne hc (by decide)⟩
  · rw [integer_decimal hnumeral hmark, numberOf_eq_valueOf]
    exact signed_reply negative hn s rest

/-- Behind a zero and the mark of another radix no fraction stands. -/
theorem float_mark_isTentative {m : Char} (hm : m ≠ '.' ∧ m ≠ 'e' ∧ m ≠ 'E') (r : Input) :
    (float ('0' :: m :: r)).IsTentative := by
  have hzero : numeral ('0' :: m :: r) = .ok ⟨false, ['0']⟩ (m :: r) := rfl
  refine float_isTentative hzero ?_ ?_
  · rintro c ⟨⟩
    exact hm
  · rintro c ⟨⟩
    decide

/-- Digits and underscores are no dashes and no colons. -/
theorem Grouped.mem_ne (h : Grouped p cs ds) (hdash : p '-' = false) (hcolon : p ':' = false) :
    ∀ c ∈ cs, c ≠ '-' ∧ c ≠ ':' := by
  intro c hc
  rcases h.mem c hc with hdigit | rfl
  · refine ⟨?_, ?_⟩
    · rintro rfl
      rw [hdash] at hdigit
      cases hdigit
    · rintro rfl
      rw [hcolon] at hdigit
      cases hdigit
  · decide

/-- **What writes an integer** is read as that integer, and neither as a date nor as a fraction. -/
theorem integer_writesInteger (h : WritesInteger w n) (hrest : Ends rest) :
    (dateTime (w ++ rest)).IsTentative ∧ (float (w ++ rest)).IsTentative ∧
      IntegerReply n rest (integer (w ++ rest)) := by
  have hradix {m : Char} {p : Char → Bool} {cs ds : List Char} (h : Grouped p cs ds)
      (hdash : p '-' = false) (hcolon : p ':' = false) (hm : m ≠ '-' ∧ m ≠ ':') :
      ∀ c ∈ ('0' :: m :: cs).tail, c ≠ '-' ∧ c ≠ ':' :=
    List.forall_mem_cons.mpr ⟨hm, h.mem_ne hdash hcolon⟩
  cases h with
  | unsigned h =>
    obtain ⟨c, cs', ds', rfl, rfl, hc⟩ := h.1.exists_cons
    have hsign : takeSign (c :: cs' ++ rest) = (false, c :: cs' ++ rest) := takeSign_digit hc _
    refine ⟨dateTime_isTentative ?_ hrest, decimal_reads hsign h hrest ?_ rfl⟩
    · exact fun d hd => h.1.mem_ne (by decide) (by decide) d (List.mem_cons_of_mem _ hd)
    · rintro d r heq
      obtain ⟨rfl, hr⟩ := List.cons_eq_cons.mp heq
      -- a lone zero is followed by what ends a value, so by no letter of a radix
      rcases h.eq_zero_or with ⟨-, rfl, -⟩ | hzero
      · have hd : d ∈ rest.head? := by
          rw [show rest = d :: r from hr]
          rfl
        simpa [and_assoc] using
          hrest.head (q := fun c => c != 'x' && c != 'o' && c != 'b') (by decide) d hd
      · exact absurd rfl hzero
  | plus h | minus h =>
    exact ⟨dateTime_isTentative (h.1.mem_ne (by decide) (by decide)) hrest,
      decimal_reads rfl h hrest (by rintro c r ⟨⟩) rfl⟩
  | hexadecimal h | octal h | binary h =>
    exact ⟨dateTime_isTentative (hradix h (by decide) (by decide) (by decide)) hrest,
      float_mark_isTentative (by decide) _,
      radixInteger_reply (by decide) h (hrest.endsDigits (by decide)) _ _⟩

/-! ### Integers as values -/

theorem placed_integer_reply (start : Input) {r : Reply Int} (h : IntegerReply n rest r) :
    (Fits n ∧ placed start .integer r = .ok (.scalar (.integer n) ⟨start, rest⟩) rest) ∨
      (¬Fits n ∧ (placed start .integer r).IsRefusal) := by
  rcases h with ⟨hfits, rfl⟩ | ⟨hfits, place, complaint, rfl⟩
  · exact Or.inl ⟨hfits, rfl⟩
  · exact Or.inr ⟨hfits, place, complaint, rfl⟩

/-- An integer starts with a sign or a digit. -/
theorem WritesInteger.exists_cons (h : WritesInteger w n) :
    ∃ c cs, w = c :: cs ∧ (c = '+' ∨ c = '-' ∨ isDigit c = true) := by
  cases h with
  | unsigned h =>
    obtain ⟨c, cs, _, rfl, -, hc⟩ := h.1.exists_cons
    exact ⟨c, cs, rfl, Or.inr (Or.inr hc)⟩
  | plus h => exact ⟨'+', _, rfl, Or.inl rfl⟩
  | minus h => exact ⟨'-', _, rfl, Or.inr (Or.inl rfl)⟩
  | hexadecimal h | octal h | binary h => exact ⟨'0', _, rfl, Or.inr (Or.inr rfl)⟩

/-- A value that starts like a number or a date is read as one of them. -/
theorem value_numberOrDate {c : Char} (hc : c = '+' ∨ c = '-' ∨ isDigit c = true) (depth : Nat)
    (r : Input) : value depth (c :: r) = numberOrDate (c :: r) := by
  -- neither a digit nor a sign begins anything else
  have hne {d : Char} (hd : isDigit d = false) (hplus : d ≠ '+') (hminus : d ≠ '-') : c ≠ d := by
    rcases hc with rfl | rfl | hc
    · exact hplus.symm
    · exact hminus.symm
    · exact isDigit_ne hc hd
  have hquotes : ¬(c = quote ∨ c = apostrophe) :=
    not_or.mpr ⟨hne (by decide) (by decide) (by decide), hne (by decide) (by decide) (by decide)⟩
  have hbracket : c ≠ '[' := hne (by decide) (by decide) (by decide)
  have hbrace : c ≠ '\x7b' := hne (by decide) (by decide) (by decide)
  have hover (inner : Option (Input → Reply Item)) :
      valueOver inner (c :: r) = numberOrDate (c :: r) := by
    rw [valueOver.eq_def]
    dsimp only
    rw [if_neg hquotes, if_neg hbracket, if_neg hbrace, if_pos hc]
  cases depth with
  | zero => exact hover none
  | succ depth => exact hover (some (value depth))

/-- **What an integer may be read as**: itself where 64 bits with a sign hold it, or nothing. -/
def IntegerItem (n : Int) : Option Item → Prop
  | some item => Fits n ∧ ∃ span, item = .scalar (.integer n) span
  | none => ¬Fits n

/-- **What writes an integer is read as that integer** where 64 bits with a sign hold it, and refused
where they do not. -/
theorem readsTo_integer (h : WritesInteger w n) : ReadsTo 0 w (IntegerItem n) := by
  obtain ⟨c, cs, rfl, hc⟩ := h.exists_cons
  refine ⟨⟨c, cs, rfl, ?_⟩, fun {depth} _ {rest} hrest => ?_⟩
  · have hspace : isDigit ' ' = false ∧ isDigit '\t' = false := by decide
    rcases hc with rfl | rfl | hc
    · rfl
    · rfl
    · simp [isSpace, isDigit_ne hc hspace.1, isDigit_ne hc hspace.2]
  · obtain ⟨hdate, hfloat, hinteger⟩ := integer_writesInteger h hrest
    have hvalue : value depth (c :: cs ++ rest) =
        placed (c :: cs ++ rest) .integer (integer (c :: cs ++ rest)) := by
      have hnumber : value depth (c :: cs ++ rest) = numberOrDate (c :: cs ++ rest) :=
        value_numberOrDate hc depth (cs ++ rest)
      have hdate' : (placed (c :: cs ++ rest) (fun _ => .dateTime)
          (dateTime (c :: cs ++ rest))).IsTentative := hdate.andThen _
      have hfloat' : (placed (c :: cs ++ rest) .float (float (c :: cs ++ rest))).IsTentative :=
        hfloat.andThen _
      rw [hnumber, numberOrDate, hdate'.orElse, hfloat'.orElse]
    rw [hvalue]
    rcases placed_integer_reply (c :: cs ++ rest) hinteger with ⟨hfits, hok⟩ | ⟨hfits, hbad⟩
    · exact Or.inl ⟨_, hok, hfits, _, rfl⟩
    · exact Or.inr ⟨hbad, hfits⟩

/-! ### Printed integers -/

theorem digitChar_spec {k : Nat} (hk : k < 10) :
    isDigit (Nat.digitChar k) = true ∧ digitValue (Nat.digitChar k) = k ∧
      (Nat.digitChar k = '0' → k = 0) := by
  have hall : ∀ k < 10, isDigit (Nat.digitChar k) = true ∧ digitValue (Nat.digitChar k) = k ∧
      (Nat.digitChar k = '0' → k = 0) := by decide
  exact hall k hk

theorem valueOf_append (radix : Nat) (ds : List Char) (d : Char) :
    valueOf radix (ds ++ [d]) = valueOf radix ds * radix + digitValue d := by
  simp [← numberOf_eq_valueOf, numberOf]

/-- **The digits of a number as it is printed** write that number, and only zero starts with a zero. -/
theorem toDigits_spec (m : Nat) :
    (∀ c ∈ Nat.toDigits 10 m, isDigit c = true) ∧ valueOf 10 (Nat.toDigits 10 m) = m ∧
      ((Nat.toDigits 10 m).head? = some '0' → m = 0) := by
  induction m using Nat.strongRecOn with
  | ind m ih =>
    by_cases hm : m < 10
    · obtain ⟨hdigit, hvalue, hzero⟩ := digitChar_spec hm
      rw [Nat.toDigits_of_lt_base hm]
      refine ⟨by simpa using hdigit, ?_, fun h => hzero (by simpa using h)⟩
      rw [valueOf]
      simpa using hvalue
    · -- the last digit comes after those of the tenth part
      obtain ⟨hdigits, hvalue, hzero⟩ := ih (m / 10) (by omega)
      obtain ⟨hdigit, hlast, -⟩ := digitChar_spec (k := m % 10) (by omega)
      rw [Nat.toDigits_of_base_le (by decide) (by omega)]
      refine ⟨?_, ?_, fun h => ?_⟩
      · intro c hc
        rcases List.mem_append.mp hc with hc | hc
        · exact hdigits c hc
        · rw [List.mem_singleton.mp hc]
          exact hdigit
      · rw [valueOf_append, hvalue, hlast]
        omega
      · obtain ⟨c, ds, hfront⟩ := List.exists_cons_of_ne_nil (Nat.toDigits_ne_nil (n := m / 10) (b := 10))
        rw [hfront] at h hzero
        have := hzero h
        omega

theorem decimal_toString (m : Nat) :
    Decimal (toString m).toList (Nat.toDigits 10 m) ∧ valueOf 10 (Nat.toDigits 10 m) = m := by
  have htext : (toString m).toList = Nat.toDigits 10 m := by rw [Nat.toString_eq_repr, Nat.toList_repr]
  obtain ⟨hdigits, hvalue, hzero⟩ := toDigits_spec m
  rw [htext]
  refine ⟨⟨.of_all Nat.toDigits_ne_nil hdigits, fun h => ?_⟩, hvalue⟩
  rw [hzero h]
  rfl

/-- **An integer as it is printed is one of its spellings.** -/
theorem writesInteger_toString (n : Int) : WritesInteger (toString n).toList n := by
  cases n with
  | ofNat m =>
    obtain ⟨hdecimal, hvalue⟩ := decimal_toString m
    have hwrites := WritesInteger.unsigned hdecimal
    rwa [hvalue] at hwrites
  | negSucc m =>
    obtain ⟨hdecimal, hvalue⟩ := decimal_toString (m + 1)
    have hwrites := WritesInteger.minus hdecimal
    have htext : (toString (Int.negSucc m)).toList = '-' :: (toString (m + 1)).toList := by
      have hsign : toString (Int.negSucc m) = "-" ++ toString (m + 1) := rfl
      rw [hsign, String.toList_append]
      rfl
    rw [hvalue] at hwrites
    rwa [htext]

end QualityGate.Toml
