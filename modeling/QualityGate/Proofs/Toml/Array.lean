import Mathlib.Data.List.Forall2
import QualityGate.Proofs.Toml.Layout
/-!
## Arrays as they are written

The items of an array stand between brackets with commas between them and, if one likes, behind the last.
Around each item there may be spaces, line ends and comments.

* `skipFiller_append`: what stands around an item is passed over.
* `readsAs_array`: an array is read wherever it stands, if each of its items is.
-/

namespace QualityGate.Toml

variable {f cs rest v w : List Char} {vs : List (List Char)} {levels depth : Nat}

/-! ### What stands around the items -/

/-- **What may stand around the items of an array**: spaces, line ends, and comments that a line end
follows. -/
inductive Filler : List Char → Prop
  | nil : Filler []
  | space {c : Char} {f : List Char} (hc : isSpace c = true) (h : Filler f) : Filler (c :: f)
  | newline {nl f : List Char} (hnl : Newline nl) (h : Filler f) : Filler (nl ++ f)
  | comment {text nl f : List Char} (htext : ∀ c ∈ text, isCommentChar c = true) (hnl : Newline nl)
    (h : Filler f) : Filler ('#' :: (text ++ (nl ++ f)))

/-- What neither fills nor starts a comment. -/
def EndsFiller (rest : Input) : Prop :=
  ∀ c ∈ rest.head?, isSpace c = false ∧ c ≠ '#' ∧ c ≠ '\n' ∧ c ≠ '\r'

theorem afterNewline?_eq_none {c : Char} (hfeed : c ≠ '\n') (hreturn : c ≠ '\r') (r : Input) :
    afterNewline? (c :: r) = none := by
  unfold afterNewline?
  split
  · exact absurd (List.cons_eq_cons.mp ‹_›).1 hfeed
  · exact absurd (List.cons_eq_cons.mp ‹_›).1 hreturn
  · rfl

theorem skipFiller_ends (h : EndsFiller rest) : skipFiller rest = rest := by
  rw [skipFiller.eq_def]
  cases rest with
  | nil => rfl
  | cons c r =>
    obtain ⟨hspace, hmark, hfeed, hreturn⟩ := h c rfl
    have hafter := afterNewline?_eq_none hfeed hreturn r
    simp only [hspace, Bool.false_eq_true, if_false, if_neg hmark]
    split
    · rename_i after hnewline
      rw [hafter] at hnewline
      cases hnewline
    · rfl

theorem skipFiller_space {c : Char} (hc : isSpace c = true) (r : Input) :
    skipFiller (c :: r) = skipFiller r := by
  rw [skipFiller.eq_def]
  exact if_pos hc

theorem skipFiller_newline {nl : List Char} (hnl : Newline nl) (r : Input) :
    skipFiller (nl ++ r) = skipFiller r := by
  have hafter := afterNewline?_append hnl r
  obtain ⟨c, nl, rfl, hc⟩ := hnl.exists_cons
  have hplain : isSpace c = false ∧ c ≠ '#' := by rcases hc with rfl | rfl <;> decide
  rw [List.cons_append] at hafter ⊢
  rw [skipFiller.eq_def]
  simp only [hplain.1, Bool.false_eq_true, if_false, if_neg hplain.2]
  split
  · rename_i after hnewline
    rw [hafter] at hnewline
    cases hnewline
    rfl
  · rename_i hnewline
    rw [hafter] at hnewline
    cases hnewline

/-- A comment is passed over with its line end. -/
theorem skipFiller_comment {text nl : List Char} (htext : ∀ c ∈ text, isCommentChar c = true)
    (hnl : Newline nl) (r : Input) : skipFiller ('#' :: (text ++ (nl ++ r))) = skipFiller r := by
  have hafter : afterNewline? (skipComment ('#' :: (text ++ (nl ++ r)))) = some r := by
    have hskip : skipComment ('#' :: (text ++ (nl ++ r))) = nl ++ r := by
      obtain ⟨c, nl, rfl, hc⟩ := hnl.exists_cons
      refine dropWhile_exact htext ?_
      rintro d ⟨⟩
      rcases hc with rfl | rfl <;> rfl
    rw [hskip, afterNewline?_append hnl]
  have hspace : isSpace '#' = false := by decide
  rw [skipFiller.eq_def]
  simp only [hspace, Bool.false_eq_true, if_false, if_true]
  split
  · rename_i after hnewline
    rw [hafter] at hnewline
    cases hnewline
    rfl
  · rename_i hnewline
    rw [hafter] at hnewline
    cases hnewline

/-- **What stands around an item is passed over.** -/
theorem skipFiller_append (hf : Filler f) (hrest : EndsFiller rest) : skipFiller (f ++ rest) = rest := by
  induction hf with
  | nil => exact skipFiller_ends hrest
  | space hc _ ih => rw [List.cons_append, skipFiller_space hc, ih]
  | newline hnl _ ih => rw [List.append_assoc, skipFiller_newline hnl, ih]
  | comment htext hnl _ ih =>
    rw [List.cons_append, List.append_assoc, List.append_assoc, skipFiller_comment htext hnl, ih]

/-- A value may end before it. -/
theorem Ends.filler_append (hf : Filler f) (hrest : Ends rest) : Ends (f ++ rest) := by
  cases hf with
  | nil => exact hrest
  | @space c f hc _ =>
    have hends : Ends ([c] ++ (f ++ rest)) := by
      rw [isSpace, decide_eq_true_eq] at hc
      rintro d ⟨⟩
      rcases hc with rfl | rfl <;> decide
    exact hends
  | newline hnl _ =>
    obtain ⟨c, nl, rfl, hc⟩ := hnl.exists_cons
    rintro d ⟨⟩
    rcases hc with rfl | rfl <;> decide
  | comment _ _ _ =>
    rintro d ⟨⟩
    decide

/-! ### Arrays -/

/-- **The items of an array as they are written**, up to the closing bracket. -/
inductive ItemTexts : List (List Char) → List Char → Prop
  | last {v f f' : List Char} (hf : Filler f) (hf' : Filler f') : ItemTexts [v] (f ++ (v ++ f'))
  | comma {v f f' f'' : List Char} (hf : Filler f) (hf' : Filler f') (hf'' : Filler f'') :
    ItemTexts [v] (f ++ (v ++ (f' ++ ',' :: f'')))
  | next {v f f' : List Char} {vs : List (List Char)} {cs : List Char} (hf : Filler f)
    (hf' : Filler f') (h : ItemTexts vs cs) : ItemTexts (v :: vs) (f ++ (v ++ (f' ++ ',' :: cs)))

/-- **An array as it is written.** -/
inductive ArrayText : List (List Char) → List Char → Prop
  | empty {f : List Char} (hf : Filler f) : ArrayText [] ('[' :: (f ++ [']']))
  | items {vs : List (List Char)} {cs : List Char} (h : ItemTexts vs cs) :
    ArrayText vs ('[' :: (cs ++ [']']))

/-- No value begins like this. -/
theorem value_tentative {c : Char} (hc : c = ']' ∨ c = '#' ∨ c = '\n' ∨ c = '\r') (depth : Nat)
    (r : Input) : value depth (c :: r) = .tentative (c :: r) noValue := by
  rcases hc with rfl | rfl | rfl | rfl <;> cases depth <;> rfl

/-- What is read as a value fills nothing. -/
theorem ReadsAs.endsFiller {P : Item → Prop} (h : ReadsAs levels v P) (rest : Input) :
    EndsFiller (v ++ rest) := by
  obtain ⟨item, hread, -⟩ := h.value_append (Nat.le_refl levels) (show Ends [] from nofun)
  obtain ⟨c, cs, rfl, hspace⟩ := h.head
  have hne {e : Char} (he : e = ']' ∨ e = '#' ∨ e = '\n' ∨ e = '\r') : c ≠ e := by
    rintro rfl
    rw [List.cons_append, value_tentative he] at hread
    cases hread
  rintro d ⟨⟩
  exact ⟨hspace, hne (by decide), hne (by decide), hne (by decide)⟩

theorem ends_bracket (rest : Input) : Ends (']' :: rest) := by
  rintro c ⟨⟩
  decide

theorem endsFiller_comma (rest : Input) : EndsFiller (',' :: rest) := by
  rintro c ⟨⟩
  decide

theorem endsFiller_bracket (rest : Input) : EndsFiller (']' :: rest) := by
  rintro c ⟨⟩
  decide

/-- One item is read with what stands around it. -/
theorem arrayItem_reads {P : Item → Prop} (hv : ReadsAs levels v P) (hlevels : levels ≤ depth)
    {f' : List Char} (hf : Filler f) (hf' : Filler f') (hends : Ends rest) (hrest : EndsFiller rest) :
    ∃ item, arrayItem (value depth) (f ++ (v ++ (f' ++ rest))) = .ok item rest ∧ P item := by
  obtain ⟨item, hread, hitem⟩ := hv.value_append hlevels (hends.filler_append hf')
  refine ⟨item, ?_, hitem⟩
  rw [arrayItem, skipFiller_append hf (hv.endsFiller _), hread, Reply.andThen_ok,
    skipFiller_append hf' hrest]

/-- Where the array ends no item is read. -/
theorem arrayItem_tentative (hf : Filler f) (depth : Nat) (rest : Input) :
    (arrayItem (value depth) (f ++ ']' :: rest)).IsTentative := by
  rw [arrayItem, skipFiller_append hf (endsFiller_bracket rest), value_tentative (Or.inl rfl)]
  exact ⟨_, _, rfl⟩

/-- What is left of an array behind its last item. -/
inductive Closes (rest : Input) : Input → Prop
  | bracket : Closes rest (']' :: rest)
  | comma {f : List Char} (hf : Filler f) : Closes rest (',' :: (f ++ ']' :: rest))

section Items

variable {α : Type} {P : α → Item → Prop} {xs : List α}

/-- Reading on behind the last item ends with the array. -/
theorem moreArrayItems_closes (acc : List Item) (n : Nat) {tail : Input} (h : Closes rest tail) :
    moreArrayItems (value depth) acc n tail = .ok acc.reverse tail := by
  cases n with
  | zero => rfl
  | succ n =>
    cases h with
    | bracket => rfl
    | comma hf =>
      obtain ⟨place, complaint, hitem⟩ := arrayItem_tentative hf depth rest
      rw [moreArrayItems, hitem]

/-- **The items behind a comma are read**, whatever bound there is on their number, as long as it exceeds
the length of the text. -/
theorem moreArrayItems_itemTexts (hlevels : levels ≤ depth) (h : ItemTexts vs cs)
    (hread : List.Forall₂ (fun x v => ReadsAs levels v (P x)) xs vs) (acc : List Item) {n : Nat}
    (hn : cs.length < n) (rest : Input) :
    ∃ items tail, moreArrayItems (value depth) acc n (',' :: (cs ++ ']' :: rest)) =
        .ok (acc.reverse ++ items) tail ∧ Closes rest tail ∧ List.Forall₂ P xs items := by
  induction h generalizing xs acc n with
  | last hf hf' =>
    obtain ⟨n, rfl⟩ := Nat.exists_eq_succ_of_ne_zero (Nat.ne_zero_of_lt hn)
    obtain _ | ⟨hv, _ | _⟩ := hread
    obtain ⟨item, hitem, hP⟩ := arrayItem_reads hv hlevels hf hf' (ends_bracket rest)
      (endsFiller_bracket rest)
    refine ⟨[item], ']' :: rest, ?_, .bracket, .cons hP .nil⟩
    simp only [List.append_assoc]
    rw [moreArrayItems, hitem]
    simp only [moreArrayItems_closes _ n .bracket, List.reverse_cons]
  | comma hf hf' hf'' =>
    obtain ⟨n, rfl⟩ := Nat.exists_eq_succ_of_ne_zero (Nat.ne_zero_of_lt hn)
    obtain _ | ⟨hv, _ | _⟩ := hread
    obtain ⟨item, hitem, hP⟩ := arrayItem_reads hv hlevels hf hf' (ends_comma _) (endsFiller_comma _)
    refine ⟨[item], _, ?_, .comma hf'', .cons hP .nil⟩
    simp only [List.append_assoc, List.cons_append]
    rw [moreArrayItems, hitem]
    simp only [moreArrayItems_closes _ n (.comma hf''), List.reverse_cons]
  | @next v f f' vs cs hf hf' h ih =>
    obtain ⟨n, rfl⟩ := Nat.exists_eq_succ_of_ne_zero (Nat.ne_zero_of_lt hn)
    obtain _ | ⟨hv, hmore⟩ := hread
    obtain ⟨item, hitem, hP⟩ := arrayItem_reads hv hlevels hf hf' (ends_comma (cs ++ ']' :: rest))
      (endsFiller_comma (cs ++ ']' :: rest))
    -- the bound shrinks by one with each comma, and the text by at least that
    have hshorter : cs.length < n := by
      simp only [List.length_append, List.length_cons] at hn
      omega
    obtain ⟨items, tail, hitems, htail, hall⟩ := ih hmore (item :: acc) hshorter
    refine ⟨item :: items, tail, ?_, htail, .cons hP hall⟩
    simp only [List.append_assoc, List.cons_append]
    rw [moreArrayItems, hitem]
    simp only [hitems, List.reverse_cons, List.append_assoc, List.singleton_append]

/-- Behind the last item a comma and what fills are passed over. -/
theorem arrayItems_of_first {text r tail : Input} {item : Item} {items : List Item}
    (hitem : arrayItem (value depth) text = .ok item r)
    (hmore : moreArrayItems (value depth) [item] r.length r = .ok items tail)
    (htail : Closes rest tail) : arrayItems (value depth) text = .ok items (']' :: rest) := by
  rw [arrayItems, hitem]
  simp only [hmore, Reply.andThen_ok]
  cases htail with
  | bracket => exact congrArg (Reply.ok items) (skipFiller_ends (endsFiller_bracket rest))
  | comma hf => exact congrArg (Reply.ok items) (skipFiller_append hf (endsFiller_bracket rest))

/-- **The items of an array are read.** -/
theorem arrayItems_itemTexts (hlevels : levels ≤ depth) (h : ItemTexts vs cs)
    (hread : List.Forall₂ (fun x v => ReadsAs levels v (P x)) xs vs) (rest : Input) :
    ∃ items, arrayItems (value depth) (cs ++ ']' :: rest) = .ok items (']' :: rest) ∧
      List.Forall₂ P xs items := by
  cases h with
  | last hf hf' =>
    obtain _ | ⟨hv, _ | _⟩ := hread
    obtain ⟨item, hitem, hP⟩ := arrayItem_reads hv hlevels hf hf' (ends_bracket rest)
      (endsFiller_bracket rest)
    simp only [List.append_assoc]
    exact ⟨_, arrayItems_of_first hitem (moreArrayItems_closes _ _ .bracket) .bracket, .cons hP .nil⟩
  | comma hf hf' hf'' =>
    obtain _ | ⟨hv, _ | _⟩ := hread
    obtain ⟨item, hitem, hP⟩ := arrayItem_reads hv hlevels hf hf' (ends_comma _) (endsFiller_comma _)
    simp only [List.append_assoc, List.cons_append]
    exact ⟨_, arrayItems_of_first hitem (moreArrayItems_closes _ _ (.comma hf'')) (.comma hf''),
      .cons hP .nil⟩
  | @next v f f' vs cs hf hf' h =>
    obtain _ | ⟨hv, hmore⟩ := hread
    obtain ⟨item, hitem, hP⟩ := arrayItem_reads hv hlevels hf hf' (ends_comma (cs ++ ']' :: rest))
      (endsFiller_comma (cs ++ ']' :: rest))
    -- the reader takes the length of the text for its bound, which the comma alone makes large enough
    have hbound : cs.length < (',' :: (cs ++ ']' :: rest)).length := by
      simp only [List.length_cons, List.length_append]
      omega
    obtain ⟨items, tail, hitems, htail, hall⟩ :=
      moreArrayItems_itemTexts hlevels h hmore [item] hbound rest
    simp only [List.append_assoc, List.cons_append]
    exact ⟨_, arrayItems_of_first hitem hitems htail, .cons hP hall⟩

/-- A closing bracket that stands first is no different from one behind what fills. -/
theorem arrayItems_empty {f : List Char} (hf : Filler f) (rest : Input) :
    arrayItems (value depth) (f ++ ']' :: rest) = .ok [] (']' :: rest) := by
  obtain ⟨place, complaint, hitem⟩ := arrayItem_tentative hf depth rest
  rw [arrayItems, hitem]
  simp only [skipFiller_append hf (endsFiller_bracket rest)]

/-- **An array is read** behind its opening bracket, once its items are. -/
theorem arrayRest_of_items {start text : Input} {items : List Item}
    (h : arrayItems (value depth) text = .ok items (']' :: rest)) :
    arrayRest (value depth) start text = .ok (.array items ⟨start, rest⟩) rest := by
  unfold arrayRest
  dsimp only
  split
  · rename_i r
    have hempty : arrayItems (value depth) (']' :: r) = .ok [] (']' :: r) := arrayItems_empty .nil r
    rw [hempty] at h
    cases h
    rfl
  · rw [h]
    rfl

theorem value_bracket (depth : Nat) (r : Input) :
    value (depth + 1) ('[' :: r) = arrayRest (value depth) ('[' :: r) r := rfl

/-- An item is an array whose items satisfy `P`, each for its own `x`. -/
def IsArray (P : α → Item → Prop) (xs : List α) (item : Item) : Prop :=
  ∃ items span, item = .array items span ∧ List.Forall₂ P xs items

/-- **An array is read wherever it stands**, one level further down, if each of its items is read. -/
theorem readsAs_array (h : ArrayText vs w)
    (hread : List.Forall₂ (fun x v => ReadsAs levels v (P x)) xs vs) :
    ReadsAs (levels + 1) w (IsArray P xs) := by
  have hhead : ∃ c cs, w = c :: cs ∧ isSpace c = false := by
    cases h <;> exact ⟨_, _, rfl, rfl⟩
  refine readsAs_of_value hhead fun depth hdepth rest _ => ?_
  obtain ⟨depth, rfl⟩ := Nat.exists_eq_succ_of_ne_zero (Nat.ne_zero_of_lt hdepth)
  cases h with
  | empty hf =>
    obtain _ | _ := hread
    simp only [List.cons_append, List.append_assoc, List.nil_append, value_bracket]
    exact ⟨_, arrayRest_of_items (arrayItems_empty hf rest), [], _, rfl, .nil⟩
  | items h =>
    obtain ⟨items, hitems, hall⟩ :=
      arrayItems_itemTexts (Nat.le_of_succ_le_succ hdepth) h hread rest
    simp only [List.cons_append, List.append_assoc, List.nil_append, value_bracket]
    exact ⟨_, arrayRest_of_items hitems, items, _, rfl, hall⟩

end Items

end QualityGate.Toml
