import Mathlib.Data.List.Basic
import Mathlib.Data.List.TakeWhile
import QualityGate.Text.Blank
/-!
## The lines of a text

Every text is some ended lines, each with its line feed, and then what follows the last line feed
(`exists_ended`). `lines_ended_append` and `lines_of_not_mem` tell the lines of the two parts, and so the
lines of any two texts with a line feed between them:

* `lines_joined`: they are those of the first and then those of the second,
* `lines_joined_of_feed`: unless the first one ends with a line feed, for then an empty line comes in,
* `lines_joined_of_return`: or with a carriage return, for then its last line loses it.
-/

namespace QualityGate.Text

/-! ### One line -/

/-- What stands before the first line feed is the first line. -/
theorem lines_append_feed {l : List Char} (h : '\n' ∉ l) (rest : List Char) :
    lines (l ++ '\n' :: rest) = dropReturn l :: lines rest := by
  have hall : ∀ c ∈ l, decide (c ≠ '\n') = true := by
    intro c hc
    rw [decide_eq_true_eq]
    rintro rfl
    exact h hc
  -- the reader matches on the first character, which is one of the line or its end
  obtain ⟨c, t, hs⟩ := List.exists_cons_of_ne_nil
    (List.append_ne_nil_of_right_ne_nil l (List.cons_ne_nil '\n' rest))
  have htake : (c :: t).takeWhile (· ≠ '\n') = l := by
    rw [← hs, List.takeWhile_append_of_pos hall]
    simp
  have hdrop : (c :: t).dropWhile (· ≠ '\n') = '\n' :: rest := by
    rw [← hs, List.dropWhile_append_of_pos hall]
    simp
  rw [hs, lines.eq_def]
  dsimp only
  split
  · rename_i hnil
    rw [hdrop] at hnil
    cases hnil
  · rename_i hcons
    rw [hdrop] at hcons
    cases hcons
    rw [htake]

/-- A text without a line feed is one line, unless it is empty. -/
theorem lines_of_not_mem {l : List Char} (h : '\n' ∉ l) : lines l = if l = [] then [] else [l] := by
  cases l with
  | nil => simp [lines]
  | cons c t =>
    have hall : ∀ d ∈ c :: t, decide (d ≠ '\n') = true := by
      intro d hd
      rw [decide_eq_true_eq]
      rintro rfl
      exact h hd
    rw [lines.eq_def]
    dsimp only
    split
    · rw [List.takeWhile_eq_self_iff.mpr hall]
      simp
    · rename_i hcons
      rw [List.dropWhile_eq_nil_iff.mpr hall] at hcons
      cases hcons

/-! ### Ended lines -/

/-- **Lines, each with its line feed.** -/
def ended (ls : List (List Char)) : List Char :=
  ls.flatMap fun l => l ++ ['\n']

theorem lines_ended_append {ls : List (List Char)} (h : ∀ l ∈ ls, '\n' ∉ l) (rest : List Char) :
    lines (ended ls ++ rest) = ls.map dropReturn ++ lines rest := by
  induction ls with
  | nil => rfl
  | cons l ls ih =>
    obtain ⟨hl, hls⟩ := List.forall_mem_cons.mp h
    have hfirst : ended (l :: ls) ++ rest = l ++ '\n' :: (ended ls ++ rest) := by
      simp [ended]
    rw [hfirst, lines_append_feed hl, ih hls]
    rfl

/-- **Every text is some ended lines and what follows them.** -/
theorem exists_ended (s : List Char) :
    ∃ ls last, (∀ l ∈ ls, '\n' ∉ l) ∧ '\n' ∉ last ∧ s = ended ls ++ last := by
  induction s with
  | nil => exact ⟨[], [], by simp, by simp, rfl⟩
  | cons c s ih =>
    obtain ⟨ls, last, hls, hlast, rfl⟩ := ih
    by_cases hc : c = '\n'
    · exact ⟨[] :: ls, last, List.forall_mem_cons.mpr ⟨by simp, hls⟩, hlast, by simp [ended, hc]⟩
    · -- the character belongs to the first line, which may be the one that is not ended
      have hmem {l : List Char} (hl : '\n' ∉ l) : '\n' ∉ c :: l := by
        rw [List.mem_cons, not_or]
        exact ⟨Ne.symm hc, hl⟩
      cases ls with
      | nil => exact ⟨[], c :: last, hls, hmem hlast, rfl⟩
      | cons l ls =>
        obtain ⟨hl, hls⟩ := List.forall_mem_cons.mp hls
        exact ⟨(c :: l) :: ls, last, List.forall_mem_cons.mpr ⟨hmem hl, hls⟩, hlast, rfl⟩

theorem getLast?_ended_append {ls : List (List Char)} {last : List Char} (h : '\n' ∉ last)
    (hne : ended ls ++ last ≠ []) :
    (ended ls ++ last).getLast? = some '\n' ↔ last = [] := by
  constructor
  · intro hfeed
    refine Decidable.byContradiction fun hlast => h ?_
    rw [List.getLast?_append_of_ne_nil _ hlast] at hfeed
    exact List.mem_of_getLast? hfeed
  · rintro rfl
    have hls : ls ≠ [] := by
      rintro rfl
      exact hne rfl
    obtain ⟨front, l, rfl⟩ := List.eq_nil_or_concat ls |>.resolve_left hls
    simp [ended]

/-! ### Two texts with a line feed between -/

/-- The lines of two texts with a line feed between them, by the ended lines of the first one. -/
theorem lines_ended_joined {ls : List (List Char)} (hls : ∀ l ∈ ls, '\n' ∉ l) {last : List Char}
    (hlast : '\n' ∉ last) (rest : List Char) :
    lines (ended ls ++ last ++ '\n' :: rest) =
      ls.map dropReturn ++ dropReturn last :: lines rest := by
  rw [List.append_assoc, lines_ended_append hls, lines_append_feed hlast]

variable {s : List Char}

/-- **Two texts with a line feed between them have the lines of the one and of the other**, if the first
one ends with neither a line feed nor a carriage return. -/
theorem lines_joined (hne : s ≠ []) (hfeed : s.getLast? ≠ some '\n') (hreturn : s.getLast? ≠ some '\r')
    (rest : List Char) : lines (s ++ '\n' :: rest) = lines s ++ lines rest := by
  obtain ⟨ls, last, hls, hlast, rfl⟩ := exists_ended s
  rw [ne_eq, getLast?_ended_append hlast hne] at hfeed
  rw [List.getLast?_append_of_ne_nil _ hfeed] at hreturn
  have hkept : dropReturn last = last := if_neg hreturn
  rw [lines_ended_joined hls hlast, lines_ended_append hls, lines_of_not_mem hlast, if_neg hfeed, hkept,
    List.append_assoc]
  rfl

/-- **After a line feed an empty line comes in.** -/
theorem lines_joined_of_feed (hfeed : s.getLast? = some '\n') (rest : List Char) :
    lines (s ++ '\n' :: rest) = lines s ++ [] :: lines rest := by
  have hne : s ≠ [] := by
    rintro rfl
    cases hfeed
  obtain ⟨ls, last, hls, hlast, rfl⟩ := exists_ended s
  rw [getLast?_ended_append hlast hne] at hfeed
  subst hfeed
  rw [lines_ended_joined hls hlast, lines_ended_append hls, lines_of_not_mem hlast, if_pos rfl,
    List.append_nil]
  rfl

/-- **A carriage return at the end is lost**: with the line feed after it, it ends the line. -/
theorem lines_joined_of_return (hreturn : s.getLast? = some '\r') (rest : List Char) :
    ∃ front last, lines s = front ++ [last ++ ['\r']] ∧
      lines (s ++ '\n' :: rest) = front ++ last :: lines rest := by
  obtain ⟨ls, last, hls, hlast, rfl⟩ := exists_ended s
  have hne : ended ls ++ last ≠ [] := by
    intro h
    rw [h] at hreturn
    cases hreturn
  -- the carriage return stands behind the last line feed
  have hlastne : last ≠ [] := by
    rw [ne_eq, ← getLast?_ended_append hlast hne, hreturn]
    decide
  rw [List.getLast?_append_of_ne_nil _ hlastne] at hreturn
  obtain ⟨l, rfl⟩ := List.getLast?_eq_some_iff.mp hreturn
  have hdropped : dropReturn (l ++ ['\r']) = l := by
    simp [dropReturn]
  refine ⟨ls.map dropReturn, l, ?_, ?_⟩
  · rw [lines_ended_append hls, lines_of_not_mem hlast, if_neg hlastne]
  · rw [lines_ended_joined hls hlast, hdropped]

end QualityGate.Text
