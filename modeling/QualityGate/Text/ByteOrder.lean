import QualityGate.Text.Utf8
/-!
The order of byte strings, byte by byte with a shorter string before its extensions, and the cutting
of a byte string: at every separator (`splitBytes`), or at the first one only, where what stands before
it is told by `takeWhile` and the rest by `dropWhile`.
-/

namespace QualityGate.Text

/-! ### Order -/

/-- **Whether one byte string comes strictly before another.** -/
def before : Bytes → Bytes → Bool
  | [], [] => false
  | [], _ :: _ => true
  | _ :: _, [] => false
  | a :: as, b :: bs => if a < b then true else if b < a then false else before as bs

/-- **The order of byte strings is the lexicographic one.** -/
theorem before_iff_lt {a b : Bytes} : before a b = true ↔ a < b := by
  induction a generalizing b with
  | nil => cases b <;> simp [before]
  | cons x a ih =>
    cases b with
    | nil => simp [before]
    | cons y b =>
      rw [before, List.cons_lt_cons_iff, ← ih]
      by_cases hxy : x < y
      · simp [hxy]
      · by_cases hyx : y < x
        · have hne : x ≠ y := fun h => UInt8.lt_irrefl y (h ▸ hyx)
          simp [hxy, hyx, hne]
        · have heq : x = y := UInt8.le_antisymm (UInt8.not_lt.mp hyx) (UInt8.not_lt.mp hxy)
          simp [heq, UInt8.lt_irrefl]

theorem before_irrefl (a : Bytes) : before a a = false := by
  rw [← Bool.not_eq_true, before_iff_lt]
  exact List.lt_irrefl a

theorem before_trans {a b c : Bytes} (h1 : before a b = true) (h2 : before b c = true) :
    before a c = true :=
  before_iff_lt.mpr (List.lt_trans (before_iff_lt.mp h1) (before_iff_lt.mp h2))

/-- Two strings neither of which comes first are equal. -/
theorem eq_of_not_before {a b : Bytes} (h1 : before a b = false) (h2 : before b a = false) :
    a = b := by
  rw [← Bool.not_eq_true, before_iff_lt] at h1 h2
  exact List.le_antisymm h2 h1

/-! ### Cutting -/

/-- **The pieces between separators**, empty ones included; there is one more than separators. -/
def splitBytes (sep : UInt8) : Bytes → List Bytes
  | [] => [[]]
  | b :: r =>
    if b = sep then [] :: splitBytes sep r
    else
      match splitBytes sep r with
      | [] => [[b]]
      | p :: ps => (b :: p) :: ps

/-- Pieces joined by a separator. -/
def joinBytes (sep : UInt8) : List Bytes → Bytes
  | [] => []
  | [p] => p
  | p :: q :: ps => p ++ sep :: joinBytes sep (q :: ps)

theorem splitBytes_ne_nil (sep : UInt8) (s : Bytes) : splitBytes sep s ≠ [] := by
  cases s with
  | nil => simp [splitBytes]
  | cons b r => unfold splitBytes; split <;> (try split) <;> simp

/-- **Joining undoes cutting.** -/
theorem joinBytes_splitBytes (sep : UInt8) (s : Bytes) : joinBytes sep (splitBytes sep s) = s := by
  induction s with
  | nil => rfl
  | cons b r ih =>
    unfold splitBytes
    split
    · rename_i h
      cases hs : splitBytes sep r with
      | nil => exact absurd hs (splitBytes_ne_nil sep r)
      | cons p ps => rw [hs] at ih; simp [joinBytes, ih, h]
    · split
      · rename_i hs; exact absurd hs (splitBytes_ne_nil sep r)
      · rename_i p ps hs
        rw [hs] at ih
        cases ps <;> simp_all [joinBytes]

/-- No piece holds the separator. -/
theorem not_mem_of_mem_splitBytes {sep : UInt8} {s p : Bytes} (h : p ∈ splitBytes sep s) :
    sep ∉ p := by
  induction s generalizing p with
  | nil => simp [splitBytes] at h; subst h; simp
  | cons b r ih =>
    unfold splitBytes at h
    split at h
    · rcases List.mem_cons.1 h with rfl | h
      · simp
      · exact ih h
    · rename_i hb
      split at h
      · rename_i hs; exact absurd hs (splitBytes_ne_nil sep r)
      · rename_i q qs hs
        rcases List.mem_cons.1 h with rfl | h
        · have := ih (p := q) (by rw [hs]; simp)
          simp only [List.mem_cons, not_or]
          exact ⟨fun e => hb e.symm, this⟩
        · exact ih (by rw [hs]; simp [h])

/-- Where there is no separator there is one piece. -/
theorem splitBytes_of_not_mem {sep : UInt8} {s : Bytes} (h : sep ∉ s) : splitBytes sep s = [s] := by
  induction s with
  | nil => rfl
  | cons b r ih =>
    rw [List.mem_cons, not_or] at h
    rw [splitBytes, if_neg (Ne.symm h.1), ih h.2]

/-- **A separator cuts**: the pieces are those before it and those after it. -/
theorem splitBytes_append_separator (sep : UInt8) (s rest : Bytes) :
    splitBytes sep (s ++ sep :: rest) = splitBytes sep s ++ splitBytes sep rest := by
  induction s with
  | nil => exact if_pos rfl
  | cons b r ih =>
    rw [List.cons_append, splitBytes, splitBytes, ih]
    split
    · rfl
    · cases hpieces : splitBytes sep r with
      | nil => exact absurd hpieces (splitBytes_ne_nil sep r)
      | cons p ps => rfl

/-- **What stands before the first separator is the first piece.** -/
theorem splitBytes_append {sep : UInt8} {p : Bytes} (h : sep ∉ p) (rest : Bytes) :
    splitBytes sep (p ++ sep :: rest) = p :: splitBytes sep rest := by
  rw [splitBytes_append_separator, splitBytes_of_not_mem h]
  rfl

/-! ### Up to a mark -/

theorem takeWhile_append_mark {mark : UInt8} {s : Bytes} (h : mark ∉ s) (rest : Bytes) :
    (s ++ mark :: rest).takeWhile (· ≠ mark) = s := by
  induction s with
  | nil => simp
  | cons b s ih =>
    rw [List.mem_cons, not_or] at h
    have hb : b ≠ mark := fun e => h.1 e.symm
    rw [List.cons_append, List.takeWhile_cons_of_pos (by simpa using hb), ih h.2]

theorem dropWhile_append_mark {mark : UInt8} {s : Bytes} (h : mark ∉ s) (rest : Bytes) :
    (s ++ mark :: rest).dropWhile (· ≠ mark) = mark :: rest := by
  induction s with
  | nil => simp
  | cons b s ih =>
    rw [List.mem_cons, not_or] at h
    have hb : b ≠ mark := fun e => h.1 e.symm
    rw [List.cons_append, List.dropWhile_cons_of_pos (by simpa using hb), ih h.2]

theorem dropWhile_without_mark {mark : UInt8} {s : Bytes} (h : mark ∉ s) :
    s.dropWhile (· ≠ mark) = [] := by
  induction s with
  | nil => rfl
  | cons b s ih =>
    rw [List.mem_cons, not_or] at h
    have hb : b ≠ mark := fun e => h.1 e.symm
    rw [List.dropWhile_cons_of_pos (by simpa using hb), ih h.2]

end QualityGate.Text
