import QualityGate.Host.Path
/-!
## Paths made of plain names

A plain name is a component that stands for itself, neither empty nor one of the dots. Joining such
names to a path only puts bytes behind it, and the parent of the result takes the last name away again.

* `parent?_append`: in an absolute path, the parent of a plain name is what stands before it.
* `exists_join_eq_append`: joining to an absolute path writes the other one behind it.
-/

namespace QualityGate.Host.Path

/-- **A name that stands for itself** as a component of a path. -/
def IsPlain (name : Bytes) : Prop :=
  name ≠ [] ∧ name ≠ [dot] ∧ name ≠ [dot, dot] ∧ slash ∉ name

instance : DecidablePred IsPlain := fun name =>
  inferInstanceAs (Decidable (name ≠ [] ∧ name ≠ [dot] ∧ name ≠ [dot, dot] ∧ slash ∉ name))

/-- Names, each with a slash behind it. -/
def below (names : List Bytes) : Bytes :=
  names.flatMap (· ++ [slash])

theorem mem_below {names : List Bytes} {b : UInt8} (h : b ∈ below names) :
    (∃ name ∈ names, b ∈ name) ∨ b = slash := by
  obtain ⟨name, hname, hb⟩ := List.mem_flatMap.mp h
  rcases List.mem_append.mp hb with hb | hb
  · exact Or.inl ⟨name, hname, hb⟩
  · exact Or.inr (List.mem_singleton.mp hb)

/-- Joining writes a slash behind each name but the last. -/
theorem joinBytes_append (names : List Bytes) (last : Bytes) :
    Text.joinBytes slash (names ++ [last]) = below names ++ last := by
  induction names with
  | nil => rfl
  | cons name names ih =>
    have hnext : ∃ q qs, names ++ [last] = q :: qs := by
      cases names with
      | nil => exact ⟨last, [], rfl⟩
      | cons q qs => exact ⟨q, qs ++ [last], rfl⟩
    obtain ⟨q, qs, hq⟩ := hnext
    rw [List.cons_append, hq, Text.joinBytes, ← hq, ih]
    simp [below]

/-! ### Parents -/

/-- Nothing is trimmed where a plain name stands at the end. -/
theorem trimReversed_of_isPlain {name : Bytes} (h : IsPlain name) (rest : Bytes) :
    trimReversed (name.reverse ++ rest) = name.reverse ++ rest := by
  obtain ⟨hne, hdot, -, hslash⟩ := h
  have hmem : ∀ b, b ∈ name.reverse → b ≠ slash := by
    rintro b hb rfl
    exact hslash (List.mem_reverse.mp hb)
  cases hrev : name.reverse with
  | nil => exact absurd (List.reverse_eq_nil_iff.mp hrev) hne
  | cons b r =>
    rw [hrev] at hmem
    rw [List.cons_append, trimReversed.eq_def]
    simp only [if_neg (hmem b List.mem_cons_self)]
    split
    · rename_i hb
      cases r with
      | nil =>
        rw [hb, List.reverse_eq_iff] at hrev
        exact absurd hrev hdot
      | cons c r2 =>
        exact if_neg (hmem c (List.mem_cons_of_mem _ List.mem_cons_self))
    · rfl

/-- A slash at the end is trimmed. -/
theorem trimReversed_slash (s : Bytes) : trimReversed (slash :: s) = trimReversed s := by
  rw [trimReversed.eq_def]
  exact if_pos rfl

/-- **The parent of a plain name** that stands behind another one in an absolute path. -/
theorem parent?_append {base n f : Bytes} (hbase : isAbsolute base = true) (hn : IsPlain n)
    (hf : IsPlain f) : parent? (base ++ n ++ slash :: f) = some (base ++ n) := by
  cases base with
  | nil => cases hbase
  | cons b base =>
    have habs : isAbsolute (b :: base ++ n ++ slash :: f) = true := hbase
    have hbody : ((b :: base ++ n ++ slash :: f).drop 1).reverse =
        f.reverse ++ slash :: (n.reverse ++ base.reverse) := by simp
    -- behind the last slash there is only the plain name
    have hkept : (f.reverse ++ slash :: (n.reverse ++ base.reverse)).dropWhile (· ≠ slash) =
        slash :: (n.reverse ++ base.reverse) := by
      rw [List.dropWhile_append_of_pos]
      · simp
      · intro c hc
        have hne : c ≠ slash := by
          rintro rfl
          exact hf.2.2.2 (List.mem_reverse.mp hc)
        simpa using hne
    rw [parent?]
    simp only [bodyStart, habs, Bool.true_or, ↓reduceIte, hbody, trimReversed_of_isPlain hf]
    split
    · rename_i hnil
      exact absurd (congrArg List.length hnil) (by simp)
    · rename_i c r hcons
      rw [← hcons, hkept, trimReversed_slash, trimReversed_of_isPlain hn]
      simp

/-! ### Joining -/

theorem isAbsolute_append {path : Bytes} (h : isAbsolute path = true) (more : Bytes) :
    isAbsolute (path ++ more) = true := by
  cases path with
  | nil => cases h
  | cons b r => exact h

/-- A plain name and what stands behind it is no absolute path. -/
theorem isAbsolute_plain {name : Bytes} (h : IsPlain name) (rest : Bytes) :
    isAbsolute (name ++ rest) = false := by
  obtain ⟨hne, -, -, hslash⟩ := h
  cases name with
  | nil => exact absurd rfl hne
  | cons b r =>
    have hb : b ≠ slash := by
      rintro rfl
      exact hslash List.mem_cons_self
    exact decide_eq_false hb

/-- A path of names that starts with a plain one is relative. -/
theorem isAbsolute_joinBytes {name : Bytes} (h : IsPlain name) (names : List Bytes) :
    isAbsolute (Text.joinBytes slash (name :: names)) = false := by
  cases names with
  | nil => simpa [Text.joinBytes] using isAbsolute_plain h []
  | cons q qs => exact isAbsolute_plain h _

theorem getLast?_plain {name : Bytes} (h : IsPlain name) (front : Bytes) :
    (front ++ name).getLast? ≠ some slash := by
  obtain ⟨hne, -, -, hslash⟩ := h
  rw [List.getLast?_append, List.getLast?_eq_some_getLast hne, Option.some_or]
  intro hlast
  exact hslash (Option.some.inj hlast ▸ List.getLast_mem hne)

/-- A path behind one that ends in a plain name. -/
theorem join_plain {front name path : Bytes} (h : IsPlain name) (hpath : isAbsolute path = false) :
    join (front ++ name) path = front ++ name ++ slash :: path := by
  have hne : front ++ name ≠ [] := by simp [h.1]
  rw [join, if_neg (by simp [hpath]), if_neg hne, if_neg (getLast?_plain h front)]

/-- **Relative paths are written behind an absolute one**, which is brought to end in a slash. -/
theorem exists_join_eq_append {root : Bytes} (h : isAbsolute root = true) :
    ∃ base, isAbsolute base = true ∧ (∀ b ∈ base, b ∈ root ∨ b = slash) ∧
      ∀ path, isAbsolute path = false → join root path = base ++ path := by
  have hne : root ≠ [] := by
    rintro rfl
    cases h
  by_cases hlast : root.getLast? = some slash
  · refine ⟨root, h, fun b hb => Or.inl hb, fun path hpath => ?_⟩
    rw [join, if_neg (by simp [hpath]), if_neg hne, if_pos hlast]
  · refine ⟨root ++ [slash], ?_, ?_, fun path hpath => ?_⟩
    · exact isAbsolute_append h [slash]
    · intro b hb
      rwa [List.mem_append, List.mem_singleton] at hb
    · rw [join, if_neg (by simp [hpath]), if_neg hne, if_neg hlast]
      simp

end QualityGate.Host.Path
