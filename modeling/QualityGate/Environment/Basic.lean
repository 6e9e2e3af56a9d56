import QualityGate.Text.ByteOrder
/-!
A process environment: values by key, kept in the order of the keys so that two environments with
the same values are equal. `get?` after `set`, `remove` and `ofPairs` is given by one lemma each.
-/

namespace QualityGate

/-- Keys that increase strictly from one entry to the next. -/
abbrev KeysIncrease (entries : List (Bytes × Bytes)) : Prop :=
  entries.Pairwise fun a b => Text.before a.1 b.1 = true

/-- **A process environment.** -/
structure Environment where
  /-- Keys with their values. -/
  entries : List (Bytes × Bytes)
  /-- Each key stands once, in increasing order. -/
  increasing : KeysIncrease entries
  deriving DecidableEq

namespace Environment

/-- The environment without variables. -/
def empty : Environment := ⟨[], List.Pairwise.nil⟩

instance : Inhabited Environment := ⟨empty⟩

/-! ### On lists of entries -/

/-- The value of the first entry with a key. -/
def lookup (key : Bytes) : List (Bytes × Bytes) → Option Bytes
  | [] => none
  | (k, v) :: r => if k = key then some v else lookup key r

/-- An entry put in its place, over the old one if there is one. -/
def insert (key value : Bytes) : List (Bytes × Bytes) → List (Bytes × Bytes)
  | [] => [(key, value)]
  | (k, v) :: r =>
    if Text.before key k then (key, value) :: (k, v) :: r
    else if k = key then (key, value) :: r
    else (k, v) :: insert key value r

theorem mem_insert {key value : Bytes} {l : List (Bytes × Bytes)} {e : Bytes × Bytes}
    (h : e ∈ insert key value l) : e = (key, value) ∨ e ∈ l := by
  induction l with
  | nil => simp [insert] at h; exact Or.inl h
  | cons a r ih =>
    obtain ⟨k, v⟩ := a
    unfold insert at h
    split at h
    · rcases List.mem_cons.1 h with rfl | h
      · exact Or.inl rfl
      · exact Or.inr h
    · split at h
      · rcases List.mem_cons.1 h with rfl | h
        · exact Or.inl rfl
        · exact Or.inr (List.mem_cons_of_mem _ h)
      · rcases List.mem_cons.1 h with rfl | h
        · exact Or.inr (List.mem_cons_self)
        · rcases ih h with rfl | h
          · exact Or.inl rfl
          · exact Or.inr (List.mem_cons_of_mem _ h)

/-- Insertion keeps the keys increasing. -/
theorem increasing_insert (key value : Bytes) {l : List (Bytes × Bytes)} (h : KeysIncrease l) :
    KeysIncrease (insert key value l) := by
  induction l with
  | nil => simp [insert, KeysIncrease]
  | cons a r ih =>
    obtain ⟨k, v⟩ := a
    have hp := List.pairwise_cons.1 h
    unfold insert
    split
    · rename_i hlt
      refine List.pairwise_cons.2 ⟨?_, h⟩
      intro e he
      rcases List.mem_cons.1 he with rfl | he
      · exact hlt
      · exact Text.before_trans hlt (hp.1 e he)
    · rename_i hlt
      split
      · rename_i hk
        exact List.pairwise_cons.2 ⟨fun e he => hk ▸ hp.1 e he, hp.2⟩
      · rename_i hk
        refine List.pairwise_cons.2 ⟨?_, ih hp.2⟩
        intro e he
        rcases mem_insert he with rfl | he
        · -- the new key is neither before this one nor the same, so it comes behind it
          cases hb : Text.before k key with
          | true => rfl
          | false => exact absurd (Text.eq_of_not_before hb (by simpa using hlt)) hk
        · exact hp.1 e he

theorem lookup_insert (key value : Bytes) (l : List (Bytes × Bytes)) (q : Bytes) :
    lookup q (insert key value l) = if q = key then some value else lookup q l := by
  induction l with
  | nil => grind [insert, lookup]
  | cons a r ih => grind [insert, lookup]

/-- Entries without a key. -/
def delete (key : Bytes) (l : List (Bytes × Bytes)) : List (Bytes × Bytes) :=
  l.filter fun e => e.1 ≠ key

theorem lookup_delete (key : Bytes) (l : List (Bytes × Bytes)) (q : Bytes) :
    lookup q (delete key l) = if q = key then none else lookup q l := by
  induction l with
  | nil => simp [delete, lookup]
  | cons a r ih => grind [delete, lookup]

/-! ### On environments -/

/-- **The value of a variable.** -/
def get? (e : Environment) (key : Bytes) : Option Bytes :=
  lookup key e.entries

/-- Sets a variable. -/
def set (e : Environment) (key value : Bytes) : Environment :=
  ⟨insert key value e.entries, increasing_insert key value e.increasing⟩

/-- Removes a variable. -/
def remove (e : Environment) (key : Bytes) : Environment :=
  ⟨delete key e.entries, e.increasing.filter _⟩

/-- The environment of some assignments, of which the last one to a key counts. -/
def ofPairs (pairs : List (Bytes × Bytes)) : Environment :=
  pairs.foldl (fun e p => e.set p.1 p.2) empty

@[simp] theorem get?_set (e : Environment) (key value q : Bytes) :
    (e.set key value).get? q = if q = key then some value else e.get? q :=
  lookup_insert key value e.entries q

@[simp] theorem get?_remove (e : Environment) (key q : Bytes) :
    (e.remove key).get? q = if q = key then none else e.get? q :=
  lookup_delete key e.entries q

end Environment
end QualityGate
