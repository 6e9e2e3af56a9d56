import Mathlib.Data.List.Induction
import Mathlib.Data.List.Nodup
import QualityGate.Environment.Basic
/-!
## What an environment holds

No key stands twice in an environment, so its entries and the answers of `get?` tell the same
(`get?_eq_some_iff`), and an environment is known by its answers (`ext_get?`). Of several assignments to
a key the last one counts (`get?_ofPairs`); where each key is assigned once, their order does not matter
(`ofPairs_of_perm`).
-/

namespace QualityGate.Environment

/-! ### Looking up in a list of entries -/

section Entries

variable {key value : Bytes} {entries : List (Bytes × Bytes)}

/-- The look-up ends at the first entry with the key. -/
theorem lookup_eq_some_iff_append :
    lookup key entries = some value ↔
      ∃ front back, entries = front ++ (key, value) :: back ∧ ∀ entry ∈ front, entry.1 ≠ key := by
  induction entries with
  | nil => simp [lookup]
  | cons entry entries ih =>
    obtain ⟨k, v⟩ := entry
    rw [lookup]
    by_cases hk : k = key
    · -- the key is found here, so nothing can stand in front of its entry
      rw [if_pos hk, hk]
      constructor
      · intro h
        cases h
        exact ⟨[], entries, rfl, by simp⟩
      · rintro ⟨front, back, hsame, hfront⟩
        cases front with
        | nil =>
          cases hsame
          rfl
        | cons first front =>
          cases hsame
          exact absurd rfl (hfront _ List.mem_cons_self)
    · rw [if_neg hk, ih]
      constructor
      · rintro ⟨front, back, rfl, hfront⟩
        exact ⟨(k, v) :: front, back, rfl, List.forall_mem_cons.mpr ⟨hk, hfront⟩⟩
      · rintro ⟨front, back, hsame, hfront⟩
        cases front with
        | nil =>
          cases hsame
          exact absurd rfl hk
        | cons first front =>
          cases hsame
          exact ⟨front, back, rfl, (List.forall_mem_cons.mp hfront).2⟩

/-- Nothing is found exactly where no entry has the key. -/
theorem lookup_eq_none_iff : lookup key entries = none ↔ ∀ entry ∈ entries, entry.1 ≠ key := by
  induction entries with
  | nil => simp [lookup]
  | cons entry entries ih =>
    rw [lookup, List.forall_mem_cons, ← ih]
    by_cases hk : entry.1 = key <;> simp [hk]

/-- From the other end, the look-up ends at the last entry with the key. -/
theorem lookup_reverse_eq_some_iff :
    lookup key entries.reverse = some value ↔
      ∃ front back, entries = front ++ (key, value) :: back ∧ ∀ entry ∈ back, entry.1 ≠ key := by
  rw [lookup_eq_some_iff_append]
  constructor
  · rintro ⟨front, back, hsame, hfront⟩
    refine ⟨back.reverse, front.reverse, ?_, fun entry h => hfront entry (List.mem_reverse.mp h)⟩
    rw [List.reverse_eq_iff.mp hsame]
    simp
  · rintro ⟨front, back, rfl, hback⟩
    exact ⟨back.reverse, front.reverse, by simp, fun entry h => hback entry (List.mem_reverse.mp h)⟩

/-- **Where no key stands twice, each entry is found.** -/
theorem lookup_eq_some_iff (h : (entries.map Prod.fst).Nodup) :
    lookup key entries = some value ↔ (key, value) ∈ entries := by
  rw [lookup_eq_some_iff_append, List.mem_iff_append]
  constructor
  · rintro ⟨front, back, hsame, -⟩
    exact ⟨front, back, hsame⟩
  · rintro ⟨front, back, rfl⟩
    refine ⟨front, back, rfl, ?_⟩
    rintro entry hentry rfl
    rw [List.map_append, List.map_cons, List.nodup_append] at h
    exact h.2.2 _ (List.mem_map_of_mem hentry) _ List.mem_cons_self rfl

end Entries

/-! ### Answers and entries -/

variable {e : Environment} {key value : Bytes}

/-- No key stands twice. -/
theorem nodup_keys (e : Environment) : (e.entries.map Prod.fst).Nodup := by
  rw [List.Nodup, List.pairwise_map]
  refine e.increasing.imp ?_
  intro a b hbefore hsame
  rw [hsame, Text.before_irrefl] at hbefore
  cases hbefore

/-- **The answers of an environment are its entries.** -/
theorem get?_eq_some_iff : e.get? key = some value ↔ (key, value) ∈ e.entries :=
  lookup_eq_some_iff e.nodup_keys

/-- **An environment is known by its answers**: its entries are in the order of their keys. -/
theorem ext_get? {a b : Environment} (h : ∀ key, a.get? key = b.get? key) : a = b := by
  have hmem (entry : Bytes × Bytes) : entry ∈ a.entries ↔ entry ∈ b.entries := by
    rw [← get?_eq_some_iff, h, get?_eq_some_iff]
  have hperm : a.entries.Perm b.entries :=
    (List.perm_ext_iff_of_nodup a.nodup_keys.of_map b.nodup_keys.of_map).mpr hmem
  have hentries : a.entries = b.entries := by
    refine hperm.eq_of_pairwise ?_ a.increasing b.increasing
    intro x y _ _ hxy hyx
    have hxx := Text.before_trans hxy hyx
    rw [Text.before_irrefl] at hxx
    cases hxx
  cases a
  cases b
  cases hentries
  rfl

/-! ### Assignments -/

/-- **Of several assignments to a key the last one counts.** -/
theorem get?_ofPairs (pairs : List (Bytes × Bytes)) (key : Bytes) :
    (ofPairs pairs).get? key = lookup key pairs.reverse := by
  induction pairs using List.reverseRecOn with
  | nil => rfl
  | append_singleton pairs last ih =>
    have hset : ofPairs (pairs ++ [last]) = (ofPairs pairs).set last.1 last.2 := by
      rw [ofPairs, List.foldl_append]
      rfl
    rw [hset, get?_set, ih, List.reverse_append, List.reverse_singleton, List.singleton_append, lookup]
    simp only [eq_comm]

/-- An assignment leaves an environment that is not empty. -/
theorem ofPairs_ne_empty {pairs : List (Bytes × Bytes)} (h : pairs ≠ []) : ofPairs pairs ≠ empty := by
  obtain ⟨last, rest, hreverse⟩ := List.exists_cons_of_ne_nil (mt List.reverse_eq_nil_iff.mp h)
  intro hempty
  have hget := get?_ofPairs pairs last.1
  rw [hempty, hreverse, lookup, if_pos rfl] at hget
  cases hget

/-- **The assignments of an environment give it back**, in whatever order they are made. -/
theorem ofPairs_of_perm {pairs : List (Bytes × Bytes)} (h : pairs.Perm e.entries) :
    ofPairs pairs = e := by
  have hnodup : (pairs.reverse.map Prod.fst).Nodup := by
    rw [List.map_reverse, List.nodup_reverse, (h.map Prod.fst).nodup_iff]
    exact e.nodup_keys
  apply ext_get?
  intro key
  apply Option.ext
  intro value
  rw [get?_ofPairs, lookup_eq_some_iff hnodup, List.mem_reverse, h.mem_iff, get?_eq_some_iff]

end QualityGate.Environment
