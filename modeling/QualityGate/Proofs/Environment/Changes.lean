import QualityGate.Proofs.Environment.NulSeparated
import QualityGate.Proofs.Environment.Venv
/-!
## An environment after any changes

An environment is changed by assignments, by removals, by the layout of a virtual environment, and by
bytes that are read in its place. Each change affects some variables (`Change.Affects`) and leaves each
of these a value (`Change.Leaves`), which only for the search path depends on the value before.

* `Change.get?_apply` and `Change.leaves_iff`: what one change does to the answers of an environment.
* `after_accounted`: after any changes the entries are the answers, in the order of the keys, and each
  answer goes back to the last change that affects its key.
-/

namespace QualityGate

namespace Environment

/-! ### Changes -/

/-- **A change to an environment.** -/
inductive Change where
  | set (key value : Bytes)
  | remove (key : Bytes)
  /-- The layout of a virtual environment takes effect. -/
  | enter (venv : Bytes)
  /-- Bytes are read in place of the environment, unless nothing is assigned in them. -/
  | read (bytes : Bytes)
  deriving DecidableEq, Repr

namespace Change

/-- Makes a change. -/
def apply (e : Environment) : Change → Environment
  | set key value => e.set key value
  | remove key => e.remove key
  | enter venv => e.inVenv venv
  | read bytes => (parse? bytes).getD e

/-- **The variables that a change affects**: the one that it names, the three of a virtual environment,
or all of them if anything is assigned in the bytes that are read. -/
def Affects : Change → Bytes → Prop
  | set k _, key | remove k, key => key = k
  | enter _, key => key = pathKey ∨ key = venvKey ∨ key = homeKey
  | read bytes, _ => ∃ entry ∈ Text.splitBytes nul bytes, ∃ k v, Assigns entry k v

/-- **What a change leaves as the value of a variable** that it affects. -/
inductive Leaves (before : Environment) : Change → Bytes → Option Bytes → Prop
  | set (key value : Bytes) : Leaves before (.set key value) key (some value)
  | remove (key : Bytes) : Leaves before (.remove key) key none
  | venv (venv : Bytes) : Leaves before (.enter venv) venvKey (some venv)
  | home (venv : Bytes) : Leaves before (.enter venv) homeKey none
  /-- The directory of programs comes first on the search path. -/
  | path {venv bin : Bytes} (hbin : bin = Host.Path.join venv (Text.bytes "bin")) (h : colon ∉ bin) :
    Leaves before (.enter venv) pathKey
      (some ((before.get? pathKey).elim bin fun old => bin ++ colon :: old))
  /-- A directory that would be read as several is left out. -/
  | pathKept {venv : Bytes} (h : colon ∈ Host.Path.join venv (Text.bytes "bin")) :
    Leaves before (.enter venv) pathKey (before.get? pathKey)
  /-- The last entry that assigns to the variable counts. -/
  | assigned {bytes key value entry : Bytes} {front back : List Bytes}
    (hpieces : Text.splitBytes nul bytes = front ++ entry :: back) (hentry : Assigns entry key value)
    (hback : ∀ later ∈ back, ∀ other, ¬Assigns later key other) :
    Leaves before (.read bytes) key (some value)
  | unassigned {bytes key : Bytes}
    (h : ∀ entry ∈ Text.splitBytes nul bytes, ∀ value, ¬Assigns entry key value) :
    Leaves before (.read bytes) key none

/-! ### One change -/

variable {e : Environment} {c : Change} {key : Bytes} {value : Option Bytes}

/-- Bytes in which something is assigned are read. -/
theorem exists_parse?_of_affects {bytes : Bytes} (h : (read bytes).Affects key) :
    ∃ new, parse? bytes = some new := by
  obtain ⟨entry, hentry, k, v, hassigns⟩ := h
  rw [← Option.isSome_iff_exists, Option.isSome_iff_ne_none, ne_eq, parse?_eq_none_iff]
  exact List.ne_nil_of_mem (List.mem_filterMap.mpr ⟨entry, hentry, assignment?_eq_some_iff.mpr hassigns⟩)

/-- Bytes in which nothing is assigned are not read. -/
theorem parse?_of_not_affects {bytes : Bytes} (h : ¬(read bytes).Affects key) :
    parse? bytes = none := by
  rw [parse?_eq_none_iff, assignments, List.filterMap_eq_nil_iff]
  intro entry hentry
  rw [Option.eq_none_iff_forall_ne_some]
  intro p hp
  exact h ⟨entry, hentry, p.1, p.2, assignment?_eq_some_iff.mp hp⟩

/-- **A change leaves the other variables as they are.** -/
theorem get?_apply (h : ¬c.Affects key) : (c.apply e).get? key = e.get? key := by
  cases c with
  | set k v => exact (get?_set e k v key).trans (if_neg h)
  | remove k => exact (get?_remove e k key).trans (if_neg h)
  | enter venv =>
    simp only [Affects, not_or] at h
    rw [apply, get?_inVenv, if_neg h.2.2, if_neg h.2.1, if_neg h.1]
  | read bytes => rw [apply, parse?_of_not_affects h, Option.getD_none]

/-- The variables that it affects have the values that it leaves. -/
theorem get?_apply_of_leaves (hc : c.Affects key) (h : c.Leaves e key value) :
    (c.apply e).get? key = value := by
  have hkeys : pathKey ≠ homeKey ∧ pathKey ≠ venvKey ∧ venvKey ≠ homeKey := by decide
  cases h with
  | set => exact (get?_set e key _ key).trans (if_pos rfl)
  | remove => exact (get?_remove e key key).trans (if_pos rfl)
  | venv => rw [apply, get?_inVenv, if_neg hkeys.2.2, if_pos rfl]
  | home => rw [apply, get?_inVenv, if_pos rfl]
  | path hbin hclear =>
    rw [apply, get?_inVenv, if_neg hkeys.1, if_neg hkeys.2.1, if_pos rfl, ← hbin,
      putFirst_of_not_mem hclear, Option.some_or]
  | pathKept hcolon =>
    rw [apply, get?_inVenv, if_neg hkeys.1, if_neg hkeys.2.1, if_pos rfl, putFirst_of_mem hcolon,
      Option.none_or]
  -- the environment that is read answers by the last entry with the key
  | assigned hpieces hentry hback =>
    obtain ⟨new, hnew⟩ := exists_parse?_of_affects hc
    rw [apply, hnew, Option.getD_some]
    exact (get?_of_parse? hnew _ _).mpr ⟨_, _, _, hpieces, hentry, hback⟩
  | unassigned hnone =>
    obtain ⟨new, hnew⟩ := exists_parse?_of_affects hc
    rw [apply, hnew, Option.getD_some, Option.eq_none_iff_forall_ne_some]
    intro v hv
    obtain ⟨front, entry, back, hpieces, hentry, -⟩ := (get?_of_parse? hnew _ _).mp hv
    exact hnone entry (hpieces ▸ List.mem_append_cons_self) v hentry

/-- A change leaves some value in each variable that it affects. -/
theorem exists_leaves (h : c.Affects key) (e : Environment) : ∃ value, c.Leaves e key value := by
  cases c with
  | set k v =>
    obtain rfl : key = k := h
    exact ⟨_, .set key v⟩
  | remove k =>
    obtain rfl : key = k := h
    exact ⟨_, .remove key⟩
  | enter venv =>
    rcases h with rfl | rfl | rfl
    · -- a colon in the name of the directory keeps it out of the search path
      by_cases hcolon : colon ∈ Host.Path.join venv (Text.bytes "bin")
      · exact ⟨_, .pathKept hcolon⟩
      · exact ⟨_, .path rfl hcolon⟩
    · exact ⟨_, .venv venv⟩
    · exact ⟨_, .home venv⟩
  | read bytes =>
    obtain ⟨new, hnew⟩ := exists_parse?_of_affects h
    cases hvalue : new.get? key with
    | some v =>
      obtain ⟨front, entry, back, hpieces, hentry, hback⟩ := (get?_of_parse? hnew _ _).mp hvalue
      exact ⟨_, .assigned hpieces hentry hback⟩
    | none =>
      refine ⟨none, .unassigned fun entry hentry v hassigns => ?_⟩
      obtain ⟨-, rfl⟩ := parse?_eq_some_iff.mp hnew
      rw [get?_ofPairs, lookup_eq_none_iff] at hvalue
      have hmem : (key, v) ∈ assignments bytes :=
        List.mem_filterMap.mpr ⟨entry, hentry, assignment?_eq_some_iff.mpr hassigns⟩
      exact hvalue _ (List.mem_reverse.mpr hmem) rfl

/-- **The variables that a change affects have exactly the values that it leaves.** -/
theorem leaves_iff (h : c.Affects key) : c.Leaves e key value ↔ (c.apply e).get? key = value := by
  constructor
  · exact get?_apply_of_leaves h
  · rintro rfl
    obtain ⟨value, hleaves⟩ := exists_leaves h e
    rwa [get?_apply_of_leaves h hleaves]

end Change

/-! ### Any changes -/

/-- **An environment after some changes**, made one after the other. -/
def after (e : Environment) (changes : List Change) : Environment :=
  changes.foldl Change.apply e

theorem after_concat (e : Environment) (changes : List Change) (c : Change) :
    e.after (changes ++ [c]) = c.apply (e.after changes) :=
  List.foldl_concat Change.apply e c changes

/-- **Each answer goes back to the last change that affects its key**, or to the beginning if there is
none. -/
theorem get?_after (e : Environment) (changes : List Change) (key : Bytes) :
    ((∀ c ∈ changes, ¬c.Affects key) ∧ (e.after changes).get? key = e.get? key) ∨
      ∃ front c back, changes = front ++ c :: back ∧ c.Affects key ∧
        (∀ later ∈ back, ¬later.Affects key) ∧
        ∀ value, (e.after changes).get? key = value ↔ c.Leaves (e.after front) key value := by
  -- the last change either affects the key, or keeps the answer that is there before it
  induction changes using List.reverseRecOn with
  | nil => exact Or.inl ⟨by simp, rfl⟩
  | append_singleton changes c ih =>
    rw [after_concat]
    by_cases hc : c.Affects key
    · exact Or.inr ⟨changes, c, [], rfl, hc, by simp, fun _ => (Change.leaves_iff hc).symm⟩
    · rw [Change.get?_apply hc]
      rcases ih with ⟨hnone, hsame⟩ | ⟨front, d, back, rfl, hd, hback, hvalue⟩
      · exact Or.inl ⟨List.forall_mem_append.mpr ⟨hnone, List.forall_mem_singleton.mpr hc⟩, hsame⟩
      · exact Or.inr ⟨front, d, back ++ [c], by simp, hd,
          List.forall_mem_append.mpr ⟨hback, List.forall_mem_singleton.mpr hc⟩, hvalue⟩

/-- **An environment after any changes.** Its entries stand in the order of their keys, each key once and
with the value that is answered for it, and there is no answer for any other key. The answer for a key is
that of the beginning if no change affects it, and otherwise exactly what the last change that affects it
leaves. -/
theorem after_accounted (e : Environment) (changes : List Change) :
    let now := e.after changes
    let keys := now.entries.map Prod.fst
    keys.Pairwise (· < ·) ∧
    (∀ p ∈ now.entries, keys.count p.1 = 1 ∧ now.get? p.1 = some p.2) ∧
    (∀ key, key ∉ keys → now.get? key = none) ∧
    ∀ key,
      ((∀ c ∈ changes, ¬c.Affects key) ∧ now.get? key = e.get? key) ∨
      ∃ front c back, changes = front ++ c :: back ∧ c.Affects key ∧
        (∀ later ∈ back, ¬later.Affects key) ∧
        ∀ value, now.get? key = value ↔ c.Leaves (e.after front) key value := by
  intro now keys
  refine ⟨?_, fun p hp => ⟨?_, get?_eq_some_iff.mpr hp⟩, fun key hkey => ?_, get?_after e changes⟩
  · exact List.pairwise_map.mpr (now.increasing.imp Text.before_iff_lt.mp)
  · exact List.count_eq_one_of_mem now.nodup_keys (List.mem_map_of_mem hp)
  · rw [Option.eq_none_iff_forall_ne_some]
    intro value hvalue
    exact hkey (List.mem_map_of_mem (get?_eq_some_iff.mp hvalue))

end Environment
end QualityGate
