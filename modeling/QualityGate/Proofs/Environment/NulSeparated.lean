import QualityGate.Environment.NulSeparated
import QualityGate.Proofs.Environment.Lookup
/-!
## An environment as bytes, and back

Writing puts an `=` behind each key and a zero byte behind each value, and reading cuts there again.

* `assignment?_eq_some_iff` and `assignment?_eq_none_iff`: what an entry assigns, and which entries are
  passed over.
* `assignments_flatMap_append`: what was written of some assignments is cut into these again, whatever
  follows it, if no key holds either mark and no value a zero byte (`Writable`).
* `parse?_inverts_dump`: an environment reads back from its assignments in any order, and whatever reads
  at all is an environment that can be written.
-/

namespace QualityGate.Environment

/-! ### One entry -/

/-- **An entry assigns a value to a key**: its first `=` stands behind the key, which is not empty. -/
structure Assigns (entry key value : Bytes) : Prop where
  key_ne_nil : key ≠ []
  equals_not_mem : equals ∉ key
  entry_eq : entry = key ++ equals :: value

section Entry

variable {entry key value : Bytes}

/-- The first `=` of an entry separates its key from its value. -/
theorem assignment?_append (h : equals ∉ key) (value : Bytes) :
    assignment? (key ++ equals :: value) = if key = [] then none else some (key, value) := by
  rw [assignment?, Text.takeWhile_append_mark h, Text.dropWhile_append_mark h]
  cases key with
  | nil => rfl
  | cons k ks => rfl

/-- Without an `=` nothing is assigned. -/
theorem assignment?_of_not_mem (h : equals ∉ entry) : assignment? entry = none := by
  rw [assignment?, Text.dropWhile_without_mark h]
  cases entry.takeWhile (· ≠ equals) <;> rfl

/-- **What an entry assigns** is what is read from it. -/
theorem assignment?_eq_some_iff : assignment? entry = some (key, value) ↔ Assigns entry key value := by
  constructor
  · intro h
    by_cases hmem : equals ∈ entry
    · obtain ⟨before, after, rfl, hbefore⟩ := List.eq_append_cons_of_mem hmem
      rw [assignment?_append hbefore] at h
      split at h
      · cases h
      · rename_i hne
        cases h
        exact ⟨hne, hbefore, rfl⟩
    · rw [assignment?_of_not_mem hmem] at h
      cases h
  · rintro ⟨hne, hkey, rfl⟩
    rw [assignment?_append hkey, if_neg hne]

/-- The place of a first `=` is the length of what stands before it. -/
theorem idxOf?_equals_append (h : equals ∉ key) (value : Bytes) :
    (key ++ equals :: value).idxOf? equals = some key.length := by
  induction key with
  | nil => simp [List.idxOf?_cons]
  | cons b key ih =>
    rw [List.mem_cons, not_or] at h
    have hb : (b == equals) = false := beq_false_of_ne (Ne.symm h.1)
    rw [List.cons_append, List.idxOf?_cons, hb, ih h.2]
    rfl

/-- **An entry is passed over** unless something stands before its first `=`. -/
theorem assignment?_eq_none_iff :
    assignment? entry = none ↔ ¬∃ i, 1 ≤ i ∧ entry.idxOf? equals = some i := by
  by_cases hmem : equals ∈ entry
  · obtain ⟨before, after, rfl, hbefore⟩ := List.eq_append_cons_of_mem hmem
    rw [assignment?_append hbefore, idxOf?_equals_append hbefore]
    cases before <;> simp
  · rw [assignment?_of_not_mem hmem, List.idxOf?_eq_none_iff.mpr hmem]
    simp

end Entry

/-! ### All entries -/

/-- **An assignment that can be written**: no mark stands where it would cut elsewhere. -/
structure Writable (assignment : Bytes × Bytes) : Prop where
  key_ne_nil : assignment.1 ≠ []
  equals_not_mem : equals ∉ assignment.1
  nul_not_mem_key : nul ∉ assignment.1
  nul_not_mem_value : nul ∉ assignment.2

instance : DecidablePred Writable := fun p =>
  decidable_of_iff (p.1 ≠ [] ∧ equals ∉ p.1 ∧ nul ∉ p.1 ∧ nul ∉ p.2)
    ⟨fun ⟨hne, hequals, hkey, hvalue⟩ => ⟨hne, hequals, hkey, hvalue⟩,
      fun ⟨hne, hequals, hkey, hvalue⟩ => ⟨hne, hequals, hkey, hvalue⟩⟩

theorem Writable.nul_not_mem {p : Bytes × Bytes} (h : Writable p) : nul ∉ p.1 ++ equals :: p.2 := by
  rw [List.mem_append, List.mem_cons]
  rintro (hmem | hmem | hmem)
  · exact h.nul_not_mem_key hmem
  · exact absurd hmem (by decide)
  · exact h.nul_not_mem_value hmem

theorem Writable.assignment? {p : Bytes × Bytes} (h : Writable p) :
    assignment? (p.1 ++ equals :: p.2) = some p :=
  assignment?_eq_some_iff.mpr ⟨h.key_ne_nil, h.equals_not_mem, rfl⟩

/-- **What was written of some assignments is cut into these again**, and what follows is cut as if it
stood alone. -/
theorem assignments_flatMap_append {pairs : List (Bytes × Bytes)} (h : ∀ p ∈ pairs, Writable p)
    (rest : Bytes) : assignments (pairs.flatMap dumpEntry ++ rest) = pairs ++ assignments rest := by
  induction pairs with
  | nil => rfl
  | cons p pairs ih =>
    obtain ⟨hp, hpairs⟩ := List.forall_mem_cons.mp h
    have hfirst : (p :: pairs).flatMap dumpEntry ++ rest =
        (p.1 ++ equals :: p.2) ++ nul :: (pairs.flatMap dumpEntry ++ rest) := by
      simp [dumpEntry]
    rw [hfirst, assignments, Text.splitBytes_append hp.nul_not_mem, List.filterMap_cons_some hp.assignment?,
      ← assignments, ih hpairs, List.cons_append]

/-- The last entry need not be ended. -/
theorem assignments_unended {p : Bytes × Bytes} (h : Writable p) :
    assignments (p.1 ++ equals :: p.2) = [p] := by
  rw [assignments, Text.splitBytes_of_not_mem h.nul_not_mem, List.filterMap_cons_some h.assignment?]
  rfl

/-- What is read has been cut from the bytes, so it can be written. -/
theorem writable_of_mem_assignments {bytes : Bytes} {p : Bytes × Bytes} (h : p ∈ assignments bytes) :
    Writable p := by
  obtain ⟨entry, hentry, hp⟩ := List.mem_filterMap.mp h
  obtain ⟨hne, hequals, rfl⟩ := assignment?_eq_some_iff.mp hp
  have hnul := Text.not_mem_of_mem_splitBytes hentry
  rw [List.mem_append, List.mem_cons, not_or, not_or] at hnul
  exact ⟨hne, hequals, hnul.1, hnul.2.2⟩

/-! ### Reading -/

theorem parse?_eq_none_iff {bytes : Bytes} : parse? bytes = none ↔ assignments bytes = [] := by
  unfold parse?
  split <;> simp_all

theorem parse?_eq_some_iff {bytes : Bytes} {e : Environment} :
    parse? bytes = some e ↔ assignments bytes ≠ [] ∧ ofPairs (assignments bytes) = e := by
  unfold parse?
  split <;> simp_all

/-- **Reading gives an environment back** from its assignments in any order. -/
theorem parse?_of_perm {bytes : Bytes} {e : Environment} (hne : e ≠ empty)
    (h : (assignments bytes).Perm e.entries) : parse? bytes = some e := by
  have he : ofPairs (assignments bytes) = e := ofPairs_of_perm h
  refine parse?_eq_some_iff.mpr ⟨?_, he⟩
  intro hnil
  rw [hnil] at he
  exact hne he.symm

/-- **What is read is what the last entry with a key assigns to it.** -/
theorem get?_of_parse? {bytes : Bytes} {e : Environment} (h : parse? bytes = some e)
    (key value : Bytes) :
    e.get? key = some value ↔
      ∃ front entry back, Text.splitBytes nul bytes = front ++ entry :: back ∧
        Assigns entry key value ∧ ∀ later ∈ back, ∀ other, ¬Assigns later key other := by
  obtain ⟨-, rfl⟩ := parse?_eq_some_iff.mp h
  rw [get?_ofPairs, lookup_reverse_eq_some_iff, assignments]
  constructor
  · rintro ⟨front, back, hsame, hback⟩
    -- the assignments stand in the order of the entries that they were read from
    obtain ⟨before, rest, hpieces, -, hrest⟩ := List.filterMap_eq_append_iff.mp hsame
    obtain ⟨skipped, entry, after, rfl, hskipped, hentry, hafter⟩ :=
      List.filterMap_eq_cons_iff.mp hrest
    refine ⟨before ++ skipped, entry, after, by simp [hpieces], assignment?_eq_some_iff.mp hentry, ?_⟩
    intro later hlater other hassigns
    have hmem : (key, other) ∈ back := by
      rw [← hafter, List.mem_filterMap]
      exact ⟨later, hlater, assignment?_eq_some_iff.mpr hassigns⟩
    exact hback _ hmem rfl
  · rintro ⟨front, entry, back, hpieces, hassigns, hback⟩
    refine ⟨front.filterMap assignment?, back.filterMap assignment?, ?_, ?_⟩
    · rw [hpieces, List.filterMap_append,
        List.filterMap_cons_some (assignment?_eq_some_iff.mpr hassigns)]
    · intro p hp hkey
      obtain ⟨later, hlater, hread⟩ := List.mem_filterMap.mp hp
      rw [← hkey] at hback
      exact hback later hlater p.2 (assignment?_eq_some_iff.mp hread)

/-- An environment that was read can be written. -/
theorem writable_of_parse? {bytes : Bytes} {e : Environment} (h : parse? bytes = some e) :
    ∀ p ∈ e.entries, Writable p := by
  intro p hp
  obtain ⟨-, rfl⟩ := parse?_eq_some_iff.mp h
  rw [← get?_eq_some_iff, get?_ofPairs, lookup_reverse_eq_some_iff] at hp
  obtain ⟨front, back, hsame, -⟩ := hp
  have hmem : p ∈ assignments bytes := by
    rw [hsame]
    simp
  exact writable_of_mem_assignments hmem

/-! ### Writing and reading -/

theorem assignments_written {pairs : List (Bytes × Bytes)} (h : ∀ p ∈ pairs, Writable p) :
    assignments (pairs.flatMap dumpEntry) = pairs := by
  have hwritten := assignments_flatMap_append h []
  rwa [List.append_nil, show assignments [] = [] from rfl, List.append_nil] at hwritten

/-- Without the last zero byte the same assignments are read. -/
theorem assignments_dropLast {pairs : List (Bytes × Bytes)} (h : ∀ p ∈ pairs, Writable p) :
    assignments (pairs.flatMap dumpEntry).dropLast = pairs := by
  rcases List.eq_nil_or_concat' pairs with rfl | ⟨front, last, rfl⟩
  · rfl
  · have hunended : ((front ++ [last]).flatMap dumpEntry).dropLast =
        front.flatMap dumpEntry ++ (last.1 ++ equals :: last.2) := by
      have hlast : (front ++ [last]).flatMap dumpEntry =
          (front.flatMap dumpEntry ++ (last.1 ++ equals :: last.2)) ++ [nul] := by
        simp [dumpEntry]
      rw [hlast, List.dropLast_concat]
    rw [hunended, assignments_flatMap_append (fun p hp => h p (by simp [hp])),
      assignments_unended (h last (by simp))]

/-- **Reading undoes writing.** An environment is read from its assignments as they are written, in any
order and with or without the last zero byte. Conversely nothing is read exactly where every entry is
passed over, and what is read can be written, has the values of the last entries, and reads back. -/
theorem parse?_inverts_dump :
    (∀ (e : Environment) (pairs : List (Bytes × Bytes)), e ≠ empty → (∀ p ∈ e.entries, Writable p) →
      pairs.Perm e.entries →
        parse? (pairs.flatMap dumpEntry) = some e ∧
        parse? (pairs.flatMap dumpEntry).dropLast = some e) ∧
    ∀ bytes : Bytes,
      (parse? bytes = none ↔
        ¬∃ entry ∈ Text.splitBytes nul bytes, ∃ i, 1 ≤ i ∧ entry.idxOf? equals = some i) ∧
      ∀ e, parse? bytes = some e →
        (∀ p ∈ e.entries, Writable p) ∧
        (∀ key value, e.get? key = some value ↔
          ∃ front entry back, Text.splitBytes nul bytes = front ++ entry :: back ∧
            Assigns entry key value ∧ ∀ later ∈ back, ∀ other, ¬Assigns later key other) ∧
        parse? e.dump = some e := by
  constructor
  · intro e pairs hne he hperm
    have hwritable : ∀ p ∈ pairs, Writable p := fun p hp => he p (hperm.mem_iff.mp hp)
    constructor
    · exact parse?_of_perm hne (by rw [assignments_written hwritable]; exact hperm)
    · exact parse?_of_perm hne (by rw [assignments_dropLast hwritable]; exact hperm)
  · intro bytes
    constructor
    · rw [parse?_eq_none_iff, assignments, List.filterMap_eq_nil_iff, not_exists]
      simp only [assignment?_eq_none_iff, not_and]
    · intro e hread
      have hwritable := writable_of_parse? hread
      -- an environment is read only if some entry assigns
      have hne : e ≠ empty := by
        obtain ⟨hsome, rfl⟩ := parse?_eq_some_iff.mp hread
        exact ofPairs_ne_empty hsome
      refine ⟨hwritable, get?_of_parse? hread, ?_⟩
      exact parse?_of_perm hne (by rw [dump, assignments_written hwritable])

/-- Values with an `=`, a line feed and a byte that is no text, written in the wrong order. -/
theorem parse?_inverts_dump_unordered :
    let first := (Text.bytes "A", Text.bytes "x=y\n=")
    let second := (Text.bytes "B", [0xFF])
    let e := ofPairs [first, second]
    parse? (dumpEntry second ++ dumpEntry first) = some e ∧
      parse? (dumpEntry second ++ Text.bytes "A=x=y\n=") = some e := by
  intro first second e
  have hwritable : ∀ p ∈ e.entries, Writable p := by decide +kernel
  have hperm : [second, first].Perm e.entries := by decide +kernel
  exact parse?_inverts_dump.1 e [second, first] (by decide +kernel) hwritable hperm

end QualityGate.Environment
