import QualityGate.Proofs.Toml.Tree
import QualityGate.Settings.OfToml
/-!
## Taking over entries

Entries are taken over one by one, each into its own place (`Setter.Governs`). Where no key stands
twice, a place ends up with what the one entry of its key tells, or stays as it was (`Follows`),
wherever that entry stands and whatever stands around it.

* `takeOver_ok`: entries that are each accepted are taken over, and only those are
  (`exists_ok_of_takeOver`).
* `Setter.Governs.takeOver_follows`: a place that one key governs follows the entries at this key.
-/

namespace QualityGate

open Toml (Item Key Entries)

/-! ### Places and keys -/

theorem exists_of_map_eq_ok {r : Except ε α} {f : α → β} {b : β} (h : r.map f = .ok b) :
    ∃ a, r = .ok a ∧ f a = b := by
  cases r with
  | ok a => exact ⟨a, rfl, Except.ok.inj h⟩
  | error e => cases h

/-- **A value follows some entries at a key**: it is what the entry of the key tells, and it is
`default` if there is none. -/
structure Follows (es : Entries) (name : String) (tells : Item → α → Prop)
    (value default : α) : Prop where
  present : ∀ e ∈ es, e.1.name = name → tells e.2 value
  absent : (∀ e ∈ es, e.1.name ≠ name) → value = default

/-- **A key governs a place**: its item changes the place by `act`, and no other key changes it. -/
structure Setter.Governs (setter : Setter τ) (name : String) (get : τ → α)
    (act : Item → α → Except Refusal α) : Prop where
  here : ∃ put, setter name = some put ∧ ∀ i t, (put i t).map get = act i (get t)
  elsewhere : ∀ key put, key ≠ name → setter key = some put →
    ∀ i t t', put i t = .ok t' → get t' = get t

/-! ### All entries -/

section TakeOver

variable {setter : Setter τ} {es : Entries}

/-- What one entry does, if the entries are taken over. -/
theorem takeOver_cons {e : Key × Item} {t u : τ} (h : takeOver setter t (e :: es) = .ok u) :
    ∃ t', takeOver setter t' es = .ok u ∧
      (setter e.1.name = none ∧ t' = t ∨ ∃ put, setter e.1.name = some put ∧ put e.2 t = .ok t') := by
  rw [takeOver] at h
  split at h
  · rename_i hnone
    exact ⟨t, h, Or.inl ⟨hnone, rfl⟩⟩
  · rename_i put hput
    split at h
    · rename_i t' ht'
      exact ⟨t', h, Or.inr ⟨put, hput, ht'⟩⟩
    · cases h

/-- **Entries that are each accepted are taken over.** -/
theorem takeOver_ok
    (h : ∀ e ∈ es, ∀ put, setter e.1.name = some put → ∀ t, ∃ t', put e.2 t = .ok t') (t : τ) :
    ∃ u, takeOver setter t es = .ok u := by
  induction es generalizing t with
  | nil => exact ⟨t, rfl⟩
  | cons e es ih =>
    obtain ⟨he, hes⟩ := List.forall_mem_cons.mp h
    rw [takeOver]
    split
    · exact ih hes t
    · rename_i put hput
      obtain ⟨t', ht'⟩ := he put hput t
      rw [ht']
      exact ih hes t'

/-- **Entries that are taken over are each accepted**, each in the state that those before it left. -/
theorem exists_ok_of_takeOver {t u : τ} (h : takeOver setter t es = .ok u) :
    ∀ e ∈ es, ∀ put, setter e.1.name = some put → ∃ t t', put e.2 t = .ok t' := by
  induction es generalizing t with
  | nil => exact fun e he => nomatch he
  | cons d es ih =>
    intro e he put hput
    obtain ⟨t', hrest, hd⟩ := takeOver_cons h
    rcases List.mem_cons.mp he with rfl | he
    · rcases hd with ⟨hnone, -⟩ | ⟨put', hput', ht'⟩
      · rw [hnone] at hput
        cases hput
      · obtain rfl := Option.some.inj (hput.symm.trans hput')
        exact ⟨t, t', ht'⟩
    · exact ih hrest e he put hput

namespace Setter.Governs

variable {name : String} {get : τ → α} {act : Item → α → Except Refusal α}

/-- The item of the key changes the place by `act`. -/
theorem act_eq (hg : setter.Governs name get act) {put : Item → τ → Except Refusal τ} {i : Item}
    {t t' : τ} (hput : setter name = some put) (h : put i t = .ok t') :
    act i (get t) = .ok (get t') := by
  obtain ⟨put', hput', hmap⟩ := hg.here
  obtain rfl := Option.some.inj (hput.symm.trans hput')
  rw [← hmap, h]
  rfl

/-- The key is accepted with an item by which its place can be changed. -/
theorem exists_ok (hg : setter.Governs name get act) {put : Item → τ → Except Refusal τ} {i : Item}
    {t : τ} {v : α} (hput : setter name = some put) (h : act i (get t) = .ok v) :
    ∃ t', put i t = .ok t' := by
  obtain ⟨put', hput', hmap⟩ := hg.here
  obtain rfl := Option.some.inj (hput.symm.trans hput')
  rw [← hmap] at h
  obtain ⟨t', ht', -⟩ := exists_of_map_eq_ok h
  exact ⟨t', ht'⟩

/-- Entries of other keys leave the place as it is. -/
theorem takeOver_absent (hg : setter.Governs name get act) {t u : τ}
    (hne : ∀ e ∈ es, e.1.name ≠ name) (h : takeOver setter t es = .ok u) : get u = get t := by
  induction es generalizing t with
  | nil => exact congrArg get (Except.ok.inj h).symm
  | cons e es ih =>
    obtain ⟨he, hes⟩ := List.forall_mem_cons.mp hne
    obtain ⟨t', hrest, ⟨-, rfl⟩ | ⟨put, hput, ht'⟩⟩ := takeOver_cons h
    · exact ih hes hrest
    · exact (ih hes hrest).trans (hg.elsewhere _ _ he hput _ _ _ ht')

/-- **The place follows the entries at its key**, if no key stands twice among them. -/
theorem takeOver_follows (hg : setter.Governs name get act) {t u : τ} (once : es.keys.Nodup)
    (h : takeOver setter t es = .ok u) :
    Follows es name (fun i v => act i (get t) = .ok v) (get u) (get t) := by
  refine ⟨fun e he hname => ?_, fun hne => hg.takeOver_absent hne h⟩
  induction es generalizing t with
  | nil => cases he
  | cons d es ih =>
    rw [Entries.keys_cons, List.nodup_cons] at once
    obtain ⟨t', hrest, hd⟩ := takeOver_cons h
    rcases List.mem_cons.mp he with rfl | he
    · -- the entry of the key comes first: nothing after it changes the place again
      have hlater : ∀ d ∈ es, d.1.name ≠ name := by
        rintro d hd rfl
        exact once.1 (hname ▸ Entries.mem_keys hd)
      have hkept := hg.takeOver_absent hlater hrest
      rw [hname] at hd
      rcases hd with ⟨hnone, -⟩ | ⟨put, hput, ht'⟩
      · obtain ⟨put, hput, -⟩ := hg.here
        rw [hnone] at hput
        cases hput
      · rw [hkept]
        exact hg.act_eq hput ht'
    · -- another key comes first, and leaves the place as it is
      have hother : d.1.name ≠ name := by
        rintro hdname
        rw [hdname, ← hname] at once
        exact once.1 (Entries.mem_keys he)
      have hkept : get t' = get t := by
        rcases hd with ⟨-, rfl⟩ | ⟨put, hput, ht'⟩
        · rfl
        · exact hg.elsewhere _ _ hother hput _ _ _ ht'
      have htold := ih once.2 hrest he
      rwa [hkept] at htold

end Setter.Governs
end TakeOver

end QualityGate
