import Mathlib.Data.List.Nodup
import QualityGate.Toml.Tree
/-!
## Well-formed tables

`Item.WellFormed` says of an item that no table within it holds two entries of one name, and no list of
tables within it is empty, at whatever depth; `Entries.WellFormed` says it of the entries of a table.
Every way of changing a table keeps it: entries that are added, replaced or taken away, and changes
made to a table further down.

A change further down is followed key by key: `Table.Enters` relates a table to the one that the next key of a
path leads to, and says how that one is put back.  What holds of a whole path is then an induction on its keys.

* `Table.alter_cons_eq_ok_iff`: what a change does at the first key of a path, and in the table below it.
* `Table.alter_wellFormed`: a change that keeps it at the end of a path keeps it in the whole table.
* `Table.define_wellFormed`: so does the definition of a key.
* `Table.alter_alter`: two changes made one after the other at the end of a path are one change there.
-/

namespace QualityGate.Toml

/-! ### What it says -/

namespace Entries

/-- The names of the keys of some entries. -/
def keys (es : Entries) : List String :=
  es.map (·.1.name)

end Entries

/-- **No table within an item defines a key twice, and no list of tables is empty.** -/
inductive Item.WellFormed : Item → Prop where
  | scalar {value : Scalar} {span : Span} : WellFormed (.scalar value span)
  | array {items : List Item} {span : Span} (parts : ∀ i ∈ items, WellFormed i) :
      WellFormed (.array items span)
  | table {form : TableForm} {entries : List (Key × Item)} (once : (Entries.keys entries).Nodup)
      (parts : ∀ e ∈ entries, WellFormed e.2) : WellFormed (.table form entries)
  | tables {list : List (TableForm × List (Key × Item))} (nonempty : list ≠ [])
      (once : ∀ t ∈ list, (Entries.keys t.2).Nodup) (parts : ∀ t ∈ list, ∀ e ∈ t.2, WellFormed e.2) :
      WellFormed (.tables list)

/-- **No key is defined twice** among some entries, and their items are well formed. -/
structure Entries.WellFormed (es : Entries) : Prop where
  once : es.keys.Nodup
  parts : ∀ e ∈ es, e.2.WellFormed

theorem Item.wellFormed_table_iff {form : TableForm} {es : Entries} :
    (Item.table form es).WellFormed ↔ es.WellFormed := by
  constructor
  · intro h
    cases h with
    | table once parts => exact ⟨once, parts⟩
  · rintro ⟨once, parts⟩
    exact .table once parts

theorem Item.wellFormed_tables_iff {list : List (TableForm × Entries)} :
    (Item.tables list).WellFormed ↔ list ≠ [] ∧ ∀ t ∈ list, Entries.WellFormed t.2 := by
  constructor
  · intro h
    cases h with
    | tables nonempty once parts => exact ⟨nonempty, fun t ht => ⟨once t ht, parts t ht⟩⟩
  · rintro ⟨nonempty, h⟩
    exact .tables nonempty (fun t ht => (h t ht).once) fun t ht => (h t ht).parts

/-! ### Looking up and changing entries -/

namespace Entries

variable {es : Entries} {name : String} {item : Item}

@[simp] theorem keys_nil : keys [] = [] := rfl

@[simp] theorem keys_cons (e : Key × Item) (es : Entries) :
    keys (e :: es) = e.1.name :: keys es := rfl

theorem mem_keys {e : Key × Item} (h : e ∈ es) : e.1.name ∈ es.keys :=
  List.mem_map_of_mem h

/-- Nothing is found where no entry has the name. -/
theorem get?_eq_none_iff : get? name es = none ↔ name ∉ es.keys := by
  induction es with
  | nil => simp [get?]
  | cons e es ih =>
    by_cases h : e.1.name = name
    · simp [get?, h]
    · simp [get?, h, ih, Ne.symm h]

/-- What is found stands in an entry of the name. -/
theorem mem_of_get? (h : get? name es = some item) : ∃ e ∈ es, e.1.name = name ∧ e.2 = item := by
  induction es with
  | nil => cases h
  | cons e es ih =>
    by_cases hname : e.1.name = name
    · rw [get?, if_pos hname, Option.some.injEq] at h
      exact ⟨e, List.mem_cons_self, hname, h⟩
    · rw [get?, if_neg hname] at h
      obtain ⟨d, hd, hfound⟩ := ih h
      exact ⟨d, List.mem_cons_of_mem _ hd, hfound⟩

/-- Replacing an item keeps the keys. -/
theorem keys_update : (update name item es).keys = es.keys := by
  induction es with
  | nil => rfl
  | cons e es ih =>
    by_cases h : e.1.name = name
    · simp [update, h]
    · simp [update, h, ih]

/-- An entry after a replacement was there before or holds the new item. -/
theorem mem_update {e : Key × Item} (h : e ∈ update name item es) : e ∈ es ∨ e.2 = item := by
  induction es with
  | nil => cases h
  | cons d es ih =>
    by_cases hname : d.1.name = name
    · rw [update, if_pos hname] at h
      rcases List.mem_cons.mp h with rfl | h
      · exact Or.inr rfl
      · exact Or.inl (List.mem_cons_of_mem _ h)
    · rw [update, if_neg hname] at h
      rcases List.mem_cons.mp h with rfl | h
      · exact Or.inl List.mem_cons_self
      · exact (ih h).imp_left (List.mem_cons_of_mem _)

/-- A new entry is found. -/
theorem get?_append {key : Key} (hnone : get? key.name es = none) :
    get? key.name (es ++ [(key, item)]) = some item := by
  induction es with
  | nil => simp [get?]
  | cons e es ih =>
    have hname : e.1.name ≠ key.name := by
      intro hname
      simp [get?, hname] at hnone
    rw [get?, if_neg hname] at hnone
    rw [List.cons_append, get?, if_neg hname, ih hnone]

/-- A replaced item is found. -/
theorem get?_update (hsome : get? name es ≠ none) : get? name (update name item es) = some item := by
  induction es with
  | nil => exact absurd rfl hsome
  | cons e es ih =>
    by_cases hname : e.1.name = name
    · rw [update, if_pos hname, get?, if_pos hname]
    · rw [get?, if_neg hname] at hsome
      rw [update, if_neg hname, get?, if_neg hname, ih hsome]

/-- The only entry of a name is found. -/
theorem get?_of_mem {e : Key × Item} (honce : es.keys.Nodup) (he : e ∈ es) :
    get? e.1.name es = some e.2 := by
  induction es with
  | nil => cases he
  | cons d es ih =>
    rw [keys_cons, List.nodup_cons] at honce
    rcases List.mem_cons.mp he with rfl | he
    · exact if_pos rfl
    · have hne : d.1.name ≠ e.1.name := fun h => honce.1 (h ▸ mem_keys he)
      rw [get?, if_neg hne, ih honce.2 he]

/-- An entry of another name hides nothing. -/
theorem get?_append_of_ne {e : Key × Item} (hne : e.1.name ≠ name) :
    get? name (es ++ [e]) = get? name es := by
  induction es with
  | nil => simp [get?, hne]
  | cons d es ih => rw [List.cons_append, get?, get?, ih]

/-- A replacement concerns no other name. -/
theorem get?_update_of_ne {other : String} (hne : other ≠ name) :
    get? other (update name item es) = get? other es := by
  induction es with
  | nil => rfl
  | cons e es ih =>
    by_cases hname : e.1.name = name
    · have hother : e.1.name ≠ other := fun h => hne (h.symm.trans hname)
      rw [update, if_pos hname, get?, if_neg hother, get?, if_neg hother]
    · rw [update, if_neg hname, get?, get?, ih]

/-- Taking an entry away concerns no other name. -/
theorem get?_erase_of_ne {other : String} (hne : other ≠ name) :
    get? other (erase name es) = get? other es := by
  induction es with
  | nil => rfl
  | cons e es ih =>
    by_cases hname : e.1.name = name
    · have hother : e.1.name ≠ other := fun h => hne (h.symm.trans hname)
      rw [erase, List.filter_cons_of_neg (by simpa using hname), get?, if_neg hother]
      exact ih
    · rw [erase, List.filter_cons_of_pos (by simpa using hname), get?, get?]
      exact congrArg _ ih

/-- A new entry is replaced where it stands. -/
theorem update_append {key : Key} {other : Item} (hnone : get? key.name es = none) :
    update key.name other (es ++ [(key, item)]) = es ++ [(key, other)] := by
  induction es with
  | nil => simp [update]
  | cons e es ih =>
    have hname : e.1.name ≠ key.name := by
      intro hname
      simp [get?, hname] at hnone
    rw [get?, if_neg hname] at hnone
    rw [List.cons_append, update, if_neg hname, ih hnone, List.cons_append]

/-- Of two replacements, the later one counts. -/
theorem update_update {other : Item} :
    update name other (update name item es) = update name other es := by
  induction es with
  | nil => rfl
  | cons e es ih =>
    by_cases hname : e.1.name = name
    · rw [update, if_pos hname, update, if_pos hname, update, if_pos hname]
    · rw [update, if_neg hname, update, if_neg hname, update, if_neg hname, ih]

namespace WellFormed

theorem nil : WellFormed [] :=
  ⟨List.nodup_nil, fun _ he => nomatch he⟩

/-- What is found is well formed. -/
theorem get? (h : es.WellFormed) (hi : Entries.get? name es = some item) : item.WellFormed := by
  obtain ⟨e, he, -, rfl⟩ := mem_of_get? hi
  exact h.parts e he

/-- An entry of a new name may be added. -/
theorem append {key : Key} (h : es.WellFormed) (hnone : Entries.get? key.name es = none)
    (hi : item.WellFormed) : WellFormed (es ++ [(key, item)]) := by
  have hnew : key.name ∉ es.keys := get?_eq_none_iff.mp hnone
  constructor
  · have hkeys : keys (es ++ [(key, item)]) = es.keys ++ [key.name] := List.map_append
    rw [hkeys]
    exact h.once.append (List.nodup_singleton _) (List.disjoint_singleton.mpr hnew)
  · intro e he
    rcases List.mem_append.mp he with he | he
    · exact h.parts e he
    · rw [List.mem_singleton.mp he]
      exact hi

/-- An item may be replaced. -/
theorem update (h : es.WellFormed) (hi : item.WellFormed) : (es.update name item).WellFormed := by
  refine ⟨keys_update.symm ▸ h.once, fun e he => ?_⟩
  rcases mem_update he with he | he
  · exact h.parts e he
  · exact he ▸ hi

/-- A key may be taken away. -/
theorem erase (h : es.WellFormed) : (es.erase name).WellFormed :=
  ⟨h.once.sublist (List.filter_sublist.map _), fun e he => h.parts e (List.mem_filter.mp he).1⟩

end WellFormed
end Entries

/-! ### Ways of a path -/

/-- **What a path meets at a key of a table**: the table in which it goes on, and how that one is put back
once it was changed. -/
inductive Table.Enters (dotted : Bool) (t : Table) (key : Key) : Table → (Table → Table) → Prop
  /-- The key is new, and a table comes about by being named. -/
  | fresh (hnone : t.entries.get? key.name = none) :
    Enters dotted t key ⟨{ inline := t.form.inline, implicit := true, dotted := dotted }, []⟩ fun below =>
      { t with entries := t.entries ++ [(key, .table below.form below.entries)] }
  /-- A table stands there that the path may go through. -/
  | table {form : TableForm} {es : Entries} (hsome : t.entries.get? key.name = some (.table form es))
      (hinline : form.inline = true → t.form.inline = true)
      (himplicit : dotted = true → form.implicit = true) :
    Enters dotted t key ⟨form, es⟩ fun below =>
      { t with entries := t.entries.update key.name (.table below.form below.entries) }
  /-- A list of tables stands there, and the path goes through the last of them. -/
  | last {list : List (TableForm × Entries)} {last : TableForm × Entries}
      (hsome : t.entries.get? key.name = some (.tables list)) (hlast : list.getLast? = some last) :
    Enters dotted t key ⟨last.1, last.2⟩ fun below =>
      { t with entries :=
          t.entries.update key.name (.tables (list.dropLast ++ [(below.form, below.entries)])) }

section Ways

variable {dotted : Bool} {act : Table → Except Clash Table} {t u inner : Table} {put : Table → Table}
  {walked : List Key} {key : Key} {rest : List Key}

/-- **A change at the end of a path is one at the end of its rest**, in the table that the first key leads to. -/
theorem Table.alter_cons_eq_ok_iff : t.alter dotted act walked (key :: rest) = .ok u ↔
    ∃ inner put below, t.Enters dotted key inner put ∧
      inner.alter dotted act (walked ++ [key]) rest = .ok below ∧ put below = u := by
  constructor
  · intro h
    rw [alter] at h
    split at h
    case h_1 hnone =>
      dsimp only at h
      split at h
      · cases h
      · exact ⟨_, _, _, .fresh hnone, ‹_›, Except.ok.inj h⟩
    case h_2 form es hsome =>
      split at h
      · cases h
      · rename_i hinline
        split at h
        · cases h
        · rename_i himplicit
          split at h
          · cases h
          · exact ⟨_, _, _, .table hsome (by simpa using hinline) (by simpa using himplicit), ‹_›, Except.ok.inj h⟩
    case h_3 list hsome =>
      split at h
      · cases h
      · rename_i last hlast
        split at h
        · cases h
        · exact ⟨_, _, _, .last hsome hlast, ‹_›, Except.ok.inj h⟩
    case h_4 => cases h
  · rintro ⟨inner, put, below, henters, hbelow, rfl⟩
    rw [alter]
    cases henters with
    | fresh hnone => simp only [hnone, hbelow]
    | @table form es hsome hinline himplicit =>
      have hopen : (form.inline && !t.form.inline) = false := by simpa using hinline
      have hnamed : (dotted && !form.implicit) = false := by simpa using himplicit
      simp only [hsome, hopen, hnamed, Bool.false_eq_true, ↓reduceIte, hbelow]
    | last hsome hlast => simp only [hsome, hlast, hbelow]

namespace Table.Enters

/-- What is put back changes no form. -/
theorem form_put (h : t.Enters dotted key inner put) (below : Table) : (put below).form = t.form := by
  cases h <;> rfl

/-- **What is put back is what is met next**, and it is put back in the same place. -/
theorem again {below inner' : Table} {put' : Table → Table} (h : t.Enters dotted key inner put)
    (h' : (put below).Enters dotted key inner' put') : inner' = below ∧ ∀ v, put' v = put v := by
  -- a new key is found at the end, any other where it stood
  have hnew {i : Item} (hnone : t.entries.get? key.name = none) :
      Entries.get? key.name (t.entries ++ [(key, i)]) = some i :=
    Entries.get?_append hnone
  have hold {i j : Item} (hsome : t.entries.get? key.name = some j) :
      Entries.get? key.name (t.entries.update key.name i) = some i :=
    Entries.get?_update (hsome ▸ Option.some_ne_none j)
  cases h with
  | fresh hnone =>
    cases h' with
    | fresh h' => cases (hnew hnone).symm.trans h'
    | last h' => cases (hnew hnone).symm.trans h'
    | table h' =>
      cases (hnew hnone).symm.trans h'
      exact ⟨rfl, fun v => by simp only [Entries.update_append hnone]⟩
  | table hsome =>
    cases h' with
    | fresh h' => cases (hold hsome).symm.trans h'
    | last h' => cases (hold hsome).symm.trans h'
    | table h' =>
      cases (hold hsome).symm.trans h'
      exact ⟨rfl, fun v => by simp only [Entries.update_update]⟩
  | last hsome =>
    cases h' with
    | fresh h' => cases (hold hsome).symm.trans h'
    | table h' => cases (hold hsome).symm.trans h'
    | last h' hlast =>
      cases (hold hsome).symm.trans h'
      rw [List.getLast?_concat] at hlast
      cases hlast
      exact ⟨rfl, fun v => by simp only [Entries.update_update, List.dropLast_concat]⟩

/-- A table in a well-formed one is well formed, and so is the whole with another one put back. -/
theorem wellFormed (h : t.Enters dotted key inner put) (ht : t.entries.WellFormed) :
    inner.entries.WellFormed ∧ ∀ below : Table, below.entries.WellFormed → (put below).entries.WellFormed := by
  cases h with
  | fresh hnone => exact ⟨.nil, fun _ hbelow => ht.append hnone (Item.wellFormed_table_iff.mpr hbelow)⟩
  | table hsome =>
    exact ⟨Item.wellFormed_table_iff.mp (ht.get? hsome),
      fun _ hbelow => ht.update (Item.wellFormed_table_iff.mpr hbelow)⟩
  | @last list last hsome hlast =>
    have hlist := (Item.wellFormed_tables_iff.mp (ht.get? hsome)).2
    refine ⟨hlist last (List.mem_of_getLast? hlast), fun below hbelow => ht.update ?_⟩
    refine Item.wellFormed_tables_iff.mpr ⟨by simp, fun t' ht' => ?_⟩
    rcases List.mem_append.mp ht' with ht' | ht'
    · exact hlist t' (List.dropLast_subset list ht')
    · rw [List.mem_singleton.mp ht']
      exact hbelow

/-- A key that is there stays there. -/
theorem keeps_key (h : t.Enters dotted key inner put) (below : Table) {name : String}
    (hname : t.entries.get? name ≠ none) : (put below).entries.get? name ≠ none := by
  rw [Ne, Entries.get?_eq_none_iff, not_not] at hname ⊢
  cases h with
  | fresh => exact List.mem_map.mpr ((List.mem_map.mp hname).imp fun _ he => ⟨List.mem_append_left _ he.1, he.2⟩)
  | table => exact Entries.keys_update.symm ▸ hname
  | last => exact Entries.keys_update.symm ▸ hname

/-- Only the entry of the key changes. -/
theorem get?_put_of_ne (h : t.Enters dotted key inner put) (below : Table) {name : String}
    (hne : name ≠ key.name) : (put below).entries.get? name = t.entries.get? name := by
  cases h with
  | fresh => exact Entries.get?_append_of_ne hne.symm
  | table => exact Entries.get?_update_of_ne hne
  | last => exact Entries.get?_update_of_ne hne

end Table.Enters

/-! ### Changing tables -/

/-- **A change at the end of a path** keeps the whole table well formed, if it keeps the table that it
changes so. -/
theorem Table.alter_wellFormed
    (keeps : ∀ t u, t.entries.WellFormed → act t = .ok u → u.entries.WellFormed) (path : List Key) :
    ∀ (walked : List Key) (t u : Table), t.entries.WellFormed →
      t.alter dotted act walked path = .ok u → u.entries.WellFormed := by
  induction path with
  | nil => exact fun walked t u ht h => keeps t u ht h
  | cons key rest ih =>
    intro walked t u ht h
    obtain ⟨inner, put, below, henters, hbelow, rfl⟩ := alter_cons_eq_ok_iff.mp h
    obtain ⟨hinner, hput⟩ := henters.wellFormed ht
    exact hput below (ih _ inner below hinner hbelow)

/-- **Two changes at the end of a path are one**: the second one finds the way of the first, and what
the first one leaves there. -/
theorem Table.alter_alter {next : Table → Except Clash Table} (path : List Key) :
    ∀ (walked : List Key) (t u v : Table), t.alter dotted act walked path = .ok u →
      u.alter dotted next walked path = .ok v →
      t.alter dotted (fun t => act t >>= next) walked path = .ok v := by
  induction path with
  | nil =>
    intro walked t u v hu hv
    rw [alter] at hu hv ⊢
    rw [hu]
    exact hv
  | cons key rest ih =>
    intro walked t u v hu hv
    obtain ⟨inner, put, below, henters, hbelow, rfl⟩ := alter_cons_eq_ok_iff.mp hu
    obtain ⟨inner', put', after, hagain, hafter, rfl⟩ := alter_cons_eq_ok_iff.mp hv
    obtain ⟨rfl, hput⟩ := henters.again hagain
    exact alter_cons_eq_ok_iff.mpr ⟨inner, put, after, henters, ih _ _ _ _ hbelow hafter, (hput after).symm⟩

/-- **A change leaves the form of a table as it is**, if it does so where it is made. -/
theorem Table.alter_form (hact : ∀ t u, act t = .ok u → u.form = t.form) {path : List Key}
    (h : t.alter dotted act walked path = .ok u) : u.form = t.form := by
  cases path with
  | nil => exact hact t u h
  | cons key rest =>
    obtain ⟨inner, put, below, henters, -, rfl⟩ := alter_cons_eq_ok_iff.mp h
    exact henters.form_put below

/-- A key that is there stays there, if it does so where the change is made. -/
theorem Table.alter_keeps_key (hact : ∀ t u, act t = .ok u → ∀ name,
    t.entries.get? name ≠ none → u.entries.get? name ≠ none) {path : List Key}
    (h : t.alter dotted act walked path = .ok u) {name : String} (hname : t.entries.get? name ≠ none) :
    u.entries.get? name ≠ none := by
  cases path with
  | nil => exact hact t u h name hname
  | cons key rest =>
    obtain ⟨inner, put, below, henters, -, rfl⟩ := alter_cons_eq_ok_iff.mp h
    exact henters.keeps_key below hname

/-- Only the entry of the first key changes. -/
theorem Table.alter_cons_of_ne (h : t.alter dotted act walked (key :: rest) = .ok u) {name : String}
    (hne : name ≠ key.name) : u.entries.get? name = t.entries.get? name := by
  obtain ⟨inner, put, below, henters, -, rfl⟩ := alter_cons_eq_ok_iff.mp h
  exact henters.get?_put_of_ne below hne

end Ways

/-! ### What a definition comes to -/

section Define

variable {t u : Table} {path : List Key} {home : Option (List String)} {key : Key} {item : Item}

/-- A definition adds an entry of a new key at the end of its path. -/
theorem Table.exists_act_of_define (h : t.define path home key item = .ok u) :
    ∃ act : Table → Except Clash Table,
      (∀ v w, act v = .ok w → v.entries.get? key.name = none ∧
        w = { v with entries := v.entries ++ [(key, item)] }) ∧
      t.alter true act [] path = .ok u := by
  refine ⟨_, fun v w hv => ?_, h⟩
  split at hv
  · cases hv
  · split at hv
    · cases hv
    · rename_i hfree
      exact ⟨Option.not_isSome_iff_eq_none.mp hfree, (Except.ok.inj hv).symm⟩

/-- **The definition of a key** keeps a table well formed. -/
theorem Table.define_wellFormed (ht : t.entries.WellFormed) (hi : item.WellFormed)
    (h : t.define path home key item = .ok u) : u.entries.WellFormed := by
  obtain ⟨act, hact, h⟩ := exists_act_of_define h
  refine alter_wellFormed (fun v w hv hw => ?_) path [] t u ht h
  obtain ⟨hnew, rfl⟩ := hact v w hw
  exact hv.append hnew hi

theorem Table.define_form (h : t.define path home key item = .ok u) : u.form = t.form := by
  obtain ⟨act, hact, h⟩ := exists_act_of_define h
  exact alter_form (fun v w hv => (hact v w hv).2 ▸ rfl) h

/-- A key without dots is new, and is added at the end. -/
theorem Table.define_nil_cases (h : t.define [] home key item = .ok u) :
    t.entries.get? key.name = none ∧ u = { t with entries := t.entries ++ [(key, item)] } := by
  obtain ⟨act, hact, h⟩ := exists_act_of_define h
  exact hact t u h

/-- A new entry hides no other one. -/
theorem Entries.get?_append_ne_none {es : Entries} (hnew : es.get? key.name = none) {name : String}
    (hname : es.get? name ≠ none) : Entries.get? name (es ++ [(key, item)]) ≠ none := by
  have hne : key.name ≠ name := fun hsame => hname (hsame ▸ hnew)
  rwa [get?_append_of_ne hne]

theorem Table.define_keeps_key (h : t.define path home key item = .ok u) {name : String}
    (hname : t.entries.get? name ≠ none) : u.entries.get? name ≠ none := by
  obtain ⟨act, hact, h⟩ := exists_act_of_define h
  refine alter_keeps_key (fun v w hv name hname => ?_) h hname
  obtain ⟨hnew, rfl⟩ := hact v w hv
  exact Entries.get?_append_ne_none hnew hname

/-- **Adds one definition between braces** to a table. -/
def Table.add (t : Table) (d : List Key × Item) : Except Clash Table :=
  match d.1.getLast? with
  | some key => t.define d.1.dropLast none key d.2
  | none => .ok t

theorem Table.add_cases {d : List Key × Item} (h : t.add d = .ok u) :
    u = t ∨ ∃ key, t.define d.1.dropLast none key d.2 = .ok u := by
  unfold add at h
  split at h
  · exact Or.inr ⟨_, h⟩
  · exact Or.inl (Except.ok.inj h).symm

end Define

end QualityGate.Toml
