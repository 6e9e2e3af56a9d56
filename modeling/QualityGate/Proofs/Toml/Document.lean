import QualityGate.Toml.Document
import QualityGate.Proofs.Toml.Tree
/-!
## Documents are well formed

Whatever is read, no table of it defines a key twice and no list of tables is empty: an inline table is
built by definitions that clash otherwise, a line of the document adds to the table being filled or
puts it into its place, and each of these changes keeps the tables well formed
(`Table.alter_wellFormed`). Only the list for which a table is being filled may be empty until the
table is put into it.

* `value_wellFormed`: a value that is read is well formed.
* `line_wellFormed`: one line keeps a draft well formed.
* `document_wellFormed`: a document that is read is well formed.
-/

namespace QualityGate.Toml

/-! ### What a reply gives -/

/-- **A value that is answered** satisfies `P`. -/
def Reply.Gives (P : α → Prop) : Reply α → Prop
  | ok v _ => P v
  | tentative _ _ => True
  | committed _ _ => True

namespace Reply

variable {P : α → Prop} {Q : β → Prop} {r : Reply α}

/-- A statement about every value holds of the one that is answered. -/
theorem gives_of_forall (h : ∀ v, P v) (r : Reply α) : r.Gives P := by
  cases r with
  | ok v rest => exact h v
  | tentative p c => trivial
  | committed p c => trivial

theorem Gives.andThen {next : α → Input → Reply β} (h : r.Gives P)
    (hnext : ∀ v rest, P v → (next v rest).Gives Q) : (r.andThen next).Gives Q := by
  cases r with
  | ok v rest => exact hnext v rest h
  | tentative p c => trivial
  | committed p c => trivial

/-- What comes before may be any value. -/
theorem gives_andThen {next : α → Input → Reply β} (hnext : ∀ v rest, (next v rest).Gives Q) :
    (r.andThen next).Gives Q :=
  (gives_of_forall (P := fun _ => True) (fun _ => trivial) r).andThen fun v rest _ => hnext v rest

theorem Gives.orElse {other : Unit → Reply α} (h : r.Gives P) (hother : (other ()).Gives P) :
    (r.orElse other).Gives P := by
  cases r with
  | ok v rest => exact h
  | tentative p c => exact hother
  | committed p c => trivial

theorem Gives.commit (h : r.Gives P) : r.commit.Gives P := by
  cases r with
  | ok v rest => exact h
  | tentative p c => trivial
  | committed p c => trivial

theorem Gives.onComplaint {f : Complaint → Complaint} (h : r.Gives P) :
    (r.onComplaint f).Gives P := by
  cases r with
  | ok v rest => exact h
  | tentative p c => trivial
  | committed p c => trivial

end Reply

open Reply

/-! ### Scalars -/

theorem placed_wellFormed (start : Input) (f : α → Scalar) (r : Reply α) :
    (placed start f r).Gives Item.WellFormed :=
  gives_andThen fun _ _ => .scalar

theorem numberOrDate_wellFormed (s : Input) : (numberOrDate s).Gives Item.WellFormed :=
  (placed_wellFormed _ _ _).orElse ((placed_wellFormed _ _ _).orElse (placed_wellFormed _ _ _))

/-! ### Arrays -/

section Parts

/- What reads the parts of an array or of an inline table gives well-formed items. -/
variable {value : Input → Reply Item} (hvalue : ∀ s, (value s).Gives Item.WellFormed)
include hvalue

theorem arrayItem_wellFormed (s : Input) : (arrayItem value s).Gives Item.WellFormed :=
  (hvalue _).andThen fun _ _ hv => hv

theorem moreArrayItems_wellFormed (acc : List Item) (n : Nat) (s : Input)
    (hacc : ∀ i ∈ acc, i.WellFormed) :
    (moreArrayItems value acc n s).Gives fun items => ∀ i ∈ items, i.WellFormed := by
  have hread : ∀ i ∈ acc.reverse, i.WellFormed := fun i hi => hacc i (List.mem_reverse.mp hi)
  -- `acc` holds what was read so far, the last item first
  fun_induction moreArrayItems value acc n s with
  | case1 => exact hread
  | case2 acc n r v rest hitem ih =>
    have hv := arrayItem_wellFormed hvalue r
    rw [hitem] at hv
    have hnext : ∀ i ∈ v :: acc, i.WellFormed := List.forall_mem_cons.mpr ⟨hv, hacc⟩
    exact ih hnext fun i hi => hnext i (List.mem_reverse.mp hi)
  | case3 => exact hread
  | case4 => trivial
  | case5 => exact hread

theorem arrayItems_wellFormed (s : Input) :
    (arrayItems value s).Gives fun items => ∀ i ∈ items, i.WellFormed := by
  have hitem := arrayItem_wellFormed hvalue s
  rw [arrayItems]
  split
  · trivial
  · exact fun i hi => nomatch hi
  · rename_i v rest hread
    rw [hread] at hitem
    refine (moreArrayItems_wellFormed hvalue [v] _ rest (List.forall_mem_singleton.mpr hitem)).andThen
      fun items rest hitems => ?_
    split
    · exact hitems
    · exact hitems

theorem arrayRest_wellFormed (start s : Input) : (arrayRest value start s).Gives Item.WellFormed := by
  refine Gives.andThen (P := fun items : List Item => ∀ i ∈ items, i.WellFormed) ?_
    fun items rest hitems => ?_
  · split
    · exact fun i hi => nomatch hi
    · exact arrayItems_wellFormed hvalue s
  · split
    · exact .array hitems
    · trivial

/-! ### Inline tables -/

theorem inlineDefinition_wellFormed (s : Input) :
    (inlineDefinition value s).Gives fun d => d.2.WellFormed := by
  refine gives_andThen fun ks rest => ?_
  split
  · refine Gives.commit ((hvalue _).andThen fun v rest hv => ?_)
    exact hv
  · trivial

theorem moreDefinitions_wellFormed (acc : List (List Key × Item)) (n : Nat) (s : Input)
    (hacc : ∀ d ∈ acc, d.2.WellFormed) :
    (moreDefinitions value acc n s).Gives fun ds => ∀ d ∈ ds, d.2.WellFormed := by
  have hread : ∀ d ∈ acc.reverse, d.2.WellFormed := fun d hd => hacc d (List.mem_reverse.mp hd)
  fun_induction moreDefinitions value acc n s with
  | case1 => exact hread
  | case2 acc n r d rest hdefinition ih =>
    have hd := inlineDefinition_wellFormed hvalue r
    rw [hdefinition] at hd
    have hnext : ∀ e ∈ d :: acc, e.2.WellFormed := List.forall_mem_cons.mpr ⟨hd, hacc⟩
    exact ih hnext fun e he => hnext e (List.mem_reverse.mp he)
  | case3 => exact hread
  | case4 => trivial
  | case5 => exact hread

theorem definitions_wellFormed (s : Input) :
    (definitions value s).Gives fun ds => ∀ d ∈ ds, d.2.WellFormed := by
  have hdefinition := inlineDefinition_wellFormed hvalue s
  rw [definitions]
  split
  · trivial
  · exact fun d hd => nomatch hd
  · rename_i d rest hread
    rw [hread] at hdefinition
    exact (moreDefinitions_wellFormed hvalue [d] _ rest
      (List.forall_mem_singleton.mpr hdefinition)).andThen fun _ _ hds => hds

end Parts

/-- A fold that succeeds does so step by step. -/
theorem foldlM_cons_ok {step : β → α → Except ε β} {a : α} {items : List α} {start stop : β}
    (h : (a :: items).foldlM step start = .ok stop) :
    ∃ next, step start a = .ok next ∧ items.foldlM step next = .ok stop := by
  rw [List.foldlM_cons] at h
  cases hstep : step start a with
  | error e =>
    rw [hstep] at h
    cases h
  | ok next =>
    rw [hstep] at h
    exact ⟨next, rfl, h⟩

/-- A property that each step of a fold keeps holds of the result. -/
theorem foldlM_keeps {step : β → α → Except ε β} (P : β → Prop) {items : List α} {start stop : β}
    (keeps : ∀ b b', ∀ a ∈ items, P b → step b a = .ok b' → P b') (hstart : P start)
    (h : items.foldlM step start = .ok stop) : P stop := by
  induction items generalizing start with
  | nil => exact Except.ok.inj h ▸ hstart
  | cons a items ih =>
    obtain ⟨next, hnext, hrest⟩ := foldlM_cons_ok h
    exact ih (fun b b' a' ha' => keeps b b' a' (List.mem_cons_of_mem _ ha'))
      (keeps start next a List.mem_cons_self hstart hnext) hrest

/-- The table of some definitions is well formed, since two of one name clash. -/
theorem tableOfDefinitions_wellFormed {ds : List (List Key × Item)} {t : Table}
    (hds : ∀ d ∈ ds, d.2.WellFormed) (h : tableOfDefinitions ds = .ok t) : t.entries.WellFormed := by
  refine foldlM_keeps (fun u : Table => Entries.WellFormed u.entries)
    (fun t u d hd ht hu => ?_) Entries.WellFormed.nil h
  cases hlast : d.1.getLast? with
  | none =>
    rw [hlast] at hu
    exact Except.ok.inj hu ▸ ht
  | some key =>
    rw [hlast] at hu
    exact Table.define_wellFormed ht (hds d hd) hu

theorem inlineRest_wellFormed {value : Input → Reply Item}
    (hvalue : ∀ s, (value s).Gives Item.WellFormed) (start s : Input) :
    (inlineRest value start s).Gives Item.WellFormed := by
  refine (definitions_wellFormed hvalue s).andThen fun ds rest hds => ?_
  split
  · trivial
  · rename_i t htable
    split
    · exact Item.wellFormed_table_iff.mpr (tableOfDefinitions_wellFormed hds htable)
    · trivial

/-! ### Values -/

theorem valueOver_wellFormed {inner : Option (Input → Reply Item)}
    (hinner : ∀ value ∈ inner, ∀ s, (value s).Gives Item.WellFormed) (s : Input) :
    (valueOver inner s).Gives Item.WellFormed := by
  have hword : ∀ w v, (word s w v).Gives Item.WellFormed :=
    fun w v => (placed_wellFormed _ _ _).onComplaint
  cases s with
  | nil => trivial
  | cons c r =>
    rw [valueOver.eq_def]
    dsimp only
    -- one case for each character that a value may begin with
    split
    · exact placed_wellFormed _ _ _
    split
    · split
      · exact arrayRest_wellFormed (hinner _ rfl) _ _
      · trivial
    split
    · split
      · exact inlineRest_wellFormed (hinner _ rfl) _ _
      · trivial
    split
    · exact numberOrDate_wellFormed _
    split
    · exact (placed_wellFormed _ _ _).onComplaint
    split
    · exact (placed_wellFormed _ _ _).onComplaint
    split
    · exact (hword _ _).commit
    split
    · exact (hword _ _).commit
    split
    · exact hword _ _
    split
    · exact hword _ _
    · trivial

/-- **A value that is read** is well formed, at every depth. -/
theorem value_wellFormed (depth : Nat) : ∀ s, (value depth s).Gives Item.WellFormed := by
  induction depth with
  | zero => exact valueOver_wellFormed fun _ h => nomatch h
  | succ depth ih =>
    refine valueOver_wellFormed fun value hvalue => ?_
    obtain rfl := Option.some.inj hvalue
    exact ih

/-! ### A document in the making -/

namespace Draft

/-- **A well-formed draft.** The table being filled is well formed, and so are the tables in their
places. But while a table of a list is being filled, these are what a well-formed table became when the
list was made sure of. -/
structure WellFormed (d : Draft) : Prop where
  current : d.current.entries.WellFormed
  root : d.inList = false → d.root.entries.WellFormed
  opened : d.inList = true → ∃ (before : Table) (key : Key), before.entries.WellFormed ∧
    d.path.getLast? = some key ∧
    before.alter false (checkList d.path.dropLast key) [] d.path.dropLast = .ok d.root

theorem placeTable_wellFormed {above : List Key} {key : Key} {t parent u : Table}
    (ht : t.entries.WellFormed) (hparent : parent.entries.WellFormed)
    (h : placeTable above key t parent = .ok u) : u.entries.WellFormed := by
  rw [placeTable] at h
  split at h
  · rename_i hnone
    obtain rfl := Except.ok.inj h
    exact hparent.append hnone (Item.wellFormed_table_iff.mpr ht)
  · split at h
    · obtain rfl := Except.ok.inj h
      exact hparent.update (Item.wellFormed_table_iff.mpr ht)
    · cases h
  · cases h

theorem appendTable_wellFormed {above : List Key} {key : Key} {t parent u : Table}
    (ht : t.entries.WellFormed) (hparent : parent.entries.WellFormed)
    (h : appendTable above key t parent = .ok u) : u.entries.WellFormed := by
  rw [appendTable] at h
  split at h
  · rename_i hnone
    obtain rfl := Except.ok.inj h
    exact hparent.append hnone (Item.wellFormed_tables_iff.mpr
      ⟨List.cons_ne_nil _ _, List.forall_mem_singleton.mpr ht⟩)
  · rename_i list hsome
    obtain rfl := Except.ok.inj h
    have hlist := (Item.wellFormed_tables_iff.mp (hparent.get? hsome)).2
    exact hparent.update (Item.wellFormed_tables_iff.mpr
      ⟨by simp, List.forall_mem_append.mpr ⟨hlist, List.forall_mem_singleton.mpr ht⟩⟩)
  · cases h

/-- A list that was made sure of takes the table that belongs to it, and is not empty then. -/
theorem checkList_appendTable_wellFormed {above : List Key} {key : Key} {t parent u : Table}
    (ht : t.entries.WellFormed) (hparent : parent.entries.WellFormed)
    (h : (checkList above key parent >>= appendTable above key t) = .ok u) :
    u.entries.WellFormed := by
  rw [checkList] at h
  split at h
  · rename_i hnone
    simp only [bind, Except.bind, appendTable, Entries.get?_append hnone,
      Entries.update_append hnone] at h
    obtain rfl := Except.ok.inj h
    exact hparent.append hnone (Item.wellFormed_tables_iff.mpr
      ⟨List.cons_ne_nil _ _, List.forall_mem_singleton.mpr ht⟩)
  · exact appendTable_wellFormed ht hparent h
  · cases h

/-- **Putting the table being filled into its place** leaves all tables well formed. -/
theorem close_wellFormed {d d' : Draft} (hd : d.WellFormed) (h : d.close = .ok d') :
    d'.WellFormed ∧ d'.inList = false := by
  rw [close] at h
  split at h
  · obtain rfl := Except.ok.inj h
    exact ⟨⟨.nil, fun _ => hd.current, fun hlist => nomatch hlist⟩, rfl⟩
  · rename_i key hlast
    dsimp only at h
    split at h
    · cases h
    · rename_i root hroot
      obtain rfl := Except.ok.inj h
      refine ⟨⟨.nil, fun _ => ?_, fun hlist => nomatch hlist⟩, rfl⟩
      cases hlist : d.inList with
      | false =>
        rw [hlist] at hroot
        exact Table.alter_wellFormed (fun _ _ => placeTable_wellFormed hd.current) _ _ _ _
          (hd.root hlist) hroot
      | true =>
        -- the list was made sure of where the table is put now: both changes are one
        obtain ⟨before, key', hbefore, hlast', hchecked⟩ := hd.opened hlist
        obtain rfl := Option.some.inj (hlast.symm.trans hlast')
        rw [hlist] at hroot
        exact Table.alter_wellFormed (fun _ _ => checkList_appendTable_wellFormed hd.current) _ _ _ _
          hbefore (Table.alter_alter _ _ _ _ _ hchecked hroot)

theorem vacate_wellFormed {above : List Key} {key : Key} {parent u : Table}
    (hparent : parent.entries.WellFormed) (h : vacate above key parent = .ok u) :
    u.entries.WellFormed := by
  rw [vacate] at h
  split at h
  · exact Except.ok.inj h ▸ hparent
  · split at h
    · obtain rfl := Except.ok.inj h
      exact hparent.erase
    · cases h
  · cases h

/-- The entries that a named table keeps when it is opened are well formed. -/
theorem namedEntries_wellFormed (path : List Key) :
    ∀ root : Table, root.entries.WellFormed → (namedEntries root path).WellFormed := by
  induction path with
  | nil => exact fun _ _ => .nil
  | cons key rest ih =>
    intro root hroot
    cases rest with
    | nil =>
      rw [namedEntries]
      split
      · rename_i hsome
        exact Item.wellFormed_table_iff.mp (hroot.get? hsome)
      · exact .nil
    | cons next rest =>
      rw [namedEntries]
      split
      · rename_i hsome
        exact ih _ (Item.wellFormed_table_iff.mp (hroot.get? hsome))
      · rename_i list hsome
        split
        · rename_i last hlast
          -- of a list of tables, the last one is gone through
          exact ih _ ((Item.wellFormed_tables_iff.mp (hroot.get? hsome)).2 last
            (List.mem_of_getLast? hlast))
        · exact .nil
      · exact .nil
      · exact List.cons_ne_nil _ _

theorem openTable_wellFormed {d d' : Draft} {path : List Key} {span : Span} (hd : d.WellFormed)
    (h : d.openTable path span = .ok d') : d'.WellFormed := by
  rw [openTable] at h
  split at h
  · cases h
  · rename_i closed hclose
    obtain ⟨hclosed, hlist⟩ := close_wellFormed hd hclose
    split at h
    · exact Except.ok.inj h ▸ hclosed
    · dsimp only at h
      split at h
      · cases h
      · rename_i root hroot
        obtain rfl := Except.ok.inj h
        have hvacated := Table.alter_wellFormed (fun _ _ => vacate_wellFormed) _ _ _ _
          (hclosed.root hlist) hroot
        exact ⟨namedEntries_wellFormed path closed.root (hclosed.root hlist), fun _ => hvacated,
          fun hopened => nomatch hopened⟩

theorem openListTable_wellFormed {d d' : Draft} {path : List Key} {span : Span} (hd : d.WellFormed)
    (h : d.openListTable path span = .ok d') : d'.WellFormed := by
  rw [openListTable] at h
  split at h
  · cases h
  · rename_i closed hclose
    obtain ⟨hclosed, hlist⟩ := close_wellFormed hd hclose
    split at h
    · exact Except.ok.inj h ▸ hclosed
    · rename_i key hlast
      dsimp only at h
      split at h
      · cases h
      · rename_i root hroot
        obtain rfl := Except.ok.inj h
        exact ⟨.nil, fun hclosed => (nomatch hclosed), fun _ =>
          ⟨closed.root, key, hclosed.root hlist, hlast, hroot⟩⟩

theorem define_wellFormed {d d' : Draft} {path : List Key} {item : Item} (hd : d.WellFormed)
    (hi : item.WellFormed) (h : d.define path item = .ok d') : d'.WellFormed := by
  rw [define] at h
  split at h
  · exact Except.ok.inj h ▸ hd
  · dsimp only at h
    split at h
    · cases h
    · rename_i current hcurrent
      obtain rfl := Except.ok.inj h
      refine ⟨Table.define_wellFormed ?_ hi hcurrent, hd.root, hd.opened⟩
      exact hd.current

end Draft

/-! ### Lines and documents -/

theorem orClash_wellFormed {place rest : Input} {result : Except Clash Draft}
    (h : ∀ d, result = .ok d → d.WellFormed) : (orClash place rest result).Gives Draft.WellFormed := by
  cases result with
  | ok d => exact h d rfl
  | error c => trivial

theorem definitionLine_wellFormed {d : Draft} (hd : d.WellFormed) (s : Input) :
    (definitionLine d s).Gives Draft.WellFormed := by
  refine gives_andThen fun ks rest => ?_
  split
  · refine (value_wellFormed _ _).commit.andThen fun v rest hv => ?_
    exact gives_andThen fun _ _ => orClash_wellFormed fun _ h => Draft.define_wellFormed hd hv h
  · trivial

theorem headerRest_wellFormed {d : Draft} (hd : d.WellFormed) (list : Bool) (s inner : Input) :
    (headerRest d list s inner).Gives Draft.WellFormed := by
  refine gives_andThen fun ks rest => gives_andThen fun _ after => gives_andThen fun _ rest => ?_
  refine orClash_wellFormed fun d' h => ?_
  split at h
  · exact Draft.openListTable_wellFormed hd h
  · exact Draft.openTable_wellFormed hd h

theorem headerLine_wellFormed {d : Draft} (hd : d.WellFormed) (s : Input) :
    (headerLine d s).Gives Draft.WellFormed := by
  refine Gives.onComplaint ?_
  split
  · exact headerRest_wellFormed hd _ _ _
  · exact headerRest_wellFormed hd _ _ _
  · trivial

/-- **One line** keeps a draft well formed. -/
theorem line_wellFormed {d : Draft} (hd : d.WellFormed) (c : Char) (r : Input) :
    (line d c r).Gives Draft.WellFormed := by
  rw [line]
  split
  · refine Gives.commit (gives_andThen fun _ _ => ?_)
    exact hd
  split
  · exact headerLine_wellFormed hd _
  split
  · split
    · exact hd
    · trivial
  · exact definitionLine_wellFormed hd _

/-- So do any number of lines. -/
theorem linesOnto_wellFormed (n : Nat) :
    ∀ (d : Draft) (s : Input), d.WellFormed → (linesOnto d n s).Gives Draft.WellFormed := by
  induction n with
  | zero => exact fun _ _ hd => hd
  | succ n ih =>
    intro d s hd
    rw [linesOnto]
    split
    · exact hd
    · rename_i c r hrest
      have hline := line_wellFormed hd c r
      split
      · rename_i next rest hread
        rw [hread] at hline
        exact ih next rest hline
      · trivial
      · trivial

/-- **A document that is read is well formed**, in every table of it. -/
theorem document_wellFormed {s : Input} {t : Table} (h : document s = .ok t) :
    t.entries.WellFormed := by
  have hlines := fun start : Draft => linesOnto_wellFormed ((dropMark s).length + 1) start (dropMark s)
  rw [document] at h
  dsimp only at h
  split at h
  · rename_i d rest hread
    -- a document starts with an empty table
    have hd : d.WellFormed := by
      have hgives := hlines { current := { form := { span := some ⟨dropMark s, dropMark s⟩ } } }
        ⟨.nil, fun _ => .nil, fun hlist => nomatch hlist⟩
      rw [hread] at hgives
      exact hgives
    split at h
    · rename_i closed hclose
      obtain ⟨hclosed, hlist⟩ := Draft.close_wellFormed hd hclose
      exact Except.ok.inj h ▸ hclosed.root hlist
    · cases h
  · cases h
  · cases h

end QualityGate.Toml
