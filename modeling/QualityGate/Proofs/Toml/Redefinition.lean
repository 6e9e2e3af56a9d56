import QualityGate.Proofs.Toml.Definition
import QualityGate.Proofs.Toml.Statements
/-!
## Nothing is defined twice

A document that is read defines no setting of a table twice, opens no table by two headers, and does not define
one table in two ways.

* `Draft.Makes.records`: after a line, what was known stays known and what it declares is known too, in conflict
  with nothing that was.
* `Draft.Runs.pairwise`: so what a run of lines declares is in conflict neither with what is known nor with itself.
* `document_once`: a document that is read holds no two declarations that are in conflict.
-/

namespace QualityGate.Toml

variable {d d' closed : Draft} {t u : Table} {key : Key} {T name : String}

/-! ### Declarations -/

/-- **How a table at the root of a document is defined**: by a header of its own, as the value of its key, or by
a dotted key that goes through it. -/
inductive Construct
  | header
  | value
  | dotted
  deriving DecidableEq, Repr

/-- **What a statement declares** of the tables at the root of a document. -/
inductive Declaration
  /-- A table is defined. -/
  | table (construct : Construct) (name : String)
  /-- A key of a table is defined. -/
  | setting (table key : String)
  deriving DecidableEq, Repr

/-- **Two declarations that may not stand in one document**: a key defined twice, and a table defined twice
other than by dotted keys alone. -/
def Declaration.Conflicts : Declaration → Declaration → Prop
  | table c T, table c' T' => T = T' ∧ (c = .dotted → c' ≠ .dotted)
  | setting T K, setting T' K' => T = T' ∧ K = K'
  | _, _ => False

/-- The table that a declaration is about. -/
def Declaration.subject : Declaration → String
  | table _ T => T
  | setting T _ => T

/-- Only declarations about one table are in conflict. -/
theorem Declaration.Conflicts.subject_eq {e e' : Declaration} (h : e.Conflicts e') : e.subject = e'.subject := by
  cases e <;> cases e'
  · exact h.1
  · exact h.elim
  · exact h.elim
  · exact h.1

/-- **The table that a line defines keys in.** -/
inductive Place
  /-- The root of the document. -/
  | top
  /-- A table at the root, below its header. -/
  | table (name : String)
  /-- A table further down, or one of a list. -/
  | elsewhere
  deriving DecidableEq, Repr

namespace Statement

/-- Where the lines after a statement define keys. -/
def after (place : Place) : Statement → Place
  | header false [T] => .table T
  | header _ _ => .elsewhere
  | definition _ _ => place

/-- **What a statement declares** at some place. -/
def declares (place : Place) : Statement → List Declaration
  | header false [T] => [.table .header T]
  | header _ _ => []
  | definition path inner =>
    match place, path with
    | .top, [T] => .table .value T :: inner.map (.setting T)
    | .top, [T, K] => [.table .dotted T, .setting T K]
    | .top, T :: _ :: _ :: _ => [.table .dotted T]
    | .table T, [K] => [.setting T K]
    | _, _ => []

end Statement

/-- **What some statements declare**, from a place on. -/
def declarations : Place → List Statement → List Declaration
  | _, [] => []
  | place, statement :: more => statement.declares place ++ declarations (statement.after place) more

/-- **Two of some declarations are in conflict**, in whatever order and at whatever distance. -/
def Redefines (ds : List Declaration) : Prop :=
  ∃ e e', [e, e'].Sublist ds ∧ e.Conflicts e'

/-! ### Tables that no header may open -/

/-- An item over which no header may open a table. -/
def Item.Shut : Item → Prop
  | scalar _ _ => True
  | array _ _ => True
  | table form _ => form.implicit = true → form.dotted = true ∨ form.inline = true
  | tables _ => False

/-- A key with an item over which no header may open a table. -/
def Entries.IsShut (name : String) (es : Entries) : Prop :=
  ∃ item, es.get? name = some item ∧ item.Shut

theorem Item.IsValue.shut {item : Item} (h : item.IsValue) : item.Shut := by
  cases item with
  | scalar => trivial
  | array => trivial
  | table form es => exact fun _ => Or.inr h
  | tables => exact h

theorem Entries.IsShut.congr {es es' : Entries} (h : es.IsShut name) (hsame : es'.get? name = es.get? name) :
    es'.IsShut name :=
  h.imp fun _ hitem => ⟨hsame.trans hitem.1, hitem.2⟩

namespace Draft

/-- **An action on the entry of one key**: it leaves the form of the table and its other entries as they
are. -/
structure ActsAt (key : Key) (act : Table → Except Clash Table) : Prop where
  form : ∀ t u, act t = .ok u → u.form = t.form
  others : ∀ t u, act t = .ok u → ∀ name, name ≠ key.name → u.entries.get? name = t.entries.get? name

section Actions

variable {above : List Key} {filled : Table}

theorem placeTable_actsAt : ActsAt key (placeTable above key filled) := by
  constructor
  all_goals
    intro t u h
    rw [placeTable] at h
    split at h
  · exact Except.ok.inj h ▸ rfl
  · split at h
    · exact Except.ok.inj h ▸ rfl
    · cases h
  · cases h
  · obtain rfl := Except.ok.inj h
    exact fun name hne => Entries.get?_append_of_ne hne.symm
  · split at h
    · obtain rfl := Except.ok.inj h
      exact fun name hne => Entries.get?_update_of_ne hne
    · cases h
  · cases h

theorem appendTable_actsAt : ActsAt key (appendTable above key filled) := by
  constructor
  all_goals
    intro t u h
    rw [appendTable] at h
    split at h
  · exact Except.ok.inj h ▸ rfl
  · exact Except.ok.inj h ▸ rfl
  · cases h
  · obtain rfl := Except.ok.inj h
    exact fun name hne => Entries.get?_append_of_ne hne.symm
  · obtain rfl := Except.ok.inj h
    exact fun name hne => Entries.get?_update_of_ne hne
  · cases h

theorem vacate_actsAt : ActsAt key (vacate above key) := by
  constructor
  all_goals
    intro t u h
    rw [vacate] at h
    split at h
  · exact Except.ok.inj h ▸ rfl
  · split at h
    · exact Except.ok.inj h ▸ rfl
    · cases h
  · cases h
  · exact fun _ _ => Except.ok.inj h ▸ rfl
  · split at h
    · obtain rfl := Except.ok.inj h
      exact fun name hne => Entries.get?_erase_of_ne hne
    · cases h
  · cases h

theorem checkList_actsAt : ActsAt key (checkList above key) := by
  constructor
  all_goals
    intro t u h
    rw [checkList] at h
    split at h
  · exact Except.ok.inj h ▸ rfl
  · exact Except.ok.inj h ▸ rfl
  · cases h
  · obtain rfl := Except.ok.inj h
    exact fun name hne => Entries.get?_append_of_ne hne.symm
  · exact fun _ _ => Except.ok.inj h ▸ rfl
  · cases h

/-- A header makes no room where a table is shut. -/
theorem ne_of_vacate (h : vacate above key t = .ok u) (hshut : t.entries.IsShut T) : T ≠ key.name := by
  rintro rfl
  obtain ⟨item, hitem, hshut⟩ := hshut
  rw [vacate, hitem] at h
  cases item with
  | scalar => cases h
  | array => cases h
  | tables => exact hshut
  | table form es =>
    cases himplicit : form.implicit with
    | false => simp [himplicit] at h
    | true => rcases hshut himplicit with hform | hform <;> simp [hform] at h

/-- No list of tables begins where a table is shut. -/
theorem ne_of_checkList (h : checkList above key t = .ok u) (hshut : t.entries.IsShut T) : T ≠ key.name := by
  rintro rfl
  obtain ⟨item, hitem, hshut⟩ := hshut
  rw [checkList, hitem] at h
  cases item with
  | scalar => cases h
  | array => cases h
  | tables => exact hshut
  | table => cases h

theorem ne_of_appendTable (h : appendTable above key filled t = .ok u) (hshut : t.entries.IsShut T) :
    T ≠ key.name := by
  rintro rfl
  obtain ⟨item, hitem, hshut⟩ := hshut
  rw [appendTable, hitem] at h
  cases item with
  | scalar => cases h
  | array => cases h
  | tables => exact hshut
  | table => cases h

/-- **A table stays shut** when something is done further down, or at another key. -/
theorem isShut_of_alter {act : Table → Except Clash Table} (hact : ActsAt key act)
    (h : t.alter false act [] above = .ok u) (hshut : t.entries.IsShut T)
    (hne : above = [] → T ≠ key.name) : u.entries.IsShut T := by
  cases above with
  | nil => exact hshut.congr (hact.others t u h T (hne rfl))
  | cons first rest =>
    by_cases hT : T = first.name
    · subst hT
      obtain ⟨item, hitem, hshut⟩ := hshut
      -- the change is made further down: what stands here keeps its form, which is what shuts it
      obtain ⟨inner, put, below, henters, hbelow, rfl⟩ := Table.alter_cons_eq_ok_iff.mp h
      cases henters with
      | fresh hnone => cases hnone.symm.trans hitem
      | table hsome =>
        obtain rfl := Option.some.inj (hsome.symm.trans hitem)
        refine ⟨.table below.form below.entries, Entries.get?_update (hitem ▸ Option.some_ne_none _), ?_⟩
        rw [Table.alter_form hact.form hbelow]
        exact hshut
      | last hsome =>
        obtain rfl := Option.some.inj (hsome.symm.trans hitem)
        exact hshut.elim
    · exact hshut.congr (Table.alter_cons_of_ne h hT)

end Actions

/-! ### What is known of the tables -/

/-- Where the next line defines keys. -/
def place (d : Draft) : Place :=
  match d.path, d.inList with
  | [], _ => .top
  | [key], false => .table key.name
  | _, _ => .elsewhere

/-- **A draft as lines leave it**: the table being filled is no inline one and not only named, and at the root
each key is shut. -/
structure Sound (d : Draft) : Prop where
  inline : d.current.form.inline = false
  implicit : d.current.form.implicit = false
  shut : d.path = [] → ∀ name item, d.current.entries.get? name = some item → item.Shut

/-- **A table at the root is known**: it is being filled, or no header may open it any more. -/
def Knows (d : Draft) (T : String) : Prop :=
  if d.path = [] then d.current.entries.get? T ≠ none
  else d.place = .table T ∨ d.root.entries.IsShut T

/-- **What is known once something is declared.** -/
def Holds (d : Draft) : Declaration → Prop
  | .table construct T =>
    d.Knows T ∧ (construct = .header → d.path ≠ []) ∧
      (construct = .value → d.path = [] → ∀ item, d.current.entries.get? T = some item → item.IsValue)
  | .setting T K =>
    d.Knows T ∧ (d.path = [] → ∀ item, d.current.entries.get? T = some item → item.HasKey K) ∧
      (d.place = .table T → d.current.entries.get? K ≠ none)

theorem knows_top (hpath : d.path = []) : d.Knows T ↔ d.current.entries.get? T ≠ none := by
  rw [Knows, if_pos hpath]

theorem knows_below (hpath : d.path ≠ []) : d.Knows T ↔ d.place = .table T ∨ d.root.entries.IsShut T := by
  rw [Knows, if_neg hpath]

/-- The table that a known declaration is about is known. -/
theorem Holds.knows {e : Declaration} (h : d.Holds e) : d.Knows e.subject := by
  cases e with
  | table => exact h.1
  | setting => exact h.1

theorem place_eq_top_iff : d.place = .top ↔ d.path = [] := by
  unfold place
  split
  · rename_i hpath
    exact ⟨fun _ => hpath, fun _ => rfl⟩
  · rename_i key hpath hlist
    simp [hpath]
  · rename_i hnil hsingle
    exact ⟨nofun, fun hpath => (hnil hpath).elim⟩

theorem place_eq_table_iff :
    d.place = .table T ↔ ∃ key, d.path = [key] ∧ d.inList = false ∧ key.name = T := by
  unfold place
  split
  · rename_i hpath
    simp [hpath]
  · rename_i key hpath hlist
    simp [hpath, hlist]
  · rename_i hnil hsingle
    refine ⟨nofun, fun ⟨key, hpath, hlist, _⟩ => (hsingle key hpath hlist).elim⟩

theorem placeTable_get? {above : List Key} {filled : Table} (h : placeTable above key filled t = .ok u) :
    u.entries.get? key.name = some (.table filled.form filled.entries) := by
  rw [placeTable] at h
  split at h
  · rename_i hnone
    obtain rfl := Except.ok.inj h
    exact Entries.get?_append hnone
  · rename_i hsome
    split at h
    · obtain rfl := Except.ok.inj h
      exact Entries.get?_update (hsome ▸ Option.some_ne_none _)
    · cases h
  · cases h

/-- **When the table being filled is put into its place**, what was known is shut. -/
theorem isShut_of_close (hd : d.Sound) (hknows : d.Knows T) (h : d.close = .ok closed) :
    closed.root.entries.IsShut T := by
  rw [close] at h
  split at h
  · rename_i hlast
    have hpath : d.path = [] := List.getLast?_eq_none_iff.mp hlast
    obtain rfl := Except.ok.inj h
    obtain ⟨item, hitem⟩ := Option.ne_none_iff_exists'.mp ((knows_top hpath).mp hknows)
    exact ⟨item, hitem, hd.shut hpath T item hitem⟩
  · rename_i key hlast
    have hpath : d.path = d.path.dropLast ++ [key] := (List.dropLast_append_getLast? key hlast).symm
    have hbelow : d.path ≠ [] := hpath ▸ List.append_ne_nil_of_right_ne_nil _ (List.cons_ne_nil _ _)
    dsimp only at h
    split at h
    · cases h
    · rename_i root hroot
      obtain rfl := Except.ok.inj h
      by_cases hplace : d.place = .table T
      · -- it is the table being filled
        obtain ⟨key', hpath', hlist, rfl⟩ := place_eq_table_iff.mp hplace
        rw [hpath'] at hlast hroot
        obtain rfl := Option.some.inj hlast
        rw [hlist] at hroot
        exact ⟨_, placeTable_get? hroot, fun himplicit => absurd (hd.implicit.symm.trans himplicit) Bool.false_ne_true⟩
      · have hshut := ((knows_below hbelow).mp hknows).resolve_left hplace
        cases hlist : d.inList with
        | false =>
          rw [hlist] at hroot
          -- a table placed at the root is the one being filled
          refine isShut_of_alter placeTable_actsAt hroot hshut fun habove hT => hplace ?_
          rw [habove] at hpath
          exact place_eq_table_iff.mpr ⟨key, hpath, hlist, hT.symm⟩
        | true =>
          rw [hlist] at hroot
          refine isShut_of_alter appendTable_actsAt hroot hshut fun habove => ?_
          rw [habove] at hroot
          exact ne_of_appendTable hroot hshut

/-! ### What a statement adds -/

/-- **What is known after a statement that declares something**: all that was known, and what it declares, which
is in conflict with nothing. -/
structure Records (d : Draft) (declared : List Declaration) (d' : Draft) : Prop where
  sound : d'.Sound
  kept : ∀ e, d.Holds e → d'.Holds e
  known : ∀ e ∈ declared, d'.Holds e
  new : ∀ e ∈ declared, ∀ e', d.Holds e' → ¬e'.Conflicts e
  once : declared.Pairwise fun e e' => ¬e.Conflicts e'

/-! ### Headers -/

/-- **A header that opens a table**, of a list or not: whatever is known is shut, and is not that table. -/
structure Opens (d : Draft) (list : Bool) (ks : List Key) (d' : Draft) : Prop where
  sound : d'.Sound
  path : d'.path = ks
  inList : d'.inList = list
  shut : ∀ T, d.Knows T → d'.root.entries.IsShut T
  fresh : ∀ T, d.Knows T → names ks ≠ [T]

section Headers

variable {ks : List Key} {span : Span} {list : Bool}

/-- Making room for a table, or making sure of a list, leaves shut what is known. -/
theorem isShut_of_open {act : Table → Except Clash Table} {root : Table} (hd : d.Sound)
    (hclose : d.close = .ok closed) (hlast : ks.getLast? = some key) (hact : ActsAt key act)
    (hne : ∀ t u, act t = .ok u → t.entries.IsShut T → T ≠ key.name)
    (hroot : closed.root.alter false act [] ks.dropLast = .ok root) (hknows : d.Knows T) :
    root.entries.IsShut T ∧ names ks ≠ [T] := by
  have hshut := isShut_of_close hd hknows hclose
  have hother : ks.dropLast = [] → T ≠ key.name := by
    intro habove
    rw [habove] at hroot
    exact hne _ _ hroot hshut
  refine ⟨isShut_of_alter hact hroot hshut hother, fun hnames => ?_⟩
  rw [names, List.map_eq_singleton_iff] at hnames
  obtain ⟨k, rfl, rfl⟩ := hnames
  obtain rfl := Option.some.inj hlast
  exact hother rfl rfl

theorem openTable_opens (hd : d.Sound) (hks : ks ≠ []) (h : d.openTable ks span = .ok d') :
    d.Opens false ks d' := by
  rw [openTable] at h
  split at h
  · cases h
  · rename_i closed hclose
    split at h
    · rename_i hlast
      exact absurd (List.getLast?_eq_none_iff.mp hlast) hks
    · rename_i key hlast
      dsimp only at h
      split at h
      · cases h
      · rename_i root hroot
        obtain rfl := Except.ok.inj h
        have hopen (T : String) := isShut_of_open (T := T) hd hclose hlast vacate_actsAt (fun _ _ => ne_of_vacate) hroot
        exact ⟨⟨rfl, rfl, fun hpath => absurd hpath hks⟩, rfl, rfl, fun T hT => (hopen T hT).1,
          fun T hT => (hopen T hT).2⟩

theorem openListTable_opens (hd : d.Sound) (hks : ks ≠ []) (h : d.openListTable ks span = .ok d') :
    d.Opens true ks d' := by
  rw [openListTable] at h
  split at h
  · cases h
  · rename_i closed hclose
    split at h
    · rename_i hlast
      exact absurd (List.getLast?_eq_none_iff.mp hlast) hks
    · rename_i key hlast
      dsimp only at h
      split at h
      · cases h
      · rename_i root hroot
        obtain rfl := Except.ok.inj h
        have hopen (T : String) := isShut_of_open (T := T) hd hclose hlast checkList_actsAt (fun _ _ => ne_of_checkList) hroot
        exact ⟨⟨rfl, rfl, fun hpath => absurd hpath hks⟩, rfl, rfl, fun T hT => (hopen T hT).1,
          fun T hT => (hopen T hT).2⟩

/-- **What a header adds** to what is known. -/
theorem Opens.records (hks : ks ≠ []) (h : d.Opens list ks d') (place : Place) :
    d.Records ((Statement.header list (names ks)).declares place) d' := by
  have hpath : d'.path ≠ [] := h.path ▸ hks
  -- a table that was known is not opened once more
  have hother : ∀ T, d.Knows T → d'.place ≠ .table T := by
    intro T hT hplace
    obtain ⟨k, hk, -, hname⟩ := place_eq_table_iff.mp hplace
    refine h.fresh T hT ?_
    rw [← h.path, hk, ← hname]
    rfl
  have hknows : ∀ T, d.Knows T → d'.Knows T := fun T hT => (knows_below hpath).mpr (Or.inr (h.shut T hT))
  have hkept : ∀ e, d.Holds e → d'.Holds e := by
    intro e he
    have hsubject := he.knows
    cases e with
    | table c T => exact ⟨hknows T hsubject, fun _ => hpath, fun _ hnil => absurd hnil hpath⟩
    | setting T K =>
      exact ⟨hknows T hsubject, fun hnil => absurd hnil hpath, fun hplace => absurd hplace (hother T hsubject)⟩
  by_cases hsingle : list = false ∧ ∃ T, names ks = [T]
  · obtain ⟨rfl, T, hnames⟩ := hsingle
    have hplace : d'.place = .table T := by
      rw [names, List.map_eq_singleton_iff] at hnames
      obtain ⟨k, rfl, hname⟩ := hnames
      exact place_eq_table_iff.mpr ⟨k, h.path, h.inList, hname⟩
    have hdeclares : (Statement.header false (names ks)).declares place = [.table .header T] := by
      rw [hnames]
      rfl
    rw [hdeclares]
    refine ⟨h.sound, hkept, List.forall_mem_singleton.mpr ?_, List.forall_mem_singleton.mpr ?_,
      List.pairwise_singleton _ _⟩
    · exact ⟨(knows_below hpath).mpr (Or.inl hplace), fun _ => hpath, fun hdotted => by cases hdotted⟩
    · intro e he hconflict
      have hT : d.Knows T := by
        have hsubject := he.knows
        rwa [hconflict.subject_eq] at hsubject
      exact h.fresh T hT hnames
  · have hdeclares : (Statement.header list (names ks)).declares place = [] := by
      unfold Statement.declares
      split
      · rename_i T hheader
        obtain ⟨rfl, hnames⟩ := Statement.header.inj hheader
        exact absurd ⟨rfl, T, hnames⟩ hsingle
      · rfl
      · rename_i hheader
        cases hheader
    rw [hdeclares]
    exact ⟨h.sound, hkept, List.forall_mem_nil _, List.forall_mem_nil _, List.Pairwise.nil⟩

/-- Where the lines after a header stand. -/
theorem Opens.place (hks : ks ≠ []) (h : d.Opens list ks d') (place : Place) :
    d'.place = (Statement.header list (names ks)).after place := by
  unfold Draft.place
  rw [h.path, h.inList]
  match ks, list, hks with
  | [k], false, _ => rfl
  | [k], true, _ => rfl
  | k :: k' :: rest, false, _ => rfl
  | k :: k' :: rest, true, _ => rfl

end Headers

/-! ### Definitions -/

section Definitions

variable {ks : List Key} {item : Item} {inner : List String}

/-- What is behind a definition that is made. -/
theorem define_cases (hks : ks ≠ []) (h : d.define ks item = .ok d') :
    ∃ above key span u, ks = above ++ [key] ∧
      Table.define above (some (names d.path)) key item ⟨{ d.current.form with span := span }, d.current.entries⟩
        = .ok u ∧ d' = { d with current := u } := by
  obtain ⟨span, hdefine⟩ := d.define_concat ks.dropLast (ks.getLast hks) item
  rw [List.dropLast_append_getLast hks, h] at hdefine
  cases hu : Table.define ks.dropLast (some (names d.path)) (ks.getLast hks) item
      ⟨{ d.current.form with span := span }, d.current.entries⟩ with
  | error clash =>
    rw [hu] at hdefine
    cases hdefine
  | ok u =>
    rw [hu] at hdefine
    exact ⟨ks.dropLast, ks.getLast hks, span, u, (List.dropLast_append_getLast hks).symm, hu,
      Except.ok.inj hdefine⟩

/-- **What a definition below a header adds** to what is known. -/
theorem define_records_below (hd : d.Sound) (hpath : d.path ≠ []) (hks : ks ≠ []) (h : d.define ks item = .ok d') :
    d.Records ((Statement.definition (names ks) inner).declares d.place) d' := by
  obtain ⟨above, key, span, u, rfl, hdefine, rfl⟩ := define_cases hks h
  have hkeys (name : String) : d.current.entries.get? name ≠ none → u.entries.get? name ≠ none :=
    Table.define_keeps_key hdefine
  have hknows (T : String) (hT : d.Knows T) : Knows { d with current := u } T :=
    (knows_below (d := { d with current := u }) hpath).mpr ((knows_below hpath).mp hT)
  have hsound : Sound { d with current := u } :=
    ⟨Table.define_form hdefine ▸ hd.inline, Table.define_form hdefine ▸ hd.implicit, fun hnil => absurd hnil hpath⟩
  have hkept (e : Declaration) (he : d.Holds e) : Holds { d with current := u } e := by
    have hsubject := hknows _ he.knows
    cases e with
    | table c T => exact ⟨hsubject, fun _ => hpath, fun _ hnil => absurd hnil hpath⟩
    | setting T K => exact ⟨hsubject, fun hnil => absurd hnil hpath, fun hplace => hkeys K (he.2.2 hplace)⟩
  -- a setting is declared by a key without dots below the header of one table at the root
  by_cases hsetting : above = [] ∧ ∃ T, d.place = .table T
  · obtain ⟨rfl, T, hplace⟩ := hsetting
    have hdeclares : (Statement.definition (names ([] ++ [key])) inner).declares d.place = [.setting T key.name] := by
      rw [hplace]
      rfl
    obtain ⟨hnew, rfl⟩ := Table.define_nil_cases hdefine
    rw [hdeclares]
    refine ⟨hsound, hkept, List.forall_mem_singleton.mpr ?_, List.forall_mem_singleton.mpr ?_,
      List.pairwise_singleton _ _⟩
    · refine ⟨?_, fun hnil => absurd hnil hpath, fun _ => ?_⟩
      · rw [knows_below (by exact hpath)]
        exact Or.inl hplace
      · rw [Entries.get?_append hnew]
        exact Option.some_ne_none _
    · intro e he hconflict
      cases e with
      | table => exact hconflict
      | setting T' K' =>
        obtain ⟨rfl, rfl⟩ := hconflict
        exact he.2.2 hplace hnew
  · have hdeclares : (Statement.definition (names (above ++ [key])) inner).declares d.place = [] := by
      cases hplace : d.place with
      | top => exact absurd (place_eq_top_iff.mp hplace) hpath
      | elsewhere => rfl
      | table T =>
        cases above with
        | nil => exact absurd ⟨rfl, T, hplace⟩ hsetting
        | cons first rest => cases rest <;> rfl
    rw [hdeclares]
    exact ⟨hsound, hkept, nofun, nofun, List.Pairwise.nil⟩

/-- **A change of one entry at the root** under which a known table keeps what it has. -/
theorem holds_of_changed {e : Declaration} (hpath : d.path = [])
    (hothers : ∀ name, name ≠ T → u.entries.get? name = d.current.entries.get? name)
    (hold : ∀ old, d.current.entries.get? T = some old → ¬old.IsValue ∧
      ∃ new, u.entries.get? T = some new ∧ ∀ K, old.HasKey K → new.HasKey K)
    (h : d.Holds e) : Holds { d with current := u } e := by
  have hsubject := (knows_top hpath).mp h.knows
  have hplace (S : String) : d.place ≠ .table S := place_eq_top_iff.mpr hpath ▸ nofun
  have hknows : Knows { d with current := u } e.subject := by
    rw [knows_top (by exact hpath)]
    by_cases hT : e.subject = T
    · obtain ⟨old, hfound⟩ := Option.ne_none_iff_exists'.mp hsubject
      obtain ⟨-, new, hnew, -⟩ := hold old (hT ▸ hfound)
      rw [hT]
      exact hnew ▸ Option.some_ne_none new
    · exact (hothers _ hT).symm ▸ hsubject
  cases e with
  | table c S =>
    refine ⟨hknows, h.2.1, fun hc _ item hitem => ?_⟩
    by_cases hT : S = T
    · subst hT
      obtain ⟨old, hfound⟩ := Option.ne_none_iff_exists'.mp hsubject
      -- a value is not changed
      exact absurd (h.2.2 hc hpath old hfound) (hold old hfound).1
    · exact h.2.2 hc hpath item ((hothers S hT).symm.trans hitem)
  | setting S K =>
    refine ⟨hknows, fun _ item hitem => ?_, fun hplace' => absurd hplace' (hplace S)⟩
    by_cases hT : S = T
    · subst hT
      obtain ⟨old, hfound⟩ := Option.ne_none_iff_exists'.mp hsubject
      obtain ⟨-, new, hnew, hkeys⟩ := hold old hfound
      obtain rfl := Option.some.inj (hnew.symm.trans hitem)
      exact hkeys K (h.2.1 hpath old hfound)
    · exact h.2.1 hpath item ((hothers S hT).symm.trans hitem)

/-- **What a definition at the root adds** to what is known, if its key has no dots. -/
theorem define_records_value (hd : d.Sound) (hpath : d.path = []) (hvalue : item.IsValue) (honce : inner.Nodup)
    (hkeys : ∀ name ∈ inner, item.HasKey name) {span : Option Span} {home : Option (List String)}
    (h : Table.define [] home key item ⟨{ d.current.form with span := span }, d.current.entries⟩ = .ok u) :
    d.Records (.table .value key.name :: inner.map (.setting key.name)) { d with current := u } := by
  obtain ⟨hnew, hu⟩ := Table.define_nil_cases h
  have hfound : u.entries.get? key.name = some item := by
    rw [hu]
    exact Entries.get?_append hnew
  have hothers (name : String) (hne : name ≠ key.name) : u.entries.get? name = d.current.entries.get? name := by
    rw [hu]
    exact Entries.get?_append_of_ne hne.symm
  constructor
  case sound =>
    refine ⟨hu ▸ hd.inline, hu ▸ hd.implicit, fun _ name i hi => ?_⟩
    by_cases hname : name = key.name
    · subst hname
      obtain rfl := Option.some.inj (hfound.symm.trans hi)
      exact hvalue.shut
    · exact hd.shut hpath name i ((hothers name hname).symm.trans hi)
  case kept =>
    intro e he
    exact holds_of_changed hpath hothers (fun old hold => absurd (hnew.symm.trans hold) nofun) he
  case known =>
    have hknows : Knows { d with current := u } key.name := by
      rw [knows_top (by exact hpath), hfound]
      exact Option.some_ne_none _
    refine List.forall_mem_cons.mpr ⟨⟨hknows, nofun, fun _ _ i hi => ?_⟩,
      List.forall_mem_map.mpr fun K hK => ⟨hknows, fun _ i hi => ?_, fun hplace => ?_⟩⟩
    · obtain rfl := Option.some.inj (hfound.symm.trans hi)
      exact hvalue
    · obtain rfl := Option.some.inj (hfound.symm.trans hi)
      exact hkeys K hK
    · cases (place_eq_top_iff.mpr hpath).symm.trans hplace
  case new =>
    -- nothing is known of a table whose key is new
    have hunknown (e' : Declaration) (hsubject : e'.subject = key.name) (e : Declaration) (he : d.Holds e) :
        ¬e.Conflicts e' := by
      intro hconflict
      have hknows := (knows_top hpath).mp he.knows
      rw [hconflict.subject_eq, hsubject] at hknows
      exact hknows hnew
    exact List.forall_mem_cons.mpr ⟨hunknown _ rfl, List.forall_mem_map.mpr fun K _ => hunknown _ rfl⟩
  case once =>
    refine List.pairwise_cons.mpr ⟨List.forall_mem_map.mpr fun _ _ => id, ?_⟩
    exact List.pairwise_map.mpr (honce.imp fun hne hconflict => hne hconflict.2)

/-- **What a dotted key leaves at its first part**: a table that it goes through, with all keys that were there,
none of which is the one defined. -/
theorem define_dotted_cases {first : Key} {above : List Key} {home : Option (List String)}
    (hinline : t.form.inline = false)
    (hshut : ∀ old, t.entries.get? first.name = some old → old.Shut)
    (h : t.define (first :: above) home key item = .ok u) :
    ∃ new, u.entries.get? first.name = some new ∧ new.Shut ∧ (above = [] → new.HasKey key.name) ∧
      ∀ old, t.entries.get? first.name = some old → ¬old.IsValue ∧
        ∀ name, old.HasKey name → new.HasKey name ∧ (above = [] → name ≠ key.name) := by
  obtain ⟨act, hact, h⟩ := Table.exists_act_of_define h
  have hform (v w : Table) (hv : act v = .ok w) : w.form = v.form := (hact v w hv).2 ▸ rfl
  have hkept (v w : Table) (hv : act v = .ok w) (name : String) (hname : v.entries.get? name ≠ none) :
      w.entries.get? name ≠ none := by
    obtain ⟨hnew, rfl⟩ := hact v w hv
    exact Entries.get?_append_ne_none hnew hname
  have hmade {v w : Table} (hv : v.alter true act ([] ++ [first]) above = .ok w) (habove : above = []) :
      v.entries.get? key.name = none ∧ w.entries.get? key.name ≠ none := by
    subst habove
    obtain ⟨hnew, rfl⟩ := hact v w hv
    rw [Entries.get?_append hnew]
    exact ⟨hnew, Option.some_ne_none _⟩
  obtain ⟨inner, put, below, henters, hbelow, rfl⟩ := Table.alter_cons_eq_ok_iff.mp h
  have hbelowForm := Table.alter_form hform hbelow
  cases henters with
  | fresh hnone =>
    refine ⟨_, Entries.get?_append hnone, fun _ => Or.inl ?_, fun habove => ⟨_, _, rfl, (hmade hbelow habove).2⟩,
      fun old hold => absurd (hnone.symm.trans hold) nofun⟩
    rw [hbelowForm]
  | @table form es hsome hopen =>
    -- the table was named by a dotted key before
    refine ⟨_, Entries.get?_update (hsome ▸ Option.some_ne_none _), ?_,
      fun habove => ⟨_, _, rfl, (hmade hbelow habove).2⟩, fun old hold => ?_⟩
    · rw [hbelowForm]
      exact hshut (.table form es) hsome
    · obtain rfl := Option.some.inj (hsome.symm.trans hold)
      refine ⟨fun hvalue => absurd (hinline.symm.trans (hopen hvalue)) nofun, ?_⟩
      rintro name ⟨_, _, ⟨⟩, hname⟩
      refine ⟨⟨_, _, rfl, Table.alter_keeps_key hkept hbelow hname⟩, ?_⟩
      rintro habove rfl
      exact hname (hmade hbelow habove).1
  | last hsome => exact (hshut _ hsome).elim

/-- **What a dotted key at the root adds** to what is known. -/
theorem define_records_dotted (hd : d.Sound) (hpath : d.path = []) {first : Key} {above : List Key}
    {span : Option Span} {home : Option (List String)}
    (h : Table.define (first :: above) home key item ⟨{ d.current.form with span := span }, d.current.entries⟩
      = .ok u) :
    d.Records (.table .dotted first.name :: if above = [] then [.setting first.name key.name] else [])
      { d with current := u } := by
  obtain ⟨new, hnew, hshut, hhas, hold⟩ := define_dotted_cases (by exact hd.inline) (by exact hd.shut hpath _) h
  have hform := Table.define_form h
  have hothers (name : String) (hne : name ≠ first.name) : u.entries.get? name = d.current.entries.get? name :=
    Table.alter_cons_of_ne h hne
  have hknows : Knows { d with current := u } first.name := by
    rw [knows_top (by exact hpath), hnew]
    exact Option.some_ne_none _
  constructor
  case sound =>
    refine ⟨hform ▸ hd.inline, hform ▸ hd.implicit, fun _ name i hi => ?_⟩
    by_cases hname : name = first.name
    · subst hname
      obtain rfl := Option.some.inj (hnew.symm.trans hi)
      exact hshut
    · exact hd.shut hpath name i ((hothers name hname).symm.trans hi)
  case kept =>
    intro e he
    refine holds_of_changed hpath hothers (fun old hfound => ⟨(hold old hfound).1, new, hnew, fun K hK => ?_⟩) he
    exact ((hold old hfound).2 K hK).1
  case known =>
    refine List.forall_mem_cons.mpr ⟨⟨hknows, nofun, nofun⟩, fun e he => ?_⟩
    split at he
    · rename_i habove
      obtain rfl := List.mem_singleton.mp he
      refine ⟨hknows, fun _ i hi => ?_, fun hplace => ?_⟩
      · obtain rfl := Option.some.inj (hnew.symm.trans hi)
        exact hhas habove
      · cases (place_eq_top_iff.mpr hpath).symm.trans hplace
    · cases he
  case new =>
    refine List.forall_mem_cons.mpr ⟨fun e he hconflict => ?_, fun e' he' e he hconflict => ?_⟩
    · -- a table that a dotted key goes through has neither a header nor a value
      obtain ⟨old, hfound⟩ := Option.ne_none_iff_exists'.mp ((knows_top hpath).mp he.knows)
      cases e with
      | setting => exact hconflict
      | table c T =>
        obtain ⟨rfl, hother⟩ := hconflict
        cases c with
        | header => exact he.2.1 rfl hpath
        | value => exact (hold old hfound).1 (he.2.2 rfl hpath old hfound)
        | dotted => exact hother rfl rfl
    · split at he'
      · rename_i habove
        obtain rfl := List.mem_singleton.mp he'
        obtain ⟨old, hfound⟩ := Option.ne_none_iff_exists'.mp ((knows_top hpath).mp he.knows)
        cases e with
        | table => exact hconflict
        | setting T K =>
          obtain ⟨rfl, rfl⟩ := hconflict
          exact ((hold old hfound).2 _ (he.2.1 hpath old hfound)).2 habove rfl
      · cases he'
  case once =>
    split
    · exact List.pairwise_pair.mpr id
    · exact List.pairwise_singleton _ _

/-- **What a definition adds** to what is known. -/
theorem define_records (hd : d.Sound) (hks : ks ≠ []) (hvalue : item.IsValue) (honce : inner.Nodup)
    (hkeys : ∀ name ∈ inner, item.HasKey name) (h : d.define ks item = .ok d') :
    d.Records ((Statement.definition (names ks) inner).declares d.place) d' := by
  by_cases hpath : d.path = []
  · obtain ⟨above, key, span, u, rfl, hdefine, rfl⟩ := define_cases hks h
    rw [place_eq_top_iff.mpr hpath]
    cases above with
    | nil => exact define_records_value hd hpath hvalue honce hkeys hdefine
    | cons first rest =>
      have hrecords := define_records_dotted hd hpath hdefine
      cases rest with
      | nil => exact hrecords
      | cons next rest => cases rest <;> exact hrecords
  · exact define_records_below hd hpath hks h

end Definitions

/-! ### Documents -/

/-- **What a line adds** to what is known. -/
theorem Makes.records {o : Option Statement} (hd : d.Sound) (h : d.Makes o d') :
    d.Records (o.elim [] fun s => s.declares d.place) d' ∧
      d'.place = o.elim d.place fun s => s.after d.place := by
  cases h with
  | idle => exact ⟨⟨hd, fun _ he => he, nofun, nofun, List.Pairwise.nil⟩, rfl⟩
  | table hks h =>
    have hopens := openTable_opens hd hks h
    exact ⟨hopens.records hks d.place, hopens.place hks d.place⟩
  | list hks h =>
    have hopens := openListTable_opens hd hks h
    exact ⟨hopens.records hks d.place, hopens.place hks d.place⟩
  | key hks hvalue honce hkeys h =>
    refine ⟨define_records hd hks hvalue honce hkeys h, ?_⟩
    obtain ⟨-, -, -, -, -, -, rfl⟩ := define_cases hks h
    rfl

/-- **What a run of statements declares** is in conflict neither with what is known nor with itself. -/
theorem Runs.pairwise {statements : List Statement} {known : List Declaration} (h : d.Runs statements d')
    (hd : d.Sound) (hknown : ∀ e ∈ known, d.Holds e) (honce : known.Pairwise fun e e' => ¬e.Conflicts e') :
    (known ++ declarations d.place statements).Pairwise fun e e' => ¬e.Conflicts e' := by
  induction h generalizing known with
  | done =>
    rw [declarations, List.append_nil]
    exact honce
  | @step d next stop o more hmakes hmore ih =>
    obtain ⟨hrecords, hplace⟩ := hmakes.records hd
    have hdeclares : declarations d.place (o.toList ++ more) =
        (o.elim [] fun s => s.declares d.place) ++ declarations next.place more := by
      rw [hplace]
      cases o <;> rfl
    rw [hdeclares, ← List.append_assoc]
    -- what is known grows by what the line declares
    refine ih hrecords.sound (fun e he => ?_) ?_
    · rcases List.mem_append.mp he with he | he
      · exact hrecords.kept e (hknown e he)
      · exact hrecords.known e he
    · exact List.pairwise_append.mpr ⟨honce, hrecords.once, fun e he e' he' => hrecords.new e' he' e (hknown e he)⟩

end Draft

/-- **A document that is read** defines nothing twice, and can be read line by line. -/
theorem document_once {s : Input} {root : Table} (h : document s = .ok root) :
    (statements s).2 = true ∧ ¬Redefines (declarations .top (statements s).1) := by
  obtain ⟨hread, span, stop, hruns⟩ := document_runs h
  refine ⟨hread, ?_⟩
  have hsound : Draft.Sound { current := { form := { span := span } } } := ⟨rfl, rfl, fun _ _ _ hitem => nomatch hitem⟩
  have hpairwise := hruns.pairwise hsound (List.forall_mem_nil _) List.Pairwise.nil
  rintro ⟨e, e', hsublist, hconflict⟩
  exact List.pairwise_iff_forall_sublist.mp hpairwise hsublist hconflict

end QualityGate.Toml
