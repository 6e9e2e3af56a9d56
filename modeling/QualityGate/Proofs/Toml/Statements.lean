import QualityGate.Proofs.Toml.Document
/-!
## The statements of a document

Line by line, a document states headers and definitions. Which ones these are is told from the text alone
(`statements`), without putting any of them into a table: of a value, only the keys between the braces of an
inline table count.

* `innerKeys_of_value`: an inline table that is read defines none of its keys twice.
* `Draft.Makes`: what a line makes of a draft.
* `document_runs`: a document that is read is a run through its statements.
-/

namespace QualityGate.Toml

variable {d d' : Draft} {rest s : Input} {item : Item}

/-! ### What a text states -/

/-- **What a line of a document states.** -/
inductive Statement
  /-- The header of a table, or of a list of tables. -/
  | header (list : Bool) (path : List String)
  /-- A definition, with the keys without dots that its value defines between braces. -/
  | definition (path inner : List String)
  deriving DecidableEq, Repr

/-- The text behind a value that is answered. -/
def Reply.rest? : Reply α → Option Input
  | ok _ rest => some rest
  | tentative _ _ => none
  | committed _ _ => none

/-- **What a line is read as**: its statement, if it makes one, and the text behind it, if it is read to its
end. -/
structure LineReading where
  statement : Option Statement
  rest : Option Input

/-- The name of a key without dots. -/
def singleKey? : List Key → Option String
  | [k] => some k.name
  | _ => none

/-- The keys without dots that a value defines between its braces. -/
def innerKeys : Input → List String
  | '\x7b' :: r =>
    match definitions (value (depthLimit - 2)) r with
    | .ok ds _ => ds.filterMap fun d => singleKey? d.1
    | _ => []
  | _ => []

/-- A line that defines a key. -/
def definitionReading (s : Input) : LineReading :=
  match dottedKey s with
  | .ok ks ('=' :: r) =>
    { statement := some (.definition (names ks) (innerKeys (skipSpaces r)))
      rest := ((value (depthLimit - 1) (skipSpaces r)).andThen fun _ rest => lineRest rest).rest? }
  | _ => ⟨none, none⟩

/-- A header, from its key on. -/
def headerReading (list : Bool) (inner : Input) : LineReading :=
  match dottedKey inner with
  | .ok ks rest =>
    { statement := some (.header list (names ks))
      rest := ((exactly (headerEnd list).toList rest).andThen fun _ after => lineRest after).rest? }
  | _ => ⟨none, none⟩

/-- **One line or part of a line that is not blank.** -/
def lineReading (c : Char) (r : Input) : LineReading :=
  if c = '#' then ⟨none, (lineEnd (skipComment (c :: r))).rest?⟩
  else if c = '[' then
    match r with
    | '[' :: r => headerReading true r
    | _ => headerReading false r
  else if c = '\n' ∨ c = '\r' then ⟨none, afterNewline? (c :: r)⟩
  else definitionReading (c :: r)

/-- The statements of no more lines than `n`, and whether these lines are read to the end of the text. -/
def statementsOnto : Nat → Input → List Statement × Bool
  | 0, _ => ([], true)
  | n + 1, s =>
    match skipSpaces s with
    | [] => ([], true)
    | c :: r =>
      let line := lineReading c r
      match line.rest with
      | none => (line.statement.toList, false)
      | some rest =>
        let more := statementsOnto n rest
        (line.statement.toList ++ more.1, more.2)

/-- **The statements of a document, as far as its lines can be read**, and whether all of them can. -/
def statements (s : Input) : List Statement × Bool :=
  statementsOnto ((dropMark s).length + 1) (dropMark s)

/-! ### Answers -/

namespace Reply

variable {v : α} {r : Reply α}

theorem andThen_eq_ok {next : α → Input → Reply β} {w : β} :
    r.andThen next = .ok w rest ↔ ∃ v behind, r = .ok v behind ∧ next v behind = .ok w rest := by
  cases r with
  | ok v behind =>
    rw [andThen_ok]
    exact ⟨fun h => ⟨v, behind, rfl, h⟩, by rintro ⟨_, _, ⟨⟩, h⟩; exact h⟩
  | tentative p c => exact ⟨nofun, nofun⟩
  | committed p c => exact ⟨nofun, nofun⟩

theorem commit_eq_ok : r.commit = .ok v rest ↔ r = .ok v rest := by
  cases r with
  | ok v behind => rfl
  | tentative p c => exact ⟨nofun, nofun⟩
  | committed p c => exact Iff.rfl

theorem onComplaint_eq_ok {f : Complaint → Complaint} : r.onComplaint f = .ok v rest ↔ r = .ok v rest := by
  cases r with
  | ok v behind => rfl
  | tentative p c => exact ⟨nofun, nofun⟩
  | committed p c => exact ⟨nofun, nofun⟩

theorem labelled_eq_ok {name : String} : r.labelled name = .ok v rest ↔ r = .ok v rest :=
  onComplaint_eq_ok

theorem wanting_eq_ok {ws : List Wanted} : r.wanting ws = .ok v rest ↔ r = .ok v rest :=
  onComplaint_eq_ok

end Reply

/-! ### Values -/

/-- **An item that a value may be read as.** A table among them is an inline one. -/
def Item.IsValue : Item → Prop
  | scalar _ _ => True
  | array _ _ => True
  | table form _ => form.inline = true
  | tables _ => False

open Reply

theorem placed_isValue (start : Input) (f : α → Scalar) (r : Reply α) :
    (placed start f r).Gives Item.IsValue :=
  gives_andThen fun _ _ => trivial

/-- The table of some definitions is an inline one. -/
theorem tableOfDefinitions_inline {ds : List (List Key × Item)} {t : Table}
    (h : tableOfDefinitions ds = .ok t) : t.form.inline = true := by
  refine foldlM_keeps (fun u : Table => u.form.inline = true) (fun t u d _ ht hu => ?_) rfl h
  cases hlast : d.1.getLast? with
  | none =>
    rw [hlast] at hu
    exact Except.ok.inj hu ▸ ht
  | some key =>
    rw [hlast] at hu
    rw [Table.define_form hu]
    exact ht

/-- What an inline table that is read is made of. -/
theorem inlineRest_eq_ok {read : Input → Reply Item} {start inner : Input}
    (h : inlineRest read start inner = .ok item rest) :
    ∃ ds t span, definitions read inner = .ok ds ('\x7d' :: rest) ∧ tableOfDefinitions ds = .ok t ∧
      item = .table { t.form with span := span } t.entries := by
  obtain ⟨ds, behind, hread, h⟩ := andThen_eq_ok.mp h
  split at h
  · cases h
  · rename_i t htable
    split at h
    · cases h
      exact ⟨ds, t, _, hread, htable, rfl⟩
    · cases h

theorem valueOver_isValue (inner : Option (Input → Reply Item)) (s : Input) :
    (valueOver inner s).Gives Item.IsValue := by
  have harray (value : Input → Reply Item) (start r : Input) :
      (arrayRest value start r).Gives Item.IsValue := by
    refine gives_andThen fun vs rest => ?_
    split <;> trivial
  have hinline (value : Input → Reply Item) (start r : Input) :
      (inlineRest value start r).Gives Item.IsValue := by
    cases hread : inlineRest value start r with
    | ok item rest =>
      obtain ⟨ds, t, span, -, htable, rfl⟩ := inlineRest_eq_ok hread
      exact tableOfDefinitions_inline htable
    | tentative p c => trivial
    | committed p c => trivial
  have hword (start : Input) (w : String) (v : Scalar) : (word start w v).Gives Item.IsValue :=
    (placed_isValue _ _ _).onComplaint
  cases s with
  | nil => trivial
  | cons c r =>
    rw [valueOver.eq_def]
    dsimp only
    -- one case for each character that a value may begin with
    split
    · exact placed_isValue _ _ _
    split
    · split
      · exact harray _ _ _
      · trivial
    split
    · split
      · exact hinline _ _ _
      · trivial
    split
    · exact (placed_isValue _ _ _).orElse ((placed_isValue _ _ _).orElse (placed_isValue _ _ _))
    split
    · exact (placed_isValue _ _ _).onComplaint
    split
    · exact (placed_isValue _ _ _).onComplaint
    split
    · exact (hword _ _ _).commit
    split
    · exact (hword _ _ _).commit
    split
    · exact hword _ _ _
    split
    · exact hword _ _ _
    · trivial

/-- **What a value is read as** is a scalar, an array or an inline table. -/
theorem isValue_of_value {depth : Nat} (h : value depth s = .ok item rest) : item.IsValue := by
  have hgives : (value depth s).Gives Item.IsValue := by
    cases depth <;> exact valueOver_isValue _ s
  rw [h] at hgives
  exact hgives

/-- An item is a table with an entry of a name. -/
def Item.HasKey (name : String) (item : Item) : Prop :=
  ∃ form es, item = .table form es ∧ Entries.get? name es ≠ none

/-- The keys without dots of some definitions. -/
def singleKeys (ds : List (List Key × Item)) : List String :=
  ds.filterMap fun d => singleKey? d.1

/-- **Definitions that are added to a table** define no key twice, nor one that is there. -/
theorem foldlM_add_once {ds : List (List Key × Item)} {t u : Table} (h : ds.foldlM Table.add t = .ok u) :
    (singleKeys ds).Nodup ∧
      (∀ name ∈ singleKeys ds, t.entries.get? name = none ∧ u.entries.get? name ≠ none) ∧
      ∀ name, t.entries.get? name ≠ none → u.entries.get? name ≠ none := by
  induction ds generalizing t with
  | nil =>
    obtain rfl := Except.ok.inj h
    exact ⟨List.nodup_nil, nofun, fun _ hname => hname⟩
  | cons d ds ih =>
    obtain ⟨next, hnext, hrest⟩ := foldlM_cons_ok h
    obtain ⟨honce, hkeys, hkept⟩ := ih hrest
    have hgrows : ∀ name, t.entries.get? name ≠ none → next.entries.get? name ≠ none := by
      intro name hname
      rcases Table.add_cases hnext with rfl | ⟨key, hdefine⟩
      · exact hname
      · exact Table.define_keeps_key hdefine hname
    -- what the first definition leaves free was free before it
    have hfresh : ∀ name, next.entries.get? name = none → t.entries.get? name = none :=
      fun name hnone => not_not.mp fun hname => hgrows name hname hnone
    have hall : ∀ name, t.entries.get? name ≠ none → u.entries.get? name ≠ none :=
      fun name hname => hkept name (hgrows name hname)
    cases hsingle : singleKey? d.1 with
    | none =>
      have hsame : singleKeys (d :: ds) = singleKeys ds := List.filterMap_cons_none hsingle
      rw [hsame]
      exact ⟨honce, fun name hname => ⟨hfresh name (hkeys name hname).1, (hkeys name hname).2⟩, hall⟩
    | some name =>
      have hcons : singleKeys (d :: ds) = name :: singleKeys ds := List.filterMap_cons_some hsingle
      obtain ⟨k, hk, rfl⟩ : ∃ k, d.1 = [k] ∧ k.name = name := by
        unfold singleKey? at hsingle
        split at hsingle
        · exact ⟨_, ‹_›, Option.some.inj hsingle⟩
        · cases hsingle
      have hdefine : t.define [] none k d.2 = .ok next := by
        rw [Table.add, hk] at hnext
        exact hnext
      obtain ⟨hnew, rfl⟩ := Table.define_nil_cases hdefine
      have hadded : Entries.get? k.name (t.entries ++ [(k, d.2)]) ≠ none := by
        rw [Entries.get?_append hnew]
        exact Option.some_ne_none _
      rw [hcons]
      refine ⟨List.nodup_cons.mpr ⟨fun hmem => hadded (hkeys _ hmem).1, honce⟩, ?_, hall⟩
      refine List.forall_mem_cons.mpr ⟨⟨hnew, hkept _ hadded⟩, fun name hname => ?_⟩
      exact ⟨hfresh name (hkeys name hname).1, (hkeys name hname).2⟩

/-- **An inline table that is read defines none of its keys twice**, and holds each of them. -/
theorem innerKeys_of_value (h : value (depthLimit - 1) s = .ok item rest) :
    (innerKeys s).Nodup ∧ ∀ name ∈ innerKeys s, item.HasKey name := by
  by_cases hbrace : ∃ r, s = '\x7b' :: r
  · obtain ⟨r, rfl⟩ := hbrace
    obtain ⟨ds, t, span, hread, htable, rfl⟩ := inlineRest_eq_ok (h : inlineRest _ _ _ = _)
    have hread : definitions (value (depthLimit - 2)) r = .ok ds ('\x7d' :: rest) := hread
    have hinner : innerKeys ('\x7b' :: r) = singleKeys ds := by
      rw [innerKeys, hread]
      rfl
    obtain ⟨honce, hkeys, -⟩ := foldlM_add_once (htable : ds.foldlM Table.add _ = _)
    rw [hinner]
    exact ⟨honce, fun name hname => ⟨_, _, rfl, (hkeys name hname).2⟩⟩
  · have hinner : innerKeys s = [] := by
      unfold innerKeys
      split
      · exact absurd ⟨_, rfl⟩ hbrace
      · rfl
    -- no braces, no keys
    rw [hinner]
    exact ⟨List.nodup_nil, nofun⟩

/-! ### Lines -/

/-- A dotted key has a part. -/
theorem dottedKey_ne_nil {ks : List Key} (h : dottedKey s = .ok ks rest) : ks ≠ [] := by
  have hmore (acc : List Key) (n : Nat) (s : Input) (hacc : acc ≠ []) :
      (moreKeys acc n s).Gives (· ≠ []) := by
    fun_induction moreKeys acc n s with
    | case1 => exact List.reverse_ne_nil_iff.mpr hacc
    | case2 acc n r k rest hkey ih => exact ih (List.cons_ne_nil _ _)
    | case3 => exact List.reverse_ne_nil_iff.mpr hacc
    | case4 => trivial
    | case5 => exact List.reverse_ne_nil_iff.mpr hacc
  obtain ⟨ks', behind, hread, h⟩ := andThen_eq_ok.mp h
  obtain ⟨k, start, -, hkeys⟩ := andThen_eq_ok.mp (labelled_eq_ok.mp hread)
  have hgives := hmore [k] start.length start (List.cons_ne_nil _ _)
  rw [hkeys] at hgives
  split at h
  · cases h
    exact hgives
  · cases h

/-- **What a line makes of a draft**: nothing new, a table opened, or a key defined. -/
inductive Draft.Makes : Draft → Option Statement → Draft → Prop
  | idle {d : Draft} : Makes d none d
  | table {d d' : Draft} {ks : List Key} {span : Span} (hks : ks ≠ []) (h : d.openTable ks span = .ok d') :
      Makes d (some (.header false (names ks))) d'
  | list {d d' : Draft} {ks : List Key} {span : Span} (hks : ks ≠ [])
      (h : d.openListTable ks span = .ok d') : Makes d (some (.header true (names ks))) d'
  | key {d d' : Draft} {ks : List Key} {item : Item} {inner : List String} (hks : ks ≠ [])
      (hvalue : item.IsValue) (honce : inner.Nodup) (hkeys : ∀ name ∈ inner, item.HasKey name)
      (h : d.define ks item = .ok d') : Makes d (some (.definition (names ks) inner)) d'

theorem orClash_eq_ok {place behind : Input} {result : Except Clash Draft}
    (h : orClash place behind result = .ok d' rest) : result = .ok d' ∧ behind = rest := by
  cases result with
  | ok d =>
    cases h
    exact ⟨rfl, rfl⟩
  | error c => cases h

theorem definitionLine_makes (h : definitionLine d s = .ok d' rest) :
    ∃ o, definitionReading s = ⟨o, some rest⟩ ∧ d.Makes o d' := by
  obtain ⟨ks, after, hks, h⟩ := andThen_eq_ok.mp h
  -- the reading takes the same steps as the line, up to what the draft makes of them
  have hks := commit_eq_ok.mp hks
  split at h
  · rename_i r _
    obtain ⟨v, behind, hv, h⟩ := andThen_eq_ok.mp h
    have hv := commit_eq_ok.mp hv
    obtain ⟨⟨⟩, stop, hstop, h⟩ := andThen_eq_ok.mp h
    have hstop := wanting_eq_ok.mp (commit_eq_ok.mp hstop)
    obtain ⟨hdefine, rfl⟩ := orClash_eq_ok h
    refine ⟨some (.definition (names ks) (innerKeys (skipSpaces r))), ?_, ?_⟩
    · rw [definitionReading, hks]
      simp only [hv, andThen_ok, hstop]
      rfl
    · obtain ⟨honce, hkeys⟩ := innerKeys_of_value hv
      exact .key (dottedKey_ne_nil hks) (isValue_of_value hv) honce hkeys hdefine
  · cases h

theorem headerRest_makes {list : Bool} {start inner : Input}
    (h : headerRest d list start inner = .ok d' rest) :
    ∃ o, headerReading list inner = ⟨o, some rest⟩ ∧ d.Makes o d' := by
  obtain ⟨ks, behind, hks, h⟩ := andThen_eq_ok.mp h
  have hks := commit_eq_ok.mp hks
  obtain ⟨⟨⟩, after, hafter, h⟩ := andThen_eq_ok.mp h
  have hafter := wanting_eq_ok.mp (commit_eq_ok.mp hafter)
  obtain ⟨⟨⟩, stop, hstop, h⟩ := andThen_eq_ok.mp h
  have hstop := wanting_eq_ok.mp (commit_eq_ok.mp hstop)
  obtain ⟨hopen, rfl⟩ := orClash_eq_ok h
  refine ⟨some (.header list (names ks)), ?_, ?_⟩
  · rw [headerReading, hks]
    dsimp only
    rw [hafter, andThen_ok, hstop]
    rfl
  · cases list with
    | false => exact .table (dottedKey_ne_nil hks) hopen
    | true => exact .list (dottedKey_ne_nil hks) hopen

/-- **A line that is read** is read to its end, and makes of a draft what it states. -/
theorem line_makes {c : Char} {r : Input} (h : line d c r = .ok d' rest) :
    ∃ o, lineReading c r = ⟨o, some rest⟩ ∧ d.Makes o d' := by
  unfold lineReading
  rw [line] at h
  -- the first character says in both what kind of line it is
  by_cases hcomment : c = '#'
  · rw [if_pos hcomment] at h ⊢
    obtain ⟨⟨⟩, behind, hend, hd⟩ := andThen_eq_ok.mp (commit_eq_ok.mp h)
    cases hd
    rw [hend]
    exact ⟨none, rfl, .idle⟩
  rw [if_neg hcomment] at h ⊢
  by_cases hheader : c = '['
  · rw [if_pos hheader] at h ⊢
    rw [hheader] at h
    have h := labelled_eq_ok.mp h
    split at h
    · rename_i inner hcons
      obtain rfl := (List.cons.inj hcons).2
      exact headerRest_makes h
    · rename_i c' inner hlist hcons
      obtain rfl := (List.cons.inj hcons).2
      split
      · rename_i hcons'
        exact (hlist (List.cons.inj hcons').1).elim
      · exact headerRest_makes h
    · cases h
  rw [if_neg hheader] at h ⊢
  by_cases hblank : c = '\n' ∨ c = '\r'
  · rw [if_pos hblank] at h ⊢
    split at h
    · rename_i hend
      cases h
      rw [hend]
      exact ⟨none, rfl, .idle⟩
    · cases h
  · rw [if_neg hblank] at h ⊢
    exact definitionLine_makes h

/-! ### Documents -/

/-- **What some statements make of a draft**, one after the other. -/
inductive Draft.Runs : Draft → List Statement → Draft → Prop
  | done {d : Draft} : Runs d [] d
  | step {d next stop : Draft} {o : Option Statement} {more : List Statement} (h : d.Makes o next)
      (hmore : next.Runs more stop) : Runs d (o.toList ++ more) stop

theorem linesOnto_runs {n : Nat} (h : linesOnto d n s = .ok d' rest) :
    (statementsOnto n s).2 = true ∧ d.Runs (statementsOnto n s).1 d' := by
  induction n generalizing d s with
  | zero =>
    cases h
    exact ⟨rfl, .done⟩
  | succ n ih =>
    rw [linesOnto] at h
    rw [statementsOnto]
    cases hskip : skipSpaces s with
    | nil =>
      rw [hskip] at h
      cases h
      exact ⟨rfl, .done⟩
    | cons c r =>
      rw [hskip] at h
      dsimp only at h ⊢
      cases hline : line d c r with
      | ok next behind =>
        rw [hline] at h
        obtain ⟨o, hreading, hmakes⟩ := line_makes hline
        obtain ⟨hread, hruns⟩ := ih h
        rw [hreading]
        exact ⟨hread, .step hmakes hruns⟩
      | tentative p m =>
        rw [hline] at h
        cases h
      | committed p m =>
        rw [hline] at h
        cases h

/-- **A document that is read** can be read line by line, and is a run through its statements. -/
theorem document_runs {root : Table} (h : document s = .ok root) :
    (statements s).2 = true ∧
      ∃ span stop, Draft.Runs { current := { form := { span := span } } } (statements s).1 stop := by
  rw [document] at h
  dsimp only at h
  split at h
  · rename_i stop rest hread
    obtain ⟨hall, hruns⟩ := linesOnto_runs hread
    exact ⟨hall, _, stop, hruns⟩
  · cases h
  · cases h

end QualityGate.Toml
