import QualityGate.Proofs.Toml.Layout
/-!
## One setting in a document

A key in a table can be defined in three ways: below the header of the table, by a dotted key, or in an
inline table. `Sets` holds of the documents that define one key of one table and nothing else, however they
are laid out.

* `lineReadsTo_definition`, `lineReadsTo_header`: a line that defines a key and the header of a table are
  read, whatever they make of the draft.
* `readsTo_inline`: an inline table of one key is read like any other value.
* `document_sets`: all of them are read alike. The document holds the one table with the one key, with
  whatever its value is read as, and it is refused if the value is.
-/

namespace QualityGate.Toml

variable {d d' : Draft} {s rest sp k t v tail text : List Char} {path : List String} {table key : String}
  {levels : Nat} {R : Option Item → Prop}

/-! ### Lines that define a key -/

theorem endsKey_equals (rest : Input) : EndsKey ('=' :: rest) := by
  rintro c ⟨⟩
  decide

/-- A line that begins with a key is one that defines it. -/
theorem line_of_key {c : Char} (hc : StartsKey c) (d : Draft) (r : Input) :
    line d c r = definitionLine d (c :: r) := by
  rw [line, if_neg (hc.ne (by decide)), if_neg (hc.ne (by decide)),
    if_neg (not_or.mpr ⟨hc.ne (by decide), hc.ne (by decide)⟩)]

theorem ReadsTo.skipSpaces (h : ReadsTo levels v R) (hsp : Spaces sp) (rest : Input) :
    skipSpaces (sp ++ (v ++ rest)) = v ++ rest := by
  obtain ⟨c, cs, rfl, hc⟩ := h.head
  exact skipSpaces_append hsp (by rintro e ⟨⟩; exact hc)

/-- **A line that defines a key** is read, as long as the key may be defined where it stands. -/
theorem lineReadsTo_definition {P : Option Draft → Prop} (hk : PathSpelling path k)
    (hpath : path.length < depthLimit) (hsp : Spaces sp) (hv : ReadsTo levels v R)
    (hlevels : levels < depthLimit)
    (hdefine : ∀ ks item, names ks = path → R (some item) → ∃ d', d.define ks item = .ok d' ∧ P (some d'))
    (hrefused : R none → P none) : LineReadsTo d (k ++ '=' :: (sp ++ v)) P := by
  obtain ⟨c, r, hck, hc⟩ := hk.exists_cons
  refine ⟨c, r ++ '=' :: (sp ++ v), by rw [hck]; rfl, hc.not_isSpace, fun {tail rest} ht => ?_⟩
  have hline : line d c (r ++ '=' :: (sp ++ v) ++ tail) =
      definitionLine d (k ++ '=' :: (sp ++ (v ++ tail))) := by
    rw [line_of_key hc, hck]
    simp only [List.cons_append, List.append_assoc]
  have hblank : Spaces [] := nofun
  obtain ⟨ks, hks, hnames⟩ := dottedKey_spelling hblank hk hpath (endsKey_equals (sp ++ (v ++ tail)))
  rw [List.nil_append] at hks
  rw [hline, definitionLine, hks]
  simp only [Reply.commit_ok, Reply.andThen_ok, hv.skipSpaces hsp]
  rcases hv.reads (Nat.le_sub_one_of_lt hlevels) ht.ends with ⟨item, hvalue, hitem⟩ | ⟨hvalue, hnone⟩
  · obtain ⟨d', hd', hP⟩ := hdefine ks item hnames hitem
    refine Or.inl ⟨d', ?_, hP⟩
    rw [hvalue]
    simp only [Reply.commit_ok, Reply.andThen_ok, lineRest_tail ht, Reply.wanting_ok, hd', orClash]
  · obtain ⟨place, complaint, hvalue⟩ := hvalue
    refine Or.inr ⟨⟨place, complaint, ?_⟩, hrefused hnone⟩
    rw [hvalue]
    rfl

/-! ### Inline tables -/

/-- A table of one key, if its value is read as `R` tells. -/
def SingletonItem (key : String) (R : Option Item → Prop) : Option Item → Prop
  | some i => ∃ form k item, i = .table form [(k, item)] ∧ k.name = key ∧ R (some item)
  | none => R none

theorem ends_brace (rest : Input) : Ends ('\x7d' :: rest) := by
  rintro c ⟨⟩
  decide

/-- One definition between braces, up to what may follow on it. -/
theorem inlineDefinition_reads {sp' sp'' : List Char} (hsp : Spaces sp) (hk : PathSpelling path k)
    (hpath : path.length < depthLimit) (hsp' : Spaces sp') (hv : ReadsTo levels v R) {depth : Nat}
    (hlevels : levels ≤ depth) (hsp'' : Spaces sp'') (hrest : Ends rest)
    (hspace : ∀ c ∈ rest.head?, isSpace c = false) :
    (∃ ks item, inlineDefinition (value depth)
        (sp ++ (k ++ '=' :: (sp' ++ (v ++ (sp'' ++ rest))))) = .ok (ks, item) rest ∧
      names ks = path ∧ R (some item)) ∨
    (∃ place complaint, inlineDefinition (value depth)
        (sp ++ (k ++ '=' :: (sp' ++ (v ++ (sp'' ++ rest))))) = .committed place complaint) ∧
      R none := by
  obtain ⟨ks, hks, hnames⟩ := dottedKey_spelling hsp hk hpath
    (endsKey_equals (sp' ++ (v ++ (sp'' ++ rest))))
  rw [inlineDefinition, hks]
  simp only [Reply.andThen_ok, hv.skipSpaces hsp']
  rcases hv.reads hlevels (hrest.spaces_append hsp'') with ⟨item, hvalue, hitem⟩ | ⟨hvalue, hnone⟩
  · refine Or.inl ⟨ks, item, ?_, hnames, hitem⟩
    rw [hvalue]
    simp only [Reply.andThen_ok, Reply.commit_ok]
    rw [skipSpaces_append hsp'' hspace]
  · exact Or.inr ⟨hvalue.andThen _, hnone⟩

theorem value_brace (depth : Nat) (r : Input) :
    value (depth + 1) ('\x7b' :: r) = inlineRest (value depth) ('\x7b' :: r) r := rfl

/-- An inline table whose first definition is the last. -/
theorem inlineRest_singleton {read : Input → Reply Item} {start inner : Input} {key : Key} {item : Item}
    (h : inlineDefinition read inner = .ok ([key], item) ('\x7d' :: rest)) :
    inlineRest read start inner =
      .ok (.table { inline := true, span := some ⟨start, rest⟩ } [(key, item)]) rest := by
  rw [inlineRest, definitions, h]
  rfl

theorem inlineRest_committed {read : Input → Reply Item} {start inner place : Input}
    {complaint : Complaint} (h : inlineDefinition read inner = .committed place complaint) :
    inlineRest read start inner = .committed place complaint := by
  rw [inlineRest, definitions, h]
  rfl

/-- **An inline table of one key** is read, one level further down. -/
theorem readsTo_inline {sp' sp'' : List Char} (hsp : Spaces sp) (hk : KeyPath [key] k)
    (hsp' : Spaces sp') (hv : ReadsTo levels v R) (hsp'' : Spaces sp'') :
    ReadsTo (levels + 1) ('\x7b' :: (sp ++ (k ++ '=' :: (sp' ++ (v ++ (sp'' ++ ['\x7d']))))))
      (SingletonItem key R) := by
  refine ⟨⟨_, _, rfl, rfl⟩, fun {depth} hdepth {rest} _ => ?_⟩
  cases depth with
  | zero => exact absurd hdepth (Nat.not_succ_le_zero _)
  | succ depth =>
    simp only [List.cons_append, List.append_assoc, List.nil_append, value_brace]
    rcases inlineDefinition_reads hsp hk.spelling (by simp [depthLimit]) hsp' hv
      (Nat.le_of_succ_le_succ hdepth) hsp'' (ends_brace rest) (by rintro c ⟨⟩; rfl) with
      ⟨ks, item, hread, hnames, hitem⟩ | ⟨⟨place, complaint, hread⟩, hnone⟩
    · rw [names, List.map_eq_singleton_iff] at hnames
      obtain ⟨key', rfl, hkey⟩ := hnames
      exact Or.inl ⟨_, inlineRest_singleton hread, _, key', item, rfl, hkey, hitem⟩
    · rw [inlineRest_committed hread]
      exact Or.inr ⟨⟨place, complaint, rfl⟩, hnone⟩

/-! ### Headers -/

theorem endsKey_bracket (rest : Input) : EndsKey (']' :: rest) := by
  rintro c ⟨⟩
  decide

/-- A bracket that no other one follows opens the header of a table. -/
theorem headerLine_of_ne {c : Char} (hc : c ≠ '[') (d : Draft) (r : Input) :
    headerLine d ('[' :: c :: r) = (headerRest d false ('[' :: c :: r) (c :: r)).labelled "table header" := by
  unfold headerLine
  split
  · exact absurd (List.cons_eq_cons.mp (List.cons_eq_cons.mp ‹_›).2).1 hc
  · rename_i heq
    obtain ⟨rfl, rfl⟩ := List.cons_eq_cons.mp (List.cons_eq_cons.mp heq).2
    rfl
  · rename_i hnone
    exact absurd rfl (hnone c r)

/-- **The header of a table** is read, as long as the table may be opened where it stands. -/
theorem lineReadsTo_header {P : Option Draft → Prop} (hsp : Spaces sp) (ht : PathSpelling path t)
    (hpath : path.length < depthLimit)
    (hopen : ∀ ks span, names ks = path → ∃ d', d.openTable ks span = .ok d' ∧ P (some d')) :
    LineReadsTo d ('[' :: (sp ++ (t ++ [']']))) P := by
  refine ⟨'[', _, rfl, rfl, fun {tail rest} htail => Or.inl ?_⟩
  -- the second character opens no list of tables
  have hhead : ∀ c ∈ (sp ++ (t ++ ']' :: tail)).head?, c ≠ '[' := by
    refine head_spaces_append hsp (by decide) ?_
    obtain ⟨c, r, rfl, hc⟩ := ht.exists_cons
    rintro e ⟨⟩
    exact hc.ne (by decide)
  obtain ⟨c, r, hcr⟩ := List.exists_cons_of_ne_nil
    (List.append_ne_nil_of_right_ne_nil sp (List.append_ne_nil_of_right_ne_nil t (List.cons_ne_nil ']' tail)))
  rw [hcr] at hhead
  have hc : c ≠ '[' := hhead c rfl
  obtain ⟨ks, hks, hnames⟩ := dottedKey_spelling hsp ht hpath (endsKey_bracket tail)
  rw [hcr] at hks
  obtain ⟨d', hd', hP⟩ := hopen ks ⟨'[' :: c :: r, tail⟩ hnames
  refine ⟨d', ?_, hP⟩
  have hline : line d '[' (sp ++ (t ++ [']']) ++ tail) = headerLine d ('[' :: c :: r) := by
    rw [← hcr]
    simp only [List.append_assoc, List.cons_append, List.nil_append]
    rfl
  have hclosing : exactly (headerEnd false).toList (']' :: tail) = .ok () tail := rfl
  rw [hline, headerLine_of_ne hc, headerRest, hks]
  simp only [Reply.commit_ok, Reply.andThen_ok, hclosing, Reply.wanting_ok, lineRest_tail htail,
    Bool.false_eq_true, if_false, hd', orClash, Reply.labelled_ok]

/-! ### What the lines make of a draft -/

/-- The table being filled gets one more entry, if its value is read. -/
def Adds (d : Draft) (name : String) (R : Option Item → Prop) : Option Draft → Prop
  | some d' => ∃ k i span, d' = { d with
        current := ⟨{ d.current.form with span := span }, d.current.entries ++ [(k, i)]⟩ } ∧
      k.name = name ∧ R (some i)
  | none => R none

/-- Another table, so far empty, is being filled, and the one before is put into its place. -/
def Opens (d : Draft) (name : String) : Option Draft → Prop
  | some d' => ∃ k form, d' = { root := d.current, current := ⟨form, []⟩, path := [k] } ∧
      k.name = name ∧ form.dotted = false
  | none => False

theorem Table.define_nil {u : Table} {k : Key} {item : Item} {home : Option (List String)}
    (hdotted : u.form.dotted = false) (hnew : u.entries.get? k.name = none) :
    u.define [] home k item = .ok { u with entries := u.entries ++ [(k, item)] } := by
  simp [Table.define, Table.alter, hdotted, hnew]

theorem Table.define_singleton {u : Table} {t k : Key} {item : Item} {home : Option (List String)}
    (hnew : u.entries.get? t.name = none) :
    u.define [t] home k item = .ok { u with entries := u.entries ++
      [(t, .table { inline := u.form.inline, implicit := true, dotted := true } [(k, item)])] } := by
  simp [Table.define, Table.alter, hnew, Entries.get?]

/-- A table that is only named so far gets one more key. -/
theorem Table.define_extends {u : Table} {t k : Key} {item : Item} {home : Option (List String)}
    {form : TableForm} {inner : Entries} (hsome : u.entries.get? t.name = some (.table form inner))
    (hinline : form.inline = false) (himplicit : form.implicit = true) (hdotted : form.dotted = true)
    (hnew : inner.get? k.name = none) :
    u.define [t] home k item = .ok { u with
      entries := u.entries.update t.name (.table form (inner ++ [(k, item)])) } := by
  simp [Table.define, Table.alter, hsome, hinline, himplicit, hdotted, hnew]

/-- A key is defined in the table being filled, which then reaches further. -/
theorem Draft.define_concat (d : Draft) (above : List Key) (key : Key) (item : Item) :
    ∃ span, d.define (above ++ [key]) item =
      (Table.define above (some (names d.path)) key item
        ⟨{ d.current.form with span := span }, d.current.entries⟩).map fun t => { d with current := t } := by
  apply Exists.intro
  simp only [define, List.getLast?_concat, List.dropLast_concat]
  split
  all_goals
    rename_i h
    exact (congrArg (Except.map fun t : Table => { d with current := t }) h).symm

/-- A key without dots is defined in the table being filled. -/
theorem lineReadsTo_key (hdotted : d.current.form.dotted = false)
    (hnew : d.current.entries.get? key = none) (hk : PathSpelling [key] k) (hsp : Spaces sp)
    (hv : ReadsTo levels v R) (hlevels : levels < depthLimit) :
    LineReadsTo d (k ++ '=' :: (sp ++ v)) (Adds d key R) := by
  refine lineReadsTo_definition hk (by simp [depthLimit]) hsp hv hlevels (fun ks item hnames hitem => ?_) id
  rw [names, List.map_eq_singleton_iff] at hnames
  obtain ⟨k, rfl, rfl⟩ := hnames
  obtain ⟨span, hdefine⟩ := d.define_concat [] k item
  rw [List.nil_append, Table.define_nil (by exact hdotted) (by exact hnew)] at hdefine
  exact ⟨_, hdefine, k, item, span, rfl, rfl, hitem⟩

/-- A key of two parts brings its table with it. -/
theorem lineReadsTo_dotted (hnew : d.current.entries.get? table = none)
    (hk : PathSpelling [table, key] k) (hsp : Spaces sp) (hv : ReadsTo levels v R) (hlevels : levels < depthLimit) :
    LineReadsTo d (k ++ '=' :: (sp ++ v)) (Adds d table (SingletonItem key R)) := by
  refine lineReadsTo_definition hk (by simp [depthLimit]) hsp hv hlevels (fun ks item hnames hitem => ?_) id
  simp only [names, List.map_eq_cons_iff, List.map_eq_nil_iff] at hnames
  obtain ⟨t, _, rfl, rfl, k, _, rfl, rfl, rfl⟩ := hnames
  obtain ⟨span, hdefine⟩ := d.define_concat [t] k item
  rw [List.singleton_append, Table.define_singleton (by exact hnew)] at hdefine
  exact ⟨_, hdefine, t, _, span, rfl, rfl, _, k, item, rfl, rfl, hitem⟩

/-- The header of a table that is not named before. -/
theorem lineReadsTo_opens (hpath : d.path = []) (hnew : d.current.entries.get? table = none)
    (hsp : Spaces sp) (ht : PathSpelling [table] t) :
    LineReadsTo d ('[' :: (sp ++ (t ++ [']']))) (Opens d table) := by
  refine lineReadsTo_header hsp ht (by simp [depthLimit]) fun ks span hnames => ?_
  rw [names, List.map_eq_singleton_iff] at hnames
  obtain ⟨k, rfl, rfl⟩ := hnames
  have hopen : d.openTable [k] span =
      .ok { root := d.current, current := ⟨{ span := some span }, []⟩, path := [k] } := by
    simp [Draft.openTable, Draft.close, hpath, Draft.namedEntries, hnew, Table.alter, Draft.vacate]
  exact ⟨_, hopen, k, _, rfl, rfl, rfl⟩

/-! ### Documents of one setting -/

/-- **The lines that define one key of one table**: below its header, with a dotted key or in an inline
table. -/
inductive Layout (table key : String) (v : List Char) : List (List Char) → Prop
  | header {sp t k sp' : List Char} (hsp : Spaces sp) (ht : KeyPath [table] t) (hk : KeyPath [key] k)
    (hsp' : Spaces sp') : Layout table key v ['[' :: (sp ++ (t ++ [']'])), k ++ '=' :: (sp' ++ v)]
  | dotted {k sp : List Char} (hk : KeyPath [table, key] k) (hsp : Spaces sp) :
    Layout table key v [k ++ '=' :: (sp ++ v)]
  | inline {t k sp lead gap trail : List Char} (ht : KeyPath [table] t) (hsp : Spaces sp)
    (hlead : Spaces lead) (hk : KeyPath [key] k) (hgap : Spaces gap) (htrail : Spaces trail) :
    Layout table key v
      [t ++ '=' :: (sp ++ '\x7b' :: (lead ++ (k ++ '=' :: (gap ++ (v ++ (trail ++ ['\x7d']))))))]

/-- **The documents that define one key of one table and nothing else**, with any blanks, comments and
line ends, and behind a byte order mark or without one. -/
def Sets (table key : String) (v : List Char) (text : Input) : Prop :=
  ∃ lines, Layout table key v lines ∧ Lines lines (dropMark text)

/-- The entries of a document that holds one table with one key. -/
def Entries.HoldsOnly (es : Entries) (table key : String) (R : Option Item → Prop) : Prop :=
  ∃ t form k item, es = [(t, .table form [(k, item)])] ∧ t.name = table ∧ k.name = key ∧ R (some item)

/-- What a document of one setting comes to. -/
def Comes (table key : String) (R : Option Item → Prop) : Reply Draft → Prop
  | .ok d _ => ∃ closed, d.close = .ok closed ∧ closed.root.entries.HoldsOnly table key R
  | .tentative _ _ => False
  | .committed _ _ => R none

theorem comes_root (hpath : d.path = []) (hentries : d.current.entries.HoldsOnly table key R)
    (rest : Input) : Comes table key R (.ok d rest) := by
  refine ⟨{ root := d.current }, ?_, hentries⟩
  simp [Draft.close, hpath]

theorem comes_table {k : Key} {form : TableForm} {i : Item} (hname : k.name = key) (hitem : R (some i))
    (hroot : d.root.entries = []) (hcurrent : d.current = ⟨form, [(k, i)]⟩) {t : Key}
    (htable : t.name = table) (hpath : d.path = [t]) (hlist : d.inList = false) (rest : Input) :
    Comes table key R (.ok d rest) := by
  refine ⟨{ root := { d.root with entries := [(t, .table form [(k, i)])] } }, ?_,
    t, form, k, i, rfl, htable, hname, hitem⟩
  simp [Draft.close, hpath, hlist, hcurrent, Table.alter, Draft.placeTable, hroot, Entries.get?]

/-- **The lines of one setting are read** from a draft on in which nothing is defined. -/
theorem leads_layout {lines : List (List Char)} (hlayout : Layout table key v lines)
    (hv : ReadsTo levels v R) (hlevels : levels + 1 < depthLimit) (hpath : d.path = [])
    (hentries : d.current.entries = []) (hdotted : d.current.form.dotted = false)
    (hlines : Lines lines text) : ∃ reply, Leads d text reply ∧ Comes table key R reply := by
  have hnew : d.current.entries.get? table = none := by rw [hentries]; rfl
  have hdone {d' : Draft} (hd' : Adds d table (SingletonItem key R) (some d')) (text' : Input)
      (h : Lines [] text') : ∃ reply, Leads d' text' reply ∧ Comes table key R reply := by
    obtain ⟨t, _, form, rfl, htable, form', k, i, rfl, hname, hitem⟩ := hd'
    refine ⟨_, lead_nil h, comes_root ?_ ⟨t, form', k, i, ?_, htable, hname, hitem⟩ []⟩
    · exact hpath
    · rw [hentries]
      rfl
  cases hlayout with
  | dotted hk hsp =>
    exact lead_cons hlines (lineReadsTo_dotted hnew hk.spelling hsp hv (Nat.lt_of_succ_lt hlevels))
      (fun d' hd' => hdone hd') fun hnone _ _ => hnone
  | inline ht hsp hlead hk hgap htrail =>
    exact lead_cons hlines
      (lineReadsTo_key hdotted hnew ht.spelling hsp (readsTo_inline hlead hk hgap hv htrail) hlevels)
      (fun d' hd' => hdone hd') fun hnone _ _ => hnone
  -- the header opens the table, and a second line defines the key in it
  | header hsp ht hk hsp' =>
    refine lead_cons hlines (lineReadsTo_opens hpath hnew hsp ht.spelling) (fun d' hd' text' hlines' => ?_) nofun
    obtain ⟨t, form, rfl, htable, hform⟩ := hd'
    refine lead_cons hlines' (lineReadsTo_key hform rfl hk.spelling hsp' hv (Nat.lt_of_succ_lt hlevels))
      (fun d'' hd'' text'' hlines'' => ?_) fun hnone _ _ => hnone
    obtain ⟨k, i, form', rfl, hname, hitem⟩ := hd''
    exact ⟨_, lead_nil hlines'', comes_table hname hitem hentries rfl htable rfl rfl []⟩

/-- **A document of one setting is read**: it holds the one table with the one key, or it is refused with
the value. -/
theorem document_sets (h : Sets table key v text) (hv : ReadsTo levels v R)
    (hlevels : levels + 1 < depthLimit) :
    (∃ root, document text = .ok root ∧ root.entries.HoldsOnly table key R) ∨
      ((∃ fault, document text = .error fault) ∧ R none) := by
  obtain ⟨lines, hlayout, hlines⟩ := h
  obtain ⟨reply, hleads, hcomes⟩ := leads_layout
    (d := { current := { form := { span := some ⟨dropMark text, dropMark text⟩ } } })
    hlayout hv hlevels rfl rfl rfl hlines
  rw [document]
  simp only [hleads _ (Nat.lt_succ_self _)]
  cases reply with
  | ok d rest =>
    obtain ⟨closed, hclosed, hholds⟩ := hcomes
    simp only [hclosed]
    exact Or.inl ⟨_, rfl, hholds⟩
  | tentative => cases hcomes
  | committed => exact Or.inr ⟨⟨_, rfl⟩, hcomes⟩

end QualityGate.Toml
