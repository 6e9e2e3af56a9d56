import QualityGate.Proofs.Toml.Inline
/-!
## Documents of several tables

A table can be spelled in three ways: as a header with a line for each key below it, with a dotted key for
each key, or as one inline table. `Arranged` holds of the sequences of such blocks that make a document: the
header of a table ends what stands at the top, every table is spelled in one way and opened once, and every
key is defined once.

* `Entries.Shows`: the entries of a document hold the tables and the keys of the blocks, and nothing else.
* `linesLead_block`: the lines of one block add what it defines, whatever way it is spelled.
* `document_blocks`: every document of blocks is read, and shows all of them.
-/

namespace QualityGate.Toml

variable {d d' : Draft} {levels : Nat} {P : String → String → Item → Prop} {Q R : Draft → Prop}
  {content : List Char} {contents lines more : List (List Char)} {ds : List Definition} {T : String}

/-! ### Blocks -/

/-- **How a table is spelled.** -/
inductive Spelling
  | header
  | dotted
  | inline
  deriving DecidableEq

/-- **Some definitions of keys in one table**, spelled in one way. -/
structure Block where
  spelling : Spelling
  table : String
  definitions : List Definition

/-- The keys that a block defines, with their table. -/
def Block.names (b : Block) : List (String × String) :=
  b.definitions.map fun d => (b.table, d.key)

/-- **A line that defines a key**, below the keys `above` if it is dotted. -/
inductive DefinitionLine (above : List String) (d : Definition) : List Char → Prop
  | mk {k sp : List Char} (hk : PathSpelling (above ++ [d.key]) k) (hsp : Spaces sp) :
    DefinitionLine above d (k ++ '=' :: (sp ++ d.text))

/-- **The lines of a block**, with keys that are bare or in quotes. -/
inductive BlockLines : Block → List (List Char) → Prop
  | header {T : String} {ds : List Definition} {sp t : List Char} {lines : List (List Char)}
    (hsp : Spaces sp) (ht : PathSpelling [T] t) (h : List.Forall₂ (DefinitionLine []) ds lines) :
    BlockLines ⟨.header, T, ds⟩ (('[' :: (sp ++ (t ++ [']']))) :: lines)
  | dotted {T : String} {ds : List Definition} {lines : List (List Char)}
    (h : List.Forall₂ (DefinitionLine [T]) ds lines) : BlockLines ⟨.dotted, T, ds⟩ lines
  | inline {T : String} {ds : List Definition} {t sp w : List Char} (ht : PathSpelling [T] t)
    (hsp : Spaces sp) (h : InlineText ds w) : BlockLines ⟨.inline, T, ds⟩ [t ++ '=' :: (sp ++ w)]

/-- **Blocks that make a document.** -/
structure Arranged (spelling : String → Spelling) (blocks : List Block) : Prop where
  /-- Each table is spelled in one way. -/
  chosen : ∀ b ∈ blocks, b.spelling = spelling b.table
  /-- What stands at the top comes before the first header. -/
  ordered : blocks.Pairwise fun b b' => b.spelling = .header → b'.spelling = .header
  /-- Only a dotted key may come back to a table. -/
  opened : blocks.Pairwise fun b b' => b.table = b'.table → b.spelling = .dotted
  /-- Each key is defined once. -/
  defined : (blocks.flatMap Block.names).Nodup

/-! ### What the entries of a document show -/

/-- **Entries hold the tables `tables` and in them the keys `names`**, as `P` tells of the items, and
nothing else. A table of dotted keys stays open for more of them. -/
structure Entries.Shows (P : String → String → Item → Prop) (spelling : String → Spelling)
    (tables : List String) (names : List (String × String)) (es : Entries) : Prop where
  sound : ∀ T item, es.get? T = some item → T ∈ tables ∧ ∃ form inner, item = .table form inner ∧
    (∀ K i, Entries.get? K inner = some i → (T, K) ∈ names ∧ P T K i) ∧
    (spelling T = .dotted → form.inline = false ∧ form.implicit = true ∧ form.dotted = true)
  complete : ∀ T K, (T, K) ∈ names → ∃ form inner, es.get? T = some (.table form inner) ∧
    Entries.get? K inner ≠ none

namespace Entries.Shows

variable {spelling : String → Spelling} {tables : List String} {names : List (String × String)}
  {es inner : Entries} {form : TableForm} {t k : Key} {item : Item}

theorem nil : Shows P spelling [] [] [] :=
  ⟨nofun, nofun⟩

/-- Another table is not found. -/
theorem get?_eq_none (h : Shows P spelling tables names es) (hnew : T ∉ tables) : es.get? T = none := by
  rw [Option.eq_none_iff_forall_not_mem]
  exact fun item hitem => hnew (h.sound T item hitem).1

/-- More tables may be allowed for. -/
theorem mono {tables' : List String} (h : Shows P spelling tables names es)
    (hsub : ∀ T ∈ tables, T ∈ tables') : Shows P spelling tables' names es :=
  ⟨fun T item hitem => ⟨hsub T (h.sound T item hitem).1, (h.sound T item hitem).2⟩, h.complete⟩

/-- **A new table may be added** with what it defines. -/
theorem append (h : Shows P spelling tables names es) (hnew : es.get? t.name = none)
    (hinner : List.Forall₂ (Definition.EntryOf (P t.name)) ds inner)
    (hopen : spelling t.name = .dotted → form.inline = false ∧ form.implicit = true ∧ form.dotted = true) :
    Shows P spelling (tables ++ [t.name]) (names ++ ds.map fun d => (t.name, d.key))
      (es ++ [(t, .table form inner)]) := by
  constructor
  · intro T item hitem
    by_cases hT : t.name = T
    · subst hT
      rw [get?_append hnew] at hitem
      cases hitem
      refine ⟨by simp, form, inner, rfl, fun K i hi => ?_, hopen⟩
      obtain ⟨e, he, rfl, rfl⟩ := mem_of_get? hi
      obtain ⟨d, hd, hname, hP⟩ := exists_of_entriesOf hinner e he
      refine ⟨List.mem_append_right _ (List.mem_map.mpr ⟨d, hd, ?_⟩), ?_⟩
      · rw [hname]
      · rw [hname]
        exact hP
    · -- a table that was there before shows what it showed
      rw [get?_append_of_ne hT] at hitem
      obtain ⟨hmem, form', inner', rfl, hread, hopen'⟩ := h.sound T item hitem
      refine ⟨List.mem_append_left _ hmem, form', inner', rfl, fun K i hi => ?_, hopen'⟩
      exact ⟨List.mem_append_left _ (hread K i hi).1, (hread K i hi).2⟩
  · intro T K hname
    rcases List.mem_append.mp hname with hname | hname
    · obtain ⟨form', inner', hsome, hkey⟩ := h.complete T K hname
      have hT : t.name ≠ T := by
        rintro rfl
        rw [hnew] at hsome
        cases hsome
      exact ⟨form', inner', by rw [get?_append_of_ne hT, hsome], hkey⟩
    · obtain ⟨d, hd, heq⟩ := List.mem_map.mp hname
      cases heq
      refine ⟨form, inner, get?_append hnew, ?_⟩
      rw [Ne, get?_eq_none_iff, not_not, keys_of_entriesOf hinner]
      exact List.mem_map_of_mem hd

/-- **A key may be added to a table** that is open for it. -/
theorem extend (h : Shows P spelling tables names es) (hsome : es.get? t.name = some (.table form inner))
    (hnew : inner.get? k.name = none) (hitem : P t.name k.name item) :
    Shows P spelling tables (names ++ [(t.name, k.name)])
      (es.update t.name (.table form (inner ++ [(k, item)]))) := by
  have hfound : es.get? t.name ≠ none := by
    rw [hsome]
    exact Option.some_ne_none _
  -- all names but the added one were there before
  have hold {T K : String} (hname : (T, K) ∈ names ++ [(t.name, k.name)]) (hne : T = t.name → K ≠ k.name) :
      (T, K) ∈ names := by
    rcases List.mem_append.mp hname with hname | hname
    · exact hname
    · obtain ⟨hT, hK⟩ := Prod.mk.inj (List.mem_singleton.mp hname)
      exact absurd hK (hne hT)
  constructor
  · intro T i hi
    by_cases hT : T = t.name
    · subst hT
      rw [get?_update hfound] at hi
      cases hi
      obtain ⟨hmem, _, _, hsame, hread, hopen⟩ := h.sound t.name _ hsome
      cases hsame
      refine ⟨hmem, form, _, rfl, fun K i hi => ?_, hopen⟩
      by_cases hK : k.name = K
      · subst hK
        rw [get?_append hnew] at hi
        cases hi
        exact ⟨by simp, hitem⟩
      · rw [get?_append_of_ne hK] at hi
        exact ⟨List.mem_append_left _ (hread K i hi).1, (hread K i hi).2⟩
    · rw [get?_update_of_ne hT] at hi
      obtain ⟨hmem, form', inner', rfl, hread, hopen⟩ := h.sound T i hi
      refine ⟨hmem, form', inner', rfl, fun K i hi => ?_, hopen⟩
      exact ⟨List.mem_append_left _ (hread K i hi).1, (hread K i hi).2⟩
  · intro T K hname
    by_cases hT : T = t.name
    · subst hT
      refine ⟨form, _, get?_update hfound, ?_⟩
      by_cases hK : k.name = K
      · subst hK
        rw [get?_append hnew]
        exact Option.some_ne_none _
      · rw [get?_append_of_ne hK]
        obtain ⟨form', inner', hsome', hkey⟩ := h.complete t.name K (hold hname fun _ => Ne.symm hK)
        rw [hsome] at hsome'
        cases hsome'
        exact hkey
    · obtain ⟨form', inner', hsome', hkey⟩ := h.complete T K (hold hname fun hsame => absurd hsame hT)
      exact ⟨form', inner', by rw [get?_update_of_ne hT, hsome'], hkey⟩

end Entries.Shows

/-! ### Drafts -/

/-- All entries of a document in the making, those of the table being filled in their place. -/
def Draft.entries (d : Draft) : Entries :=
  match d.path with
  | [] => d.current.entries
  | t :: _ => d.root.entries ++ [(t, .table d.current.form d.current.entries)]

/-- **A draft of a document whose headers open new tables in the root.** -/
structure Draft.Plain (d : Draft) : Prop where
  outside : d.inList = false
  inline : d.current.form.inline = false
  dotted : d.current.form.dotted = false
  place : d.path = [] ∨ ∃ t, d.path = [t] ∧ d.root.entries.get? t.name = none

namespace Draft.Plain

/-- **It is closed by putting the table being filled behind the others.** -/
theorem close (h : d.Plain) : ∃ form, d.close = .ok { root := ⟨form, d.entries⟩ } := by
  rcases h.place with hpath | ⟨t, hpath, hnew⟩
  · refine ⟨d.current.form, ?_⟩
    simp [Draft.close, Draft.entries, hpath]
  · refine ⟨d.root.form, ?_⟩
    simp [Draft.close, Draft.entries, hpath, h.outside, Table.alter, placeTable, hnew]

/-- The header of a new table opens it empty. -/
theorem openTable (h : d.Plain) {t : Key} (hnew : d.entries.get? t.name = none) (span : Span) :
    ∃ form, d.openTable [t] span =
      .ok { root := ⟨form, d.entries⟩, current := ⟨{ span := some span }, []⟩, path := [t] } := by
  obtain ⟨form, hclose⟩ := h.close
  refine ⟨form, ?_⟩
  simp [Draft.openTable, hclose, namedEntries, hnew, Table.alter, vacate]

end Draft.Plain

/-! ### Reading line by line -/

/-- **Reading the lines `contents` from a draft on** ends with one that satisfies `Q`, whatever stands
between them. -/
def LinesLead (Q : Draft → Prop) (d : Draft) (contents : List (List Char)) : Prop :=
  ∀ text, Lines contents text → ∃ d', Leads d text (.ok d' []) ∧ Q d'

/-- A line that is read in any case, and makes of the draft one that satisfies `R`. -/
def LineReadsAs (d : Draft) (content : List Char) (R : Draft → Prop) : Prop :=
  LineReadsTo d content fun read => ∃ d', read = some d' ∧ R d'

theorem LineReadsTo.mono {R R' : Option Draft → Prop} (h : LineReadsTo d content R)
    (hR : ∀ read, R read → R' read) : LineReadsTo d content R' := by
  obtain ⟨c, cs, hcontent, hspace, hread⟩ := h
  refine ⟨c, cs, hcontent, hspace, fun ht => ?_⟩
  rcases hread ht with ⟨d', hline, hd'⟩ | ⟨hrefusal, hnone⟩
  · exact Or.inl ⟨d', hline, hR _ hd'⟩
  · exact Or.inr ⟨hrefusal, hR _ hnone⟩

theorem linesLead_nil (h : Q d) : LinesLead Q d [] :=
  fun _ hlines => ⟨d, lead_nil hlines, h⟩

/-- **One line is read before the others.** -/
theorem linesLead_cons (hread : LineReadsAs d content R) (hnext : ∀ d', R d' → LinesLead Q d' contents) :
    LinesLead Q d (content :: contents) := by
  intro text hlines
  have hmore : ∀ d', (∃ d'', some d' = some d'' ∧ R d'') → ∀ text', Lines contents text' →
      ∃ reply, Leads d' text' reply ∧ ∃ d'', reply = .ok d'' [] ∧ Q d'' := by
    rintro d' ⟨_, ⟨rfl⟩, hR⟩ text' hmore
    obtain ⟨d'', hleads, hd''⟩ := hnext d' hR text' hmore
    exact ⟨_, hleads, d'', rfl, hd''⟩
  obtain ⟨reply, hleads, d', rfl, hd'⟩ := lead_cons hlines hread hmore nofun
  exact ⟨d', hleads, hd'⟩

/-- A line that defines a key is read, as long as the key may be defined where it stands. -/
theorem DefinitionLine.reads {above : List String} {d : Definition} (h : DefinitionLine above d content)
    {p : Item → Prop} (hd : ReadsAs levels d.text p) (hlevels : levels < depthLimit)
    (habove : above.length + 1 < depthLimit) {draft : Draft}
    (hdefine : ∀ ks item, names ks = above ++ [d.key] → p item →
      ∃ draft', draft.define ks item = .ok draft' ∧ R draft') : LineReadsAs draft content R := by
  obtain ⟨hk, hsp⟩ := h
  refine lineReadsTo_definition hk (by simpa using habove) hsp hd hlevels ?_ ?_
  · rintro ks item hnames ⟨_, ⟨rfl⟩, hitem⟩
    obtain ⟨draft', hdraft', hR⟩ := hdefine ks item hnames hitem
    exact ⟨draft', hdraft', draft', rfl, hR⟩
  · rintro ⟨_, ⟨⟩, -⟩

/-- The table being filled has one more entry, of which `p` holds. -/
def Added (d : Draft) (key : String) (p : Item → Prop) (d' : Draft) : Prop :=
  Adds d key (fun read => ∃ item, read = some item ∧ p item) (some d')

/-- A key without dots is defined in the table being filled. -/
theorem lineReadsAs_key {key : String} {k sp v : List Char} {p : Item → Prop}
    (hdotted : d.current.form.dotted = false) (hnew : d.current.entries.get? key = none)
    (hk : PathSpelling [key] k) (hsp : Spaces sp) (hv : ReadsAs levels v p) (hlevels : levels < depthLimit) :
    LineReadsAs d (k ++ '=' :: (sp ++ v)) (Added d key p) := by
  refine (lineReadsTo_key hdotted hnew hk hsp hv hlevels).mono fun read hread => ?_
  cases read with
  | none =>
    obtain ⟨_, ⟨⟩, -⟩ := hread
  | some d' => exact ⟨d', rfl, hread⟩

/-! ### Reading block by block -/

/-- **The keys below a header** are defined one after the other. -/
theorem linesLead_keys (h : List.Forall₂ (DefinitionLine []) ds lines)
    (hread : ∀ e ∈ ds, ReadsAs levels e.text (P T e.key)) (hlevels : levels < depthLimit)
    {done : List Definition} (hdone : List.Forall₂ (Definition.EntryOf (P T)) done d.current.entries)
    (honce : ((done ++ ds).map Definition.key).Nodup) (hdotted : d.current.form.dotted = false)
    (hnext : ∀ span es, List.Forall₂ (Definition.EntryOf (P T)) (done ++ ds) es →
      LinesLead Q { d with current := ⟨{ d.current.form with span := span }, es⟩ } more) :
    LinesLead Q d (lines ++ more) := by
  induction h generalizing d done with
  | nil =>
    rw [List.append_nil] at hnext
    exact hnext d.current.form.span d.current.entries hdone
  | @cons e _ ds lines hline h ih =>
    obtain ⟨hk, hsp⟩ := hline
    -- the entries so far have the keys that are done, and this key is none of them
    have hnew : d.current.entries.get? e.key = none := by
      rw [Entries.get?_eq_none_iff, keys_of_entriesOf hdone]
      rw [List.map_append, List.nodup_append] at honce
      exact fun hmem => honce.2.2 _ hmem _ List.mem_cons_self rfl
    refine linesLead_cons (lineReadsAs_key hdotted hnew hk hsp (hread e List.mem_cons_self) hlevels) ?_
    rintro d' ⟨k, i, span, rfl, hname, _, ⟨rfl⟩, hitem⟩
    rw [List.append_cons] at honce hnext
    refine ih (fun e' he' => hread e' (List.mem_cons_of_mem _ he')) ?_ honce hdotted
      fun span' es hes => hnext span' es hes
    exact List.rel_append hdone (.cons ⟨hname, hname ▸ hitem⟩ .nil)

section Blocks

variable {spelling : String → Spelling} {tables : List String} {names : List (String × String)} {b : Block}

/-- **One dotted key** brings its table with it, or goes on with the table that an earlier one brought. -/
theorem DefinitionLine.reads_dotted {e : Definition} (h : DefinitionLine [T] e content)
    (hread : ReadsAs levels e.text (P T e.key)) (hlevels : levels < depthLimit) (hplain : d.Plain)
    (hpath : d.path = []) (hshows : d.entries.Shows P spelling tables names) (hmem : T ∈ tables)
    (hspelling : spelling T = .dotted) (hfresh : (T, e.key) ∉ names) :
    LineReadsAs d content fun d' => d'.Plain ∧ d'.path = [] ∧
      d'.entries.Shows P spelling tables (names ++ [(T, e.key)]) := by
  refine h.reads hread hlevels (by simp [depthLimit]) fun ks item hnames hitem => ?_
  simp only [Toml.names, List.singleton_append, List.map_eq_cons_iff, List.map_eq_nil_iff] at hnames
  obtain ⟨t, _, rfl, rfl, k, _, rfl, hkey, rfl⟩ := hnames
  obtain ⟨span, hdefine⟩ := d.define_concat [t] k item
  rw [List.singleton_append] at hdefine
  have hentries : d.entries = d.current.entries := by rw [Draft.entries, hpath]
  rw [hentries] at hshows
  cases hfound : d.current.entries.get? t.name with
  -- the first dotted key of the table
  | none =>
    rw [Table.define_singleton (by exact hfound)] at hdefine
    refine ⟨_, hdefine, ⟨hplain.outside, hplain.inline, hplain.dotted, Or.inl hpath⟩, hpath, ?_⟩
    have hentry : List.Forall₂ (Definition.EntryOf (P t.name)) [e] [(k, item)] :=
      .cons ⟨hkey, hitem⟩ .nil
    have hshown : Entries.Shows P spelling (tables ++ [t.name]) (names ++ [(t.name, e.key)])
        (d.current.entries ++ [(t, .table ⟨d.current.form.inline, true, true, none⟩ [(k, item)])]) :=
      hshows.append hfound hentry fun _ => ⟨hplain.inline, rfl, rfl⟩
    simp only [Draft.entries, hpath]
    exact hshown.mono fun S hS => (List.mem_append.mp hS).elim id fun hS => List.mem_singleton.mp hS ▸ hmem
  | some found =>
    obtain ⟨-, form, inner, rfl, hinner, hopen⟩ := hshows.sound _ _ hfound
    obtain ⟨hinline, himplicit, hdotted⟩ := hopen hspelling
    have hnew : Entries.get? k.name inner = none := by
      rw [Option.eq_none_iff_forall_not_mem]
      intro i hi
      exact hfresh (hkey ▸ (hinner _ i hi).1)
    rw [Table.define_extends (by exact hfound) hinline himplicit hdotted hnew] at hdefine
    refine ⟨_, hdefine, ⟨hplain.outside, hplain.inline, hplain.dotted, Or.inl hpath⟩, hpath, ?_⟩
    simp only [Draft.entries, hpath]
    rw [← hkey] at hitem ⊢
    exact hshows.extend hfound hnew hitem

/-- **The dotted keys of a table** are defined one after the other. -/
theorem linesLead_dotted (h : List.Forall₂ (DefinitionLine [T]) ds lines)
    (hread : ∀ e ∈ ds, ReadsAs levels e.text (P T e.key)) (hlevels : levels < depthLimit)
    (hplain : d.Plain) (hpath : d.path = []) (hshows : d.entries.Shows P spelling tables names)
    (hmem : T ∈ tables) (hspelling : spelling T = .dotted)
    (honce : (names ++ ds.map fun e => (T, e.key)).Nodup)
    (hnext : ∀ d' : Draft, d'.Plain → d'.path = [] →
      d'.entries.Shows P spelling tables (names ++ ds.map fun e => (T, e.key)) → LinesLead Q d' more) :
    LinesLead Q d (lines ++ more) := by
  induction h generalizing d names with
  | nil =>
    rw [List.map_nil, List.append_nil] at hnext
    exact hnext d hplain hpath hshows
  | @cons e _ ds lines hline h ih =>
    rw [List.map_cons, List.append_cons] at honce hnext
    have hfresh : (T, e.key) ∉ names := by
      rw [List.nodup_append] at honce
      have hfirst := List.nodup_append.mp honce.1
      exact fun hmem => hfirst.2.2 _ hmem _ (List.mem_singleton_self _) rfl
    refine linesLead_cons (hline.reads_dotted (hread e List.mem_cons_self) hlevels hplain hpath hshows
      hmem hspelling hfresh) ?_
    rintro d' ⟨hplain', hpath', hshows'⟩
    exact ih (fun e' he' => hread e' (List.mem_cons_of_mem _ he')) hplain' hpath' hshows' honce hnext

/-- **A block is read**, in whatever way its table is spelled: what it defines is added to what is there. -/
theorem linesLead_block (h : BlockLines b lines) (hchosen : b.spelling = spelling b.table)
    (hread : ∀ e ∈ b.definitions, ReadsAs levels e.text (P b.table e.key))
    (hlevels : levels + 1 < depthLimit) (hplain : d.Plain) (hplace : b.spelling = .header ∨ d.path = [])
    (hshows : d.entries.Shows P spelling tables names)
    (hopened : b.spelling ≠ .dotted → b.table ∉ tables) (honce : (names ++ b.names).Nodup)
    (hnext : ∀ d' : Draft, d'.Plain → (b.spelling ≠ .header → d'.path = []) →
      d'.entries.Shows P spelling (tables ++ [b.table]) (names ++ b.names) → LinesLead Q d' more) :
    LinesLead Q d (lines ++ more) := by
  -- all names of a block have its table for their first part, so the keys differ
  have hkeys : (b.definitions.map Definition.key).Nodup := by
    have hnames := (List.nodup_append.mp honce).2.1
    have hpairs : b.names = (b.definitions.map Definition.key).map (Prod.mk b.table) :=
      List.map_map.symm
    rw [hpairs] at hnames
    exact hnames.of_map
  cases h with
  | @dotted T ds lines h =>
    have hpath := hplace.resolve_left (by simp)
    have hmore : d.entries.Shows P spelling (tables ++ [T]) names :=
      hshows.mono fun _ => List.mem_append_left _
    exact linesLead_dotted h hread (Nat.lt_of_succ_lt hlevels) hplain hpath hmore (by simp)
      hchosen.symm honce fun d' hplain' hpath' => hnext d' hplain' fun _ => hpath'
  | @inline T ds t sp w ht hsp h =>
    have hpath := hplace.resolve_left (by simp)
    have hentries : d.entries = d.current.entries := by rw [Draft.entries, hpath]
    have hnew := hshows.get?_eq_none (hopened (by simp))
    rw [hentries] at hnew
    refine linesLead_cons (lineReadsAs_key hplain.dotted hnew ht hsp (readsAs_inline h hkeys hread) hlevels) ?_
    rintro d' ⟨k, i, span, rfl, rfl, _, ⟨rfl⟩, form, es, rfl, -, hes⟩
    refine hnext _ ⟨hplain.outside, hplain.inline, hplain.dotted, Or.inl hpath⟩ (fun _ => hpath) ?_
    rw [hentries] at hshows
    simp only [Draft.entries, hpath]
    exact hshows.append hnew hes fun hdotted => absurd (hchosen.trans hdotted) (by simp)
  | @header T ds sp t lines hsp ht h =>
    have hnew := hshows.get?_eq_none (hopened (by simp))
    have hopen : LineReadsAs d ('[' :: (sp ++ (t ++ [']']))) fun d' => ∃ k form span, k.name = T ∧
        d' = { root := ⟨form, d.entries⟩, current := ⟨{ span := some span }, []⟩, path := [k] } := by
      refine lineReadsTo_header hsp ht (by simp [depthLimit]) fun ks span hnames => ?_
      rw [Toml.names, List.map_eq_singleton_iff] at hnames
      obtain ⟨k, rfl, rfl⟩ := hnames
      obtain ⟨form, hd'⟩ := hplain.openTable hnew span
      exact ⟨_, hd', _, rfl, k, form, span, rfl, rfl⟩
    refine linesLead_cons hopen ?_
    rintro d' ⟨k, form, span, rfl, rfl⟩
    refine linesLead_keys h hread (Nat.lt_of_succ_lt hlevels) .nil hkeys rfl fun span' es hes => ?_
    refine hnext _ ⟨rfl, rfl, rfl, Or.inr ⟨k, rfl, hnew⟩⟩ (fun hne => absurd rfl hne) ?_
    exact hshows.append hnew hes fun hdotted => absurd (hchosen.trans hdotted) (by simp)

/-- **All blocks of a document are read** one after the other. -/
theorem linesLead_blocks {blocks : List Block} {parts : List (List (List Char))}
    (h : List.Forall₂ BlockLines blocks parts)
    (hread : ∀ b ∈ blocks, ∀ e ∈ b.definitions, ReadsAs levels e.text (P b.table e.key))
    (hlevels : levels + 1 < depthLimit) {done : List Block} (harranged : Arranged spelling (done ++ blocks))
    (hplain : d.Plain) (hplace : (∀ b ∈ blocks, b.spelling = .header) ∨ d.path = [])
    (hshows : d.entries.Shows P spelling (done.map Block.table) (done.flatMap Block.names)) :
    LinesLead (fun d' => d'.Plain ∧ d'.entries.Shows P spelling ((done ++ blocks).map Block.table)
      ((done ++ blocks).flatMap Block.names)) d parts.flatten := by
  induction h generalizing d done with
  | nil =>
    rw [List.append_nil]
    exact linesLead_nil ⟨hplain, hshows⟩
  | @cons b lines blocks parts hb h ih =>
    rw [List.append_cons] at harranged ⊢
    have hchosen := harranged.chosen b (by simp)
    -- a table is named by two blocks only if its spelling is the dotted one
    have hopened : b.spelling ≠ .dotted → b.table ∉ done.map Block.table := by
      intro hne hmem
      obtain ⟨b', hb', htable⟩ := List.mem_map.mp hmem
      have hpair := (List.pairwise_append.mp harranged.opened).1
      have hdotted := (List.pairwise_append.mp hpair).2.2 b' hb' b (List.mem_singleton_self b) htable
      have hchosen' := harranged.chosen b' (by simp [hb'])
      rw [htable, ← hchosen, hdotted] at hchosen'
      exact hne hchosen'.symm
    have honce : (done.flatMap Block.names ++ b.names).Nodup := by
      have hall := harranged.defined
      rw [List.flatMap_append, List.nodup_append] at hall
      simpa using hall.1
    have hordered : ∀ b' ∈ blocks, b.spelling = .header → b'.spelling = .header :=
      fun b' hb' => (List.pairwise_append.mp harranged.ordered).2.2 b (by simp) b' hb'
    refine linesLead_block hb hchosen (hread b List.mem_cons_self) hlevels hplain
      (hplace.imp_left fun hheader => hheader b List.mem_cons_self) hshows hopened honce ?_
    intro d' hplain' hpath' hshows'
    refine ih (fun b' hb' => hread b' (List.mem_cons_of_mem _ hb')) harranged hplain' ?_ ?_
    · by_cases hheader : b.spelling = .header
      · exact Or.inl fun b' hb' => hordered b' hb' hheader
      · exact Or.inr (hpath' hheader)
    · simpa using hshows'

/-! ### Documents -/

/-- **Every document of blocks is read**, and shows the tables and the keys of all of them. -/
theorem document_blocks {blocks : List Block} {parts : List (List (List Char))} {text : Input}
    (harranged : Arranged spelling blocks) (h : List.Forall₂ BlockLines blocks parts)
    (hread : ∀ b ∈ blocks, ∀ e ∈ b.definitions, ReadsAs levels e.text (P b.table e.key))
    (hlevels : levels + 1 < depthLimit) (hlines : Lines parts.flatten (dropMark text)) :
    ∃ root, document text = .ok root ∧
      root.entries.Shows P spelling (blocks.map Block.table) (blocks.flatMap Block.names) := by
  have hstart : Draft.Plain { current := { form := { span := some ⟨dropMark text, dropMark text⟩ } } } :=
    ⟨rfl, rfl, rfl, Or.inl rfl⟩
  have hall : Arranged spelling ([] ++ blocks) := harranged
  obtain ⟨d', hleads, hplain, hshows⟩ :=
    linesLead_blocks h hread hlevels hall hstart (Or.inr rfl) .nil _ hlines
  obtain ⟨form, hclose⟩ := hplain.close
  refine ⟨⟨form, d'.entries⟩, ?_, hshows⟩
  rw [document]
  simp only [hleads _ (Nat.lt_succ_self _), hclose]

end Blocks

end QualityGate.Toml
