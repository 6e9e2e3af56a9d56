import Mathlib.Data.List.Forall2
import QualityGate.Proofs.Toml.Definition
import QualityGate.Proofs.Toml.Tree
/-!
## Inline tables as they are written

The definitions of an inline table stand between braces on one line, with commas between them.

* `tableOfDefinitions_distinct`: definitions of distinct keys make a table of these keys.
* `readsAs_inline`: an inline table is read wherever it stands, if each of its values is.
-/

namespace QualityGate.Toml

/-- **A key with the text that is written for its value.** -/
structure Definition where
  key : String
  text : List Char

variable {sp k sp' sp'' w cs rest : List Char} {levels depth : Nat} {d : Definition}
  {ds : List Definition} {P : String → Item → Prop}

/-- **The definitions of an inline table as they are written**, up to the closing brace. -/
inductive DefinitionTexts : List Definition → List Char → Prop
  | last {d : Definition} {sp k sp' sp'' : List Char} (hsp : Spaces sp) (hk : PathSpelling [d.key] k)
    (hsp' : Spaces sp') (hsp'' : Spaces sp'') :
    DefinitionTexts [d] (sp ++ (k ++ '=' :: (sp' ++ (d.text ++ sp''))))
  | next {d : Definition} {ds : List Definition} {sp k sp' sp'' cs : List Char} (hsp : Spaces sp)
    (hk : PathSpelling [d.key] k) (hsp' : Spaces sp') (hsp'' : Spaces sp'') (h : DefinitionTexts ds cs) :
    DefinitionTexts (d :: ds) (sp ++ (k ++ '=' :: (sp' ++ (d.text ++ (sp'' ++ ',' :: cs)))))

/-- **An inline table as it is written.** -/
inductive InlineText : List Definition → List Char → Prop
  | empty {sp : List Char} (hsp : Spaces sp) : InlineText [] ('\x7b' :: (sp ++ ['\x7d']))
  | definitions {ds : List Definition} {cs : List Char} (h : DefinitionTexts ds cs) :
    InlineText ds ('\x7b' :: (cs ++ ['\x7d']))

/-! ### Reading the definitions -/

/-- A key and an item are what a definition was read as. -/
def Definition.ReadAs (P : String → Item → Prop) (d : Definition) (read : List Key × Item) : Prop :=
  ∃ key item, read = ([key], item) ∧ key.name = d.key ∧ P d.key item

/-- One definition is read, up to the comma or the brace behind it. -/
theorem inlineDefinition_readAs (hsp : Spaces sp) (hk : PathSpelling [d.key] k) (hsp' : Spaces sp')
    (hsp'' : Spaces sp'') (hd : ReadsAs levels d.text (P d.key)) (hlevels : levels ≤ depth)
    (hrest : Ends rest) (hspace : ∀ c ∈ rest.head?, isSpace c = false) :
    ∃ read, inlineDefinition (value depth)
        (sp ++ (k ++ '=' :: (sp' ++ (d.text ++ (sp'' ++ rest))))) = .ok read rest ∧ d.ReadAs P read := by
  rcases inlineDefinition_reads hsp hk (by simp [depthLimit]) hsp' hd hlevels hsp'' hrest hspace with
    ⟨ks, item, hread, hnames, _, ⟨rfl⟩, hitem⟩ | ⟨-, _, ⟨⟩, -⟩
  rw [names, List.map_eq_singleton_iff] at hnames
  obtain ⟨key, rfl, hkey⟩ := hnames
  exact ⟨_, hread, key, item, rfl, hkey, hitem⟩

theorem moreDefinitions_brace (acc : List (List Key × Item)) (n : Nat) (rest : Input) :
    moreDefinitions (value depth) acc n ('\x7d' :: rest) = .ok acc.reverse ('\x7d' :: rest) := by
  cases n <;> rfl

/-- **The definitions behind a comma are read**, whatever bound there is on their number, as long as it
exceeds the length of the text. -/
theorem moreDefinitions_texts (h : DefinitionTexts ds cs) (hlevels : levels ≤ depth)
    (hread : ∀ d ∈ ds, ReadsAs levels d.text (P d.key)) (acc : List (List Key × Item)) {n : Nat}
    (hn : cs.length < n) (rest : Input) :
    ∃ reads, moreDefinitions (value depth) acc n (',' :: (cs ++ '\x7d' :: rest)) =
        .ok (acc.reverse ++ reads) ('\x7d' :: rest) ∧
      List.Forall₂ (Definition.ReadAs P) ds reads := by
  induction h generalizing acc n with
  | last hsp hk hsp' hsp'' =>
    obtain ⟨n, rfl⟩ := Nat.exists_eq_succ_of_ne_zero (Nat.ne_zero_of_lt hn)
    obtain ⟨read, hdefinition, hd⟩ := inlineDefinition_readAs hsp hk hsp' hsp''
      (hread _ List.mem_cons_self) hlevels (ends_brace rest) (by rintro c ⟨⟩; rfl)
    refine ⟨[read], ?_, .cons hd .nil⟩
    simp only [List.append_assoc, List.cons_append]
    rw [moreDefinitions, hdefinition]
    simp only [moreDefinitions_brace, List.reverse_cons]
  | @next d ds sp k sp' sp'' cs hsp hk hsp' hsp'' h ih =>
    obtain ⟨n, rfl⟩ := Nat.exists_eq_succ_of_ne_zero (Nat.ne_zero_of_lt hn)
    obtain ⟨read, hdefinition, hd⟩ := inlineDefinition_readAs hsp hk hsp' hsp''
      (hread _ List.mem_cons_self) hlevels (ends_comma (cs ++ '\x7d' :: rest))
      (by rintro c ⟨⟩; rfl)
    -- the bound shrinks by one with each comma, and the text by at least that
    have hshorter : cs.length < n := by
      simp only [List.length_append, List.length_cons] at hn
      omega
    obtain ⟨reads, hmore, hall⟩ :=
      ih (fun d hd => hread d (List.mem_cons_of_mem _ hd)) (read :: acc) hshorter
    refine ⟨read :: reads, ?_, .cons hd hall⟩
    simp only [List.append_assoc, List.cons_append]
    rw [moreDefinitions, hdefinition]
    simp only [hmore, List.reverse_cons, List.append_assoc, List.singleton_append]

/-- **The definitions of an inline table are read.** -/
theorem definitions_texts (h : DefinitionTexts ds cs) (hlevels : levels ≤ depth)
    (hread : ∀ d ∈ ds, ReadsAs levels d.text (P d.key)) (rest : Input) :
    ∃ reads, definitions (value depth) (cs ++ '\x7d' :: rest) = .ok reads ('\x7d' :: rest) ∧
      List.Forall₂ (Definition.ReadAs P) ds reads := by
  cases h with
  | last hsp hk hsp' hsp'' =>
    obtain ⟨read, hdefinition, hd⟩ := inlineDefinition_readAs hsp hk hsp' hsp''
      (hread _ List.mem_cons_self) hlevels (ends_brace rest) (by rintro c ⟨⟩; rfl)
    refine ⟨[read], ?_, .cons hd .nil⟩
    simp only [List.append_assoc, List.cons_append]
    rw [definitions, hdefinition]
    simp only [moreDefinitions_brace, Reply.andThen_ok]
    rfl
  | @next d ds sp k sp' sp'' cs hsp hk hsp' hsp'' h =>
    obtain ⟨read, hdefinition, hd⟩ := inlineDefinition_readAs hsp hk hsp' hsp''
      (hread _ List.mem_cons_self) hlevels (ends_comma (cs ++ '\x7d' :: rest))
      (by rintro c ⟨⟩; rfl)
    have hbound : cs.length < (',' :: (cs ++ '\x7d' :: rest)).length := by
      simp only [List.length_cons, List.length_append]
      omega
    obtain ⟨reads, hmore, hall⟩ := moreDefinitions_texts h hlevels
      (fun d hd => hread d (List.mem_cons_of_mem _ hd)) [read] hbound rest
    refine ⟨read :: reads, ?_, .cons hd hall⟩
    simp only [List.append_assoc, List.cons_append]
    rw [definitions, hdefinition]
    simp only [hmore, Reply.andThen_ok]
    rfl

/-- Between braces without a definition none is read. -/
theorem definitions_empty (hsp : Spaces sp) (rest : Input) :
    definitions (value depth) (sp ++ '\x7d' :: rest) = .ok [] ('\x7d' :: rest) := by
  have hskip : skipSpaces (sp ++ '\x7d' :: rest) = '\x7d' :: rest :=
    skipSpaces_append hsp (by rintro c ⟨⟩; rfl)
  have hkey : (dottedKey (sp ++ '\x7d' :: rest)).IsTentative := by
    have hspaced : (spacedKey (sp ++ '\x7d' :: rest)).IsTentative := by
      rw [spacedKey, hskip]
      exact ⟨_, _, rfl⟩
    exact ((hspaced.andThen _).labelled "key").andThen _
  obtain ⟨place, complaint, hdefinition⟩ : (inlineDefinition (value depth)
      (sp ++ '\x7d' :: rest)).IsTentative := hkey.andThen _
  rw [definitions, hdefinition]
  simp only [hskip]

/-! ### The table that they make -/

/-- An entry is what a definition comes to. -/
def Definition.EntryOf (P : String → Item → Prop) (d : Definition) (e : Key × Item) : Prop :=
  e.1.name = d.key ∧ P d.key e.2

/-- Entries have the keys of the definitions that they come from. -/
theorem keys_of_entriesOf {es : Entries} (h : List.Forall₂ (Definition.EntryOf P) ds es) :
    es.keys = ds.map Definition.key := by
  induction h with
  | nil => rfl
  | cons he _ ih => rw [Entries.keys_cons, List.map_cons, he.1, ih]

theorem exists_of_entriesOf {es : Entries} (h : List.Forall₂ (Definition.EntryOf P) ds es) :
    ∀ e ∈ es, ∃ d ∈ ds, d.EntryOf P e := by
  induction h with
  | nil => exact fun e he => nomatch he
  | @cons d e ds es hd _ ih =>
    refine List.forall_mem_cons.mpr ⟨⟨d, List.mem_cons_self, hd⟩, fun e' he' => ?_⟩
    obtain ⟨d', hd', hentry⟩ := ih e' he'
    exact ⟨d', List.mem_cons_of_mem _ hd', hentry⟩

/-- **Definitions of distinct keys are added to a table** that has none of them. -/
theorem foldlM_add_distinct {reads : List (List Key × Item)}
    (h : List.Forall₂ (Definition.ReadAs P) ds reads) {t : Table} (hdotted : t.form.dotted = false)
    (hnew : ∀ d ∈ ds, d.key ∉ t.entries.keys) (honce : (ds.map Definition.key).Nodup) :
    ∃ es, reads.foldlM Table.add t = .ok { t with entries := t.entries ++ es } ∧
      List.Forall₂ (Definition.EntryOf P) ds es := by
  induction h generalizing t with
  | nil => exact ⟨[], by rw [List.append_nil]; rfl, .nil⟩
  | @cons d read ds reads hd _ ih =>
    obtain ⟨key, item, rfl, hkey, hitem⟩ := hd
    have hnone : t.entries.get? key.name = none := by
      rw [Entries.get?_eq_none_iff, hkey]
      exact hnew d List.mem_cons_self
    have hadd : t.add ([key], item) = .ok { t with entries := t.entries ++ [(key, item)] } :=
      Table.define_nil hdotted hnone
    rw [List.map_cons, List.nodup_cons] at honce
    obtain ⟨hfirst, honce⟩ := honce
    -- the added key is none of those still to come
    have hkeys : ∀ e ∈ ds, e.key ∉ Entries.keys (t.entries ++ [(key, item)]) := by
      intro e he hmem
      rw [Entries.keys, List.map_append, List.mem_append] at hmem
      rcases hmem with hmem | hmem
      · exact hnew e (List.mem_cons_of_mem _ he) hmem
      · rw [List.map_singleton, List.mem_singleton, hkey] at hmem
        exact hfirst (hmem ▸ List.mem_map_of_mem he)
    obtain ⟨es, hes, hall⟩ := ih (t := { t with entries := t.entries ++ [(key, item)] }) hdotted hkeys honce
    refine ⟨(key, item) :: es, ?_, .cons ⟨hkey, hitem⟩ hall⟩
    rw [List.foldlM_cons, hadd]
    refine hes.trans ?_
    simp only [List.append_assoc, List.singleton_append]

/-- **Definitions of distinct keys make a table** of these keys. -/
theorem tableOfDefinitions_distinct {reads : List (List Key × Item)}
    (h : List.Forall₂ (Definition.ReadAs P) ds reads) (honce : (ds.map Definition.key).Nodup) :
    ∃ es, tableOfDefinitions reads = .ok ⟨{ inline := true }, es⟩ ∧
      List.Forall₂ (Definition.EntryOf P) ds es :=
  foldlM_add_distinct h rfl (fun _ _ => List.not_mem_nil) honce

/-! ### Inline tables as values -/

/-- An item is an inline table in which each key is defined as `P` tells. -/
def IsInline (P : String → Item → Prop) (ds : List Definition) (item : Item) : Prop :=
  ∃ form es, item = .table form es ∧ form.inline = true ∧ List.Forall₂ (Definition.EntryOf P) ds es

/-- An inline table is read behind its opening brace, once its definitions are. -/
theorem inlineRest_of_definitions {start inner : Input} {reads : List (List Key × Item)}
    (hread : definitions (value depth) inner = .ok reads ('\x7d' :: rest))
    (hall : List.Forall₂ (Definition.ReadAs P) ds reads) (honce : (ds.map Definition.key).Nodup) :
    ∃ item, inlineRest (value depth) start inner = .ok item rest ∧ IsInline P ds item := by
  obtain ⟨es, htable, hes⟩ := tableOfDefinitions_distinct hall honce
  refine ⟨_, ?_, { inline := true, span := some ⟨start, rest⟩ }, es, rfl, rfl, hes⟩
  rw [inlineRest, hread]
  simp only [Reply.andThen_ok, htable]

/-- **An inline table of distinct keys is read wherever it stands**, one level further down, if each of its
values is read. -/
theorem readsAs_inline (h : InlineText ds w) (honce : (ds.map Definition.key).Nodup)
    (hread : ∀ d ∈ ds, ReadsAs levels d.text (P d.key)) : ReadsAs (levels + 1) w (IsInline P ds) := by
  have hhead : ∃ c cs, w = c :: cs ∧ isSpace c = false := by
    cases h <;> exact ⟨_, _, rfl, rfl⟩
  refine readsAs_of_value hhead fun depth hdepth rest _ => ?_
  obtain ⟨depth, rfl⟩ := Nat.exists_eq_succ_of_ne_zero (Nat.ne_zero_of_lt hdepth)
  cases h with
  | empty hsp =>
    simp only [List.cons_append, List.append_assoc, List.nil_append, value_brace]
    exact inlineRest_of_definitions (definitions_empty hsp rest) .nil honce
  | definitions h =>
    obtain ⟨reads, hreads, hall⟩ := definitions_texts h (Nat.le_of_succ_le_succ hdepth) hread rest
    simp only [List.cons_append, List.append_assoc, List.nil_append, value_brace]
    exact inlineRest_of_definitions hreads hall honce

end QualityGate.Toml
