import QualityGate.Proofs.Toml.Inline
import QualityGate.Proofs.Toml.Statements
/-!
## Statements as they are written

A line of a document states what it is written for, whatever way its keys are spelled and whatever blanks,
comments and line ends stand around it.

* `StatementLine`: the lines that are written for a statement.
* `statements_lines`: a document of such lines is told to state just that, as far as it can be read.
-/

namespace QualityGate.Toml

variable {content v rest tail text : List Char} {inner : List String} {levels : Nat} {st : Statement}
  {o : Option Statement} {s : Input}

/-! ### Lines of statements -/

/-- **A text that stands for a value**, with the keys that it defines if it is an inline table. -/
inductive ValueText (levels : Nat) : List String → List Char → Prop
  | plain {v : List Char} {R : Option Item → Prop} (hv : ReadsTo levels v R) (hbrace : v.head? ≠ some '\x7b') :
    ValueText levels [] v
  | inline {ds : List Definition} {v : List Char} (h : InlineText ds v)
    (hread : ∀ d ∈ ds, ReadsAs levels d.text fun _ => True) : ValueText levels (ds.map Definition.key) v

/-- **A line that is written for a statement**, with keys that are bare or in quotes. -/
inductive StatementLine : Statement → List Char → Prop
  | table {path : List String} {sp t : List Char} (hsp : Spaces sp) (ht : PathSpelling path t)
    (hlength : path.length < depthLimit) : StatementLine (.header false path) ('[' :: (sp ++ (t ++ [']'])))
  | list {path : List String} {sp t : List Char} (hsp : Spaces sp) (ht : PathSpelling path t)
    (hlength : path.length < depthLimit) :
    StatementLine (.header true path) ('[' :: '[' :: (sp ++ (t ++ [']', ']'])))
  | key {path inner : List String} {k sp v : List Char} {levels : Nat} (hk : PathSpelling path k)
    (hlength : path.length < depthLimit) (hsp : Spaces sp) (hv : ValueText levels inner v)
    (hlevels : levels + 1 < depthLimit) : StatementLine (.definition path inner) (k ++ '=' :: (sp ++ v))

theorem ValueText.head (h : ValueText levels inner v) : ∃ c cs, v = c :: cs ∧ isSpace c = false := by
  cases h with
  | plain hv => exact hv.head
  | inline h => cases h <;> exact ⟨_, _, rfl, rfl⟩

/-- An inline table is read up to the end of its definitions, unless two of them clash. -/
theorem inlineRest_rest {read : Input → Reply Item} {start r : Input} {ds : List (List Key × Item)}
    (h : definitions read r = .ok ds ('\x7d' :: rest)) :
    (inlineRest read start r).rest? = some rest ∨ (inlineRest read start r).rest? = none := by
  rw [inlineRest, h, Reply.andThen_ok]
  cases tableOfDefinitions ds with
  | error clash => exact Or.inr rfl
  | ok t => exact Or.inl rfl

/-- The keys of definitions that are read are theirs. -/
theorem singleKeys_readAs {P : String → Item → Prop} {ds : List Definition} {reads : List (List Key × Item)}
    (h : List.Forall₂ (Definition.ReadAs P) ds reads) : singleKeys reads = ds.map Definition.key := by
  induction h with
  | nil => rfl
  | cons hd _ ih =>
    obtain ⟨key, item, rfl, hkey, -⟩ := hd
    rw [List.map_cons, ← hkey, ← ih]
    rfl

/-- **The text of a value ends where it is read to**, unless it is refused, and the keys between its braces are
told from it. -/
theorem ValueText.reads (h : ValueText levels inner v) (hlevels : levels + 1 < depthLimit) (hrest : Ends rest) :
    innerKeys (v ++ rest) = inner ∧
      ((value (depthLimit - 1) (v ++ rest)).rest? = some rest ∨ (value (depthLimit - 1) (v ++ rest)).rest? = none) := by
  cases h with
  | plain hv hbrace =>
    constructor
    · obtain ⟨c, cs, rfl, -⟩ := hv.head
      unfold innerKeys
      split
      · rename_i hcons
        obtain ⟨rfl, -⟩ := List.cons.inj hcons
        exact absurd rfl hbrace
      · rfl
    · have hdepth : levels ≤ depthLimit - 1 := Nat.le_sub_one_of_lt (Nat.lt_of_succ_lt hlevels)
      rcases hv.reads hdepth hrest with ⟨item, hvalue, -⟩ | ⟨⟨place, complaint, hvalue⟩, -⟩
      · rw [hvalue]
        exact Or.inl rfl
      · cases hreply : value (depthLimit - 1) (v ++ rest) with
        | ok item behind =>
          rw [hreply] at hvalue
          cases hvalue
        | tentative => exact Or.inr rfl
        | committed => exact Or.inr rfl
  | @inline ds v h hread =>
    -- one level down is left for the values between the braces
    obtain ⟨r, reads, hr, hreads, hall⟩ : ∃ r reads, v ++ rest = '\x7b' :: r ∧
        definitions (value (depthLimit - 2)) r = .ok reads ('\x7d' :: rest) ∧
        List.Forall₂ (Definition.ReadAs fun _ _ => True) ds reads := by
      cases h with
      | empty hsp =>
        refine ⟨_, [], ?_, definitions_empty hsp rest, .nil⟩
        simp only [List.cons_append, List.append_assoc, List.nil_append]
      | definitions h =>
        have hdepth : levels ≤ depthLimit - 2 := Nat.le_sub_of_add_le hlevels
        obtain ⟨reads, hreads, hall⟩ := definitions_texts (P := fun _ _ => True) h hdepth hread rest
        refine ⟨_, reads, ?_, hreads, hall⟩
        simp only [List.cons_append, List.append_assoc, List.nil_append]
    rw [hr]
    refine ⟨?_, inlineRest_rest hreads⟩
    rw [innerKeys, hreads]
    exact singleKeys_readAs hall

/-- What is read behind a value is read behind its text. -/
theorem rest_andThen {α β : Type} {r : Reply α} {next : α → Input → Reply β} {behind after : Input}
    (h : r.rest? = some behind ∨ r.rest? = none) (hnext : ∀ v, (next v behind).rest? = some after) :
    (r.andThen next).rest? = some after ∨ (r.andThen next).rest? = none := by
  cases r with
  | ok v rest =>
    rcases h with h | h
    · obtain rfl := Option.some.inj h
      exact Or.inl (hnext v)
    · cases h
  | tentative => exact Or.inr rfl
  | committed => exact Or.inr rfl

/-! ### Reading them -/

theorem lineReading_bracket {r : Input} (h : ∀ c ∈ r.head?, c ≠ '[') :
    lineReading '[' r = headerReading false r := by
  unfold lineReading
  rw [if_neg (by decide), if_pos rfl]
  split
  · exact absurd rfl (h '[' rfl)
  · rfl

theorem lineReading_key {c : Char} (hc : StartsKey c) (r : Input) :
    lineReading c r = definitionReading (c :: r) := by
  unfold lineReading
  rw [if_neg (hc.ne (by decide)), if_neg (hc.ne (by decide)),
    if_neg (not_or.mpr ⟨hc.ne (by decide), hc.ne (by decide)⟩)]

/-- A header whose key is read is read to the end of its line. -/
theorem headerReading_closed {list : Bool} {ks : List Key} {start : Input}
    (hks : dottedKey start = .ok ks ((headerEnd list).toList ++ tail)) (ht : LineTail tail rest) :
    headerReading list start = ⟨some (.header list (names ks)), some rest⟩ := by
  have hclosing : exactly (headerEnd list).toList ((headerEnd list).toList ++ tail) = .ok () tail := by
    cases list <;> rfl
  rw [headerReading, hks]
  simp only [hclosing, Reply.andThen_ok, lineRest_tail ht]
  rfl

/-- **A line that is written for a statement** is read as it, if it is read to its end. -/
theorem StatementLine.reads (h : StatementLine st content) (ht : LineTail tail rest) :
    ∃ c cs, content = c :: cs ∧ isSpace c = false ∧
      (lineReading c (cs ++ tail) = ⟨some st, some rest⟩ ∨ (lineReading c (cs ++ tail)).rest = none) := by
  cases h with
  | @table path sp t hsp hpath hlength =>
    refine ⟨'[', _, rfl, rfl, Or.inl ?_⟩
    obtain ⟨ks, hks, rfl⟩ := dottedKey_spelling hsp hpath hlength (endsKey_bracket tail)
    -- the bracket is the only one, so the header is not that of a list
    have hhead : ∀ c ∈ (sp ++ (t ++ ']' :: tail)).head?, c ≠ '[' := by
      refine head_spaces_append hsp (by decide) ?_
      obtain ⟨c, r, rfl, hc⟩ := hpath.exists_cons
      rintro e ⟨⟩
      exact hc.ne (by decide)
    simp only [List.append_assoc, List.singleton_append]
    rw [lineReading_bracket hhead]
    exact headerReading_closed hks ht
  | @list path sp t hsp hpath hlength =>
    refine ⟨'[', _, rfl, rfl, Or.inl ?_⟩
    obtain ⟨ks, hks, rfl⟩ := dottedKey_spelling hsp hpath hlength (endsKey_bracket (']' :: tail))
    simp only [List.cons_append, List.append_assoc, List.nil_append]
    exact headerReading_closed hks ht
  | @key path inner k sp v levels hk hlength hsp hv hlevels =>
    obtain ⟨c, cs, hck, hc⟩ := hk.exists_cons
    refine ⟨c, cs ++ '=' :: (sp ++ v), by rw [hck]; rfl, hc.not_isSpace, ?_⟩
    have hreading : lineReading c (cs ++ '=' :: (sp ++ v) ++ tail) =
        definitionReading (k ++ '=' :: (sp ++ (v ++ tail))) := by
      rw [lineReading_key hc, hck]
      simp only [List.cons_append, List.append_assoc]
    have hblank : Spaces [] := nofun
    obtain ⟨ks, hks, rfl⟩ := dottedKey_spelling hblank hk hlength (endsKey_equals (sp ++ (v ++ tail)))
    rw [List.nil_append] at hks
    have hskip : skipSpaces (sp ++ (v ++ tail)) = v ++ tail := by
      obtain ⟨e, es, rfl, he⟩ := hv.head
      exact skipSpaces_append hsp (by rintro e' ⟨⟩; exact he)
    obtain ⟨hinner, hrest⟩ := hv.reads hlevels ht.ends
    have hstop : (lineRest tail).rest? = some rest := by
      rw [lineRest_tail ht]
      rfl
    rw [hreading, definitionReading, hks]
    simp only [hskip, hinner]
    exact (rest_andThen hrest fun _ => hstop).imp_left fun h => by rw [h]

/-! ### Documents of them -/

/-- One line after the other is read. -/
theorem statementsOnto_step {n : Nat} {c : Char} {r : Input} (hs : skipSpaces s = c :: r)
    (hline : lineReading c r = ⟨o, some rest⟩) :
    statementsOnto (n + 1) s = (o.toList ++ (statementsOnto n rest).1, (statementsOnto n rest).2) := by
  rw [statementsOnto, hs]
  simp only [hline]

/-- **A line on which nothing matters** states nothing. -/
theorem lineReading_idle {c : Char} {r : Input} (hc : c = '#' ∨ c = '\n' ∨ c = '\r')
    (hend : lineEnd (skipComment (c :: r)) = .ok () rest) : lineReading c r = ⟨none, some rest⟩ := by
  unfold lineReading
  by_cases hcomment : c = '#'
  · rw [if_pos hcomment, hend]
    rfl
  · have hnewline := hc.resolve_left hcomment
    have hbracket : c ≠ '[' := by rcases hnewline with rfl | rfl <;> decide
    rw [skipComment_of_ne hcomment, lineEnd] at hend
    rw [if_neg hcomment, if_neg hbracket, if_pos hnewline]
    cases hafter : afterNewline? (c :: r) with
    | none => simp [hafter] at hend
    | some after =>
      simp only [hafter, Reply.ok.injEq, true_and] at hend
      rw [hend]

/-- **Lines that are written for statements** state these, whatever bound there is on their number, as long as
it exceeds the length of the text. -/
theorem statementsOnto_lines {lines : List (List Char)} {stated : List Statement} (h : Lines lines text)
    (hstated : List.Forall₂ StatementLine stated lines) {n : Nat} (hn : text.length < n) :
    (statementsOnto n text).2 = false ∨ (statementsOnto n text).1 = stated := by
  induction h generalizing stated n with
  | done =>
    obtain ⟨n, rfl⟩ := Nat.exists_eq_succ_of_ne_zero (Nat.ne_zero_of_lt hn)
    cases hstated
    exact Or.inr rfl
  | idle ht h ih =>
    obtain ⟨n, rfl⟩ := Nat.exists_eq_succ_of_ne_zero (Nat.ne_zero_of_lt hn)
    obtain ⟨sp, core, rfl, hsp, hcore, hend, hlength⟩ := ht.split
    have hskip := skipSpaces_append hsp (head_ne_space hcore)
    cases core with
    | nil =>
      cases hend
      have hnone := ih hstated Nat.one_pos
      rw [statementsOnto, hskip]
      exact hnone
    | cons c r =>
      have hshorter := hlength.resolve_left (List.cons_ne_nil c r)
      rw [List.length_append] at hn
      rw [statementsOnto_step hskip (lineReading_idle (hcore c rfl) hend)]
      exact ih hstated (by omega)
  | @line contents sp content tail rest hsp ht h ih =>
    obtain ⟨n, rfl⟩ := Nat.exists_eq_succ_of_ne_zero (Nat.ne_zero_of_lt hn)
    cases hstated with
    | @cons st _ more _ hline hmore =>
      obtain ⟨c, cs, rfl, hc, hreads⟩ := hline.reads ht
      have hskip : skipSpaces (sp ++ (c :: cs ++ tail)) = c :: (cs ++ tail) :=
        skipSpaces_append hsp (by rintro d ⟨⟩; exact hc)
      rcases hreads with hreads | hnone
      · have hlength := ht.length_le
        simp only [List.length_append, List.length_cons] at hn
        rw [statementsOnto_step hskip hreads]
        exact (ih hmore (by omega)).imp_right fun hrest => congrArg (st :: ·) hrest
      · -- a value that cannot be read keeps the rest from being told
        refine Or.inl ?_
        rw [statementsOnto, hskip]
        simp only [hnone]

/-- **A document whose lines are written for statements** states these, as long as it can be read line by
line. -/
theorem statements_lines {lines : List (List Char)} {stated : List Statement} (h : Lines lines (dropMark text))
    (hstated : List.Forall₂ StatementLine stated lines) :
    (statements text).2 = false ∨ (statements text).1 = stated :=
  statementsOnto_lines h hstated (Nat.lt_succ_self _)

end QualityGate.Toml
