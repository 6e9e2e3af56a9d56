import QualityGate.Toml.Document
import QualityGate.Proofs.Toml.Text
/-!
## Documents by their layout

A document is laid out in lines, with blanks, comments and line ends of either kind between and behind
what matters. `Lines` relates the lines that matter to the whole text.

* `lead_cons`: one line is read after the other, whatever stands around them.
* `dottedKey_spelling`: a dotted key is read back, each of its parts bare or in quotes.
-/

namespace QualityGate.Toml

variable {d d' : Draft} {rest s sp tail text v : List Char} {reply : Reply Draft}

/-! ### Blanks, comments and line ends -/

/-- Spaces and tabs, or nothing. -/
def Spaces (sp : List Char) : Prop :=
  ∀ c ∈ sp, isSpace c = true

instance : DecidablePred Spaces :=
  fun sp => decidable_of_iff (sp.all isSpace = true) List.all_eq_true

/-- What fits is passed over, up to what does not fit. -/
theorem dropWhile_exact {p : Char → Bool} {front : List Char} (h : ∀ c ∈ front, p c = true)
    (hrest : ∀ c ∈ rest.head?, p c = false) : (front ++ rest).dropWhile p = rest := by
  rw [List.dropWhile_append_of_pos h]
  cases rest with
  | nil => rfl
  | cons c r => exact List.dropWhile_cons_of_neg (by simp [hrest c rfl])

theorem skipSpaces_append (h : Spaces sp) (hrest : ∀ c ∈ rest.head?, isSpace c = false) :
    skipSpaces (sp ++ rest) = rest :=
  dropWhile_exact h hrest

/-- What holds of spaces and of the character behind them holds of the first character of both. -/
theorem head_spaces_append {P : Char → Prop} (hsp : Spaces sp) (hspace : P ' ' ∧ P '\t')
    (hrest : ∀ c ∈ rest.head?, P c) : ∀ c ∈ (sp ++ rest).head?, P c := by
  cases sp with
  | nil => exact hrest
  | cons a sp =>
    rintro c ⟨⟩
    have ha := hsp a (List.mem_cons_self ..)
    rw [isSpace, decide_eq_true_eq] at ha
    rcases ha with rfl | rfl
    · exact hspace.1
    · exact hspace.2

/-- A value may end before spaces wherever it may end behind them. -/
theorem Ends.spaces_append (hsp : Spaces sp) (h : Ends rest) : Ends (sp ++ rest) :=
  head_spaces_append hsp (by decide) h

/-- A comment, or nothing. -/
inductive Comment : List Char → Prop
  | none : Comment []
  | some {cs : List Char} (h : ∀ c ∈ cs, isCommentChar c = true) : Comment ('#' :: cs)

/-- **The end of a line**, a line feed alone or after a carriage return. -/
inductive Newline : List Char → Prop
  | feed : Newline ['\n']
  | returnFeed : Newline ['\r', '\n']

/-- **What may follow on a line**: spaces, a comment and the line end, behind which the text goes on, or the
end of the text. -/
inductive LineTail : Input → Input → Prop
  | ended {sp comment nl rest : List Char} (hsp : Spaces sp) (hcomment : Comment comment)
    (hnl : Newline nl) : LineTail (sp ++ (comment ++ (nl ++ rest))) rest
  | last {sp comment : List Char} (hsp : Spaces sp) (hcomment : Comment comment) :
    LineTail (sp ++ comment) []

theorem afterNewline?_append {nl : List Char} (h : Newline nl) (rest : Input) :
    afterNewline? (nl ++ rest) = some rest := by
  cases h <;> rfl

theorem Newline.exists_cons {nl : List Char} (h : Newline nl) :
    ∃ c r, nl = c :: r ∧ (c = '\n' ∨ c = '\r') := by
  cases h
  · exact ⟨_, _, rfl, Or.inl rfl⟩
  · exact ⟨_, _, rfl, Or.inr rfl⟩

theorem skipComment_of_ne {c : Char} (h : c ≠ '#') (r : Input) : skipComment (c :: r) = c :: r := by
  unfold skipComment
  split
  · exact absurd (List.cons_eq_cons.mp ‹_›).1 h
  · rfl

/-- A line end after a comment, or without one. -/
theorem lineEnd_newline {comment nl : List Char} (hcomment : Comment comment) (hnl : Newline nl)
    (rest : Input) : lineEnd (skipComment (comment ++ (nl ++ rest))) = .ok () rest := by
  obtain ⟨c, r, rfl, hc⟩ := hnl.exists_cons
  have hplain : isCommentChar c = false ∧ c ≠ '#' := by rcases hc with rfl | rfl <;> decide
  have hskip : skipComment (comment ++ (c :: r ++ rest)) = c :: (r ++ rest) := by
    cases hcomment with
    | none => exact skipComment_of_ne hplain.2 _
    | some h =>
      refine dropWhile_exact h ?_
      rintro d ⟨⟩
      exact hplain.1
  have hafter := afterNewline?_append hnl rest
  rw [List.cons_append] at hafter
  rw [hskip, lineEnd, hafter]

theorem lineEnd_last {comment : List Char} (h : Comment comment) :
    lineEnd (skipComment comment) = .ok () [] := by
  cases h with
  | none => rfl
  | @some cs h =>
    have hskip : skipComment ('#' :: cs) = [] := by
      have hall : (cs ++ []).dropWhile isCommentChar = [] := dropWhile_exact h nofun
      rwa [List.append_nil] at hall
    rw [hskip]
    rfl

/-- **What stands on a line behind spaces** is a comment, a line end or nothing. -/
theorem LineTail.split (h : LineTail tail rest) :
    ∃ sp core, tail = sp ++ core ∧ Spaces sp ∧ (∀ c ∈ core.head?, c = '#' ∨ c = '\n' ∨ c = '\r') ∧
      lineEnd (skipComment core) = .ok () rest ∧ (core = [] ∨ rest.length < core.length) := by
  cases h with
  | @ended sp comment nl rest hsp hcomment hnl =>
    refine ⟨sp, _, rfl, hsp, ?_, lineEnd_newline hcomment hnl rest, Or.inr ?_⟩
    · cases hcomment with
      | none =>
        obtain ⟨c, r, rfl, hc⟩ := hnl.exists_cons
        rintro d ⟨⟩
        exact Or.inr hc
      | some _ =>
        rintro d ⟨⟩
        exact Or.inl rfl
    · -- a line end has at least one character
      obtain ⟨c, r, rfl, -⟩ := hnl.exists_cons
      simp only [List.length_append, List.length_cons]
      omega
  | @last sp comment hsp hcomment =>
    refine ⟨sp, comment, rfl, hsp, ?_, lineEnd_last hcomment, ?_⟩
    · cases hcomment with
      | none => nofun
      | some _ =>
        rintro d ⟨⟩
        exact Or.inl rfl
    · cases hcomment with
      | none => exact Or.inl rfl
      | some _ => exact Or.inr (Nat.succ_pos _)

/-- What stands behind the spaces of a line is no space. -/
theorem head_ne_space {core : List Char} (h : ∀ c ∈ core.head?, c = '#' ∨ c = '\n' ∨ c = '\r') :
    ∀ c ∈ core.head?, isSpace c = false := by
  intro c hc
  rcases h c hc with rfl | rfl | rfl <;> rfl

/-- **The rest of a line is read**, and what follows the line is left. -/
theorem lineRest_tail (h : LineTail tail rest) : lineRest tail = .ok () rest := by
  obtain ⟨sp, core, rfl, hsp, hcore, hend, -⟩ := h.split
  rw [lineRest, skipSpaces_append hsp (head_ne_space hcore), hend]

/-- A line may end behind any value. -/
theorem LineTail.ends (h : LineTail tail rest) : Ends tail := by
  obtain ⟨sp, core, rfl, hsp, hcore, -⟩ := h.split
  refine Ends.spaces_append hsp fun c hc => ?_
  rcases hcore c hc with rfl | rfl | rfl <;> decide

theorem LineTail.length_le (h : LineTail tail rest) : rest.length ≤ tail.length := by
  obtain ⟨sp, core, rfl, -, -, hend, hcore⟩ := h.split
  rw [List.length_append]
  rcases hcore with rfl | hcore
  · cases hend
    exact Nat.zero_le _
  · omega

/-! ### Lines -/

/-- **A text in lines**: the lines that matter, each behind spaces and before what may follow on a line,
and between them lines on which nothing matters. -/
inductive Lines : List (List Char) → Input → Prop
  | done : Lines [] []
  | idle {contents : List (List Char)} {tail rest : Input} (ht : LineTail tail rest)
    (h : Lines contents rest) : Lines contents tail
  | line {contents : List (List Char)} {sp content : List Char} {tail rest : Input} (hsp : Spaces sp)
    (ht : LineTail tail rest) (h : Lines contents rest) :
    Lines (content :: contents) (sp ++ (content ++ tail))

/-- **Reading the lines of a text** from a draft on comes to a reply, whatever bound there is on their
number, as long as it exceeds the length of the text. -/
def Leads (d : Draft) (s : Input) (reply : Reply Draft) : Prop :=
  ∀ n, s.length < n → linesOnto d n s = reply

/-- **One line is read after the other.** -/
theorem leads_step {c : Char} {r : Input} (hs : skipSpaces s = c :: r)
    (hline : line d c r = .ok d' rest) (hlength : rest.length < s.length)
    (h : Leads d' rest reply) : Leads d s reply := by
  intro n hn
  cases n with
  | zero => exact absurd hn (Nat.not_lt_zero _)
  | succ n =>
    rw [linesOnto, hs]
    simp only [hline]
    exact h n (by omega)

/-- A line at fault ends the reading. -/
theorem leads_refusal {c : Char} {r : Input} (hs : skipSpaces s = c :: r)
    (hline : (line d c r).IsRefusal) : ∃ place complaint, Leads d s (.committed place complaint) := by
  obtain ⟨place, complaint, hline⟩ := hline
  cases hreply : line d c r with
  | ok d' rest =>
    rw [hreply] at hline
    cases hline
  | tentative p m =>
    refine ⟨c :: r, {}, fun n hn => ?_⟩
    obtain ⟨n, rfl⟩ := Nat.exists_eq_succ_of_ne_zero (Nat.ne_zero_of_lt hn)
    rw [linesOnto, hs]
    simp only [hreply]
  | committed p m =>
    refine ⟨p, m, fun n hn => ?_⟩
    obtain ⟨n, rfl⟩ := Nat.exists_eq_succ_of_ne_zero (Nat.ne_zero_of_lt hn)
    rw [linesOnto, hs]
    simp only [hreply]

theorem leads_blank (hs : skipSpaces s = []) : Leads d s (.ok d []) := by
  intro n hn
  obtain ⟨n, rfl⟩ := Nat.exists_eq_succ_of_ne_zero (Nat.ne_zero_of_lt hn)
  rw [linesOnto, hs]

/-- **A line on which nothing matters** is passed over. -/
theorem leads_idle (ht : LineTail tail rest) (h : Leads d rest reply) : Leads d tail reply := by
  obtain ⟨sp, core, rfl, hsp, hcore, hend, hlength⟩ := ht.split
  have hskip := skipSpaces_append hsp (head_ne_space hcore)
  cases core with
  | nil =>
    cases hend
    have hreply := h 1 Nat.one_pos
    rw [linesOnto] at hreply
    rw [← hreply]
    exact leads_blank hskip
  | cons c r =>
    have hlength := hlength.resolve_left (List.cons_ne_nil c r)
    refine leads_step hskip ?_ (by rw [List.length_append]; omega) h
    unfold line
    by_cases hc : c = '#'
    · rw [if_pos hc, hend]
      rfl
    · -- what is no comment is a line end, which starts neither a header nor a key
      have hnewline := (hcore c rfl).resolve_left hc
      have hbracket : c ≠ '[' := by rcases hnewline with rfl | rfl <;> decide
      rw [skipComment_of_ne hc, lineEnd] at hend
      rw [if_neg hc, if_neg hbracket, if_pos hnewline]
      cases hafter : afterNewline? (c :: r) with
      | none => simp [hafter] at hend
      | some after =>
        simp only [hafter, Reply.ok.injEq, true_and] at hend
        rw [hend]

/-- **A line that is read**, whatever stands around it. `R` tells what it makes of a draft, or that it is
refused. -/
def LineReadsTo (d : Draft) (content : List Char) (R : Option Draft → Prop) : Prop :=
  ∃ c cs, content = c :: cs ∧ isSpace c = false ∧ ∀ {tail rest}, LineTail tail rest →
    (∃ d', line d c (cs ++ tail) = .ok d' rest ∧ R (some d')) ∨
      ((line d c (cs ++ tail)).IsRefusal ∧ R none)

/-- **A text whose next line that matters is read.** What it leads to is what the lines behind it lead to,
or a refusal. -/
theorem lead_cons {content : List Char} {contents : List (List Char)} {R : Option Draft → Prop}
    {Q : Reply Draft → Prop} (h : Lines (content :: contents) text) (hread : LineReadsTo d content R)
    (hnext : ∀ d', R (some d') → ∀ text', Lines contents text' → ∃ reply, Leads d' text' reply ∧ Q reply)
    (hrefused : R none → ∀ place complaint, Q (.committed place complaint)) :
    ∃ reply, Leads d text reply ∧ Q reply := by
  -- the list of lines is a variable for the induction, with what it is equal to beside it
  generalize hlines : content :: contents = lines at h
  induction h with
  | done => cases hlines
  | idle ht _ ih =>
    obtain ⟨reply, hleads, hreply⟩ := ih hlines
    exact ⟨reply, leads_idle ht hleads, hreply⟩
  | line hsp ht h =>
    obtain ⟨rfl, rfl⟩ := List.cons_eq_cons.mp hlines
    obtain ⟨c, cs, rfl, hc, hread⟩ := hread
    have hskip {tail : Input} : skipSpaces (_ ++ (c :: cs ++ tail)) = c :: (cs ++ tail) :=
      skipSpaces_append hsp (by rintro d ⟨⟩; exact hc)
    rcases hread ht with ⟨d', hline, hd'⟩ | ⟨hrefusal, hnone⟩
    · obtain ⟨reply, hleads, hreply⟩ := hnext d' hd' _ h
      refine ⟨reply, leads_step hskip hline ?_ hleads, hreply⟩
      have hlength := ht.length_le
      simp only [List.length_append, List.length_cons]
      omega
    · obtain ⟨place, complaint, hleads⟩ := leads_refusal hskip hrefusal
      exact ⟨_, hleads, hrefused hnone place complaint⟩

/-- Where no line matters nothing changes. -/
theorem lead_nil (h : Lines [] text) : Leads d text (.ok d []) := by
  generalize hlines : ([] : List (List Char)) = lines at h
  induction h with
  | done => exact leads_blank rfl
  | idle ht _ ih => exact leads_idle ht (ih hlines)
  | line => cases hlines

/-! ### Keys -/

/-- **A key as it may be written**: bare, or between quotes of either kind without escapes. -/
inductive KeyText (name : String) : List Char → Prop
  | bare (hne : name.toList ≠ []) (h : ∀ c ∈ name.toList, isBareKeyChar c = true) :
    KeyText name name.toList
  | literal (h : ∀ c ∈ name.toList, isLiteralChar c = true) :
    KeyText name (apostrophe :: (name.toList ++ [apostrophe]))
  | basic (h : ∀ c ∈ name.toList, isBasicChar c = true) :
    KeyText name (quote :: (name.toList ++ [quote]))

/-- **A key as it may be written at all**: bare, or as a string of one line, with escapes or without. -/
inductive KeySpelling (name : String) : List Char → Prop
  | bare (hne : name.toList ≠ []) (h : ∀ c ∈ name.toList, isBareKeyChar c = true) :
    KeySpelling name name.toList
  | quoted {w : List Char} (h : StringText name w) : KeySpelling name w

theorem KeyText.spelling {name : String} {cs : List Char} (h : KeyText name cs) :
    KeySpelling name cs := by
  cases h with
  | bare hne h => exact .bare hne h
  | literal h => exact .quoted (.literal h)
  | basic h => exact .quoted (.basic (basicText_self h))

/-- **A key is read back**, up to what ends it. -/
theorem simpleKey_spelling {name : String} {cs : List Char} (h : KeySpelling name cs)
    (hrest : ∀ c ∈ rest.head?, isBareKeyChar c = false) :
    simpleKey (cs ++ rest) = .ok ⟨name, ⟨cs ++ rest, rest⟩⟩ rest := by
  cases h with
  | bare hne h =>
    have hdrop := dropWhile_exact h hrest
    have htake : (name.toList ++ rest).takeWhile isBareKeyChar = name.toList := by
      have hsplit := List.takeWhile_append_dropWhile (p := isBareKeyChar) (l := name.toList ++ rest)
      rw [hdrop] at hsplit
      exact List.append_cancel_right hsplit
    have hname : String.ofList name.toList = name := String.ofList_toList
    obtain ⟨c, r, hcs⟩ := List.exists_cons_of_ne_nil hne
    rw [hcs] at h hdrop htake hname ⊢
    have hc := h c (List.mem_cons_self ..)
    -- a bare key does not begin with a quote
    have hquotes : ¬(c = quote ∨ c = apostrophe) := by
      rintro (rfl | rfl) <;> exact absurd hc (by decide)
    rw [List.cons_append] at hdrop htake ⊢
    simp only [simpleKey, if_neg hquotes, if_pos hc, hdrop, htake, hname, Reply.andThen_ok]
  | quoted h =>
    have hread := lineText_stringText h rest
    obtain ⟨c, r, rfl, hc⟩ := h.exists_cons
    rw [List.cons_append] at hread ⊢
    simp only [simpleKey, if_pos hc, hread, Reply.andThen_ok]

/-- A character with which a key begins. -/
def StartsKey (c : Char) : Prop :=
  isBareKeyChar c = true ∨ c = quote ∨ c = apostrophe

theorem KeySpelling.exists_cons {name : String} {cs : List Char} (h : KeySpelling name cs) :
    ∃ c r, cs = c :: r ∧ StartsKey c := by
  cases h with
  | bare hne h =>
    obtain ⟨c, r, hcs⟩ := List.exists_cons_of_ne_nil hne
    exact ⟨c, r, hcs, Or.inl (h c (hcs ▸ List.mem_cons_self ..))⟩
  | quoted h =>
    obtain ⟨c, r, rfl, hc⟩ := h.exists_cons
    exact ⟨c, r, rfl, Or.inr hc⟩

/-- A key begins with no mark of another kind. -/
theorem StartsKey.ne {c e : Char} (h : StartsKey c)
    (he : isBareKeyChar e = false ∧ e ≠ quote ∧ e ≠ apostrophe) : c ≠ e := by
  rintro rfl
  rcases h with h | h | h
  · rw [he.1] at h
    cases h
  · exact he.2.1 h
  · exact he.2.2 h

theorem StartsKey.not_isSpace {c : Char} (h : StartsKey c) : isSpace c = false := by
  rw [isSpace, decide_eq_false_iff_not]
  exact not_or.mpr ⟨h.ne (by decide), h.ne (by decide)⟩

/-- **A dotted key as it may be written**, with spaces after each part and after each dot. -/
inductive KeyPath : List String → List Char → Prop
  | one {name : String} {k sp : List Char} (hk : KeyText name k) (hsp : Spaces sp) :
    KeyPath [name] (k ++ sp)
  | dot {name : String} {rest : List String} {k sp sp' cs : List Char} (hk : KeyText name k)
    (hsp : Spaces sp) (hsp' : Spaces sp') (h : KeyPath rest cs) :
    KeyPath (name :: rest) (k ++ (sp ++ '.' :: (sp' ++ cs)))

/-- **A dotted key as it may be written at all**, with spaces after each part and after each dot. -/
inductive PathSpelling : List String → List Char → Prop
  | one {name : String} {k sp : List Char} (hk : KeySpelling name k) (hsp : Spaces sp) :
    PathSpelling [name] (k ++ sp)
  | dot {name : String} {rest : List String} {k sp sp' cs : List Char} (hk : KeySpelling name k)
    (hsp : Spaces sp) (hsp' : Spaces sp') (h : PathSpelling rest cs) :
    PathSpelling (name :: rest) (k ++ (sp ++ '.' :: (sp' ++ cs)))

theorem KeyPath.spelling {path : List String} {cs : List Char} (h : KeyPath path cs) :
    PathSpelling path cs := by
  induction h with
  | one hk hsp => exact .one hk.spelling hsp
  | dot hk hsp hsp' _ ih => exact .dot hk.spelling hsp hsp' ih

theorem PathSpelling.exists_cons {path : List String} {cs : List Char} (h : PathSpelling path cs) :
    ∃ c r, cs = c :: r ∧ StartsKey c := by
  cases h with
  | one hk =>
    obtain ⟨c, r, rfl, hc⟩ := hk.exists_cons
    exact ⟨c, _, rfl, hc⟩
  | dot hk =>
    obtain ⟨c, r, rfl, hc⟩ := hk.exists_cons
    exact ⟨c, _, rfl, hc⟩

/-- **What may follow a key**: neither a space nor a dot, nor what goes on with a bare key. -/
def EndsKey (rest : Input) : Prop :=
  ∀ c ∈ rest.head?, isSpace c = false ∧ isBareKeyChar c = false ∧ c ≠ '.'

/-- One part is read with the spaces around it. -/
theorem spacedKey_spelling {name : String} {before k sp : List Char} (hbefore : Spaces before)
    (hk : KeySpelling name k) (hsp : Spaces sp) (rest : Input)
    (hrest : ∀ c ∈ rest.head?, isSpace c = false ∧ isBareKeyChar c = false) :
    ∃ key, spacedKey (before ++ (k ++ (sp ++ rest))) = .ok key rest ∧ key.name = name := by
  have hend : ∀ c ∈ (sp ++ rest).head?, isBareKeyChar c = false :=
    head_spaces_append hsp (by decide) fun c hc => (hrest c hc).2
  refine ⟨⟨name, ⟨k ++ (sp ++ rest), sp ++ rest⟩⟩, ?_, rfl⟩
  have hstart : skipSpaces (before ++ (k ++ (sp ++ rest))) = k ++ (sp ++ rest) := by
    refine skipSpaces_append hbefore ?_
    obtain ⟨c, r, rfl, hc⟩ := hk.exists_cons
    rintro e ⟨⟩
    exact hc.not_isSpace
  rw [spacedKey, hstart, simpleKey_spelling hk hend, Reply.andThen_ok,
    skipSpaces_append hsp fun c hc => (hrest c hc).1]

/-- Reading on behind a part ends with the key. -/
theorem moreKeys_of_endsKey (acc : List Key) (n : Nat) (hrest : EndsKey rest) :
    moreKeys acc n rest = .ok acc.reverse rest := by
  cases n with
  | zero => rfl
  | succ n =>
    rw [moreKeys]
    rintro r rfl
    exact (hrest '.' rfl).2.2 rfl

/-- The parts behind a dot are read, whatever bound there is on their number, as long as it exceeds the
length of the text. -/
theorem moreKeys_spelling {path : List String} {cs : List Char} (h : PathSpelling path cs)
    (hrest : EndsKey rest) {before : List Char} (hbefore : Spaces before) (acc : List Key) {n : Nat}
    (hn : cs.length < n) :
    ∃ ks, moreKeys acc n ('.' :: (before ++ (cs ++ rest))) = .ok (acc.reverse ++ ks) rest ∧
      names ks = path := by
  induction h generalizing before acc n with
  | @one name k sp hk hsp =>
    obtain ⟨key, hkey, hname⟩ := spacedKey_spelling hbefore hk hsp rest
      fun c hc => ⟨(hrest c hc).1, (hrest c hc).2.1⟩
    obtain ⟨n, rfl⟩ := Nat.exists_eq_succ_of_ne_zero (Nat.ne_zero_of_lt hn)
    refine ⟨[key], ?_, by simp [names, hname]⟩
    rw [moreKeys, List.append_assoc, hkey]
    simp only [moreKeys_of_endsKey _ _ hrest, List.reverse_cons]
  | @dot name path k sp sp' cs hk hsp hsp' h ih =>
    obtain ⟨key, hkey, hname⟩ := spacedKey_spelling hbefore hk hsp ('.' :: (sp' ++ (cs ++ rest)))
      (by rintro c ⟨⟩; decide)
    obtain ⟨n, rfl⟩ := Nat.exists_eq_succ_of_ne_zero (Nat.ne_zero_of_lt hn)
    have hshorter : cs.length < n := by
      simp only [List.length_append, List.length_cons] at hn
      omega
    obtain ⟨ks, hks, hnames⟩ := ih hsp' (key :: acc) hshorter
    refine ⟨key :: ks, ?_, by rw [names] at hnames ⊢; simp [hname, hnames]⟩
    simp only [List.append_assoc, List.cons_append] at hkey ⊢
    rw [moreKeys, hkey]
    simp only [hks, List.reverse_cons, List.append_assoc, List.singleton_append]

/-- **A dotted key is read back**, up to what ends it. -/
theorem dottedKey_spelling {path : List String} {cs : List Char} (hsp : Spaces sp)
    (h : PathSpelling path cs) (hlength : path.length < depthLimit) (hrest : EndsKey rest) :
    ∃ ks, dottedKey (sp ++ (cs ++ rest)) = .ok ks rest ∧ names ks = path := by
  have hread : ∃ ks, (spacedKey (sp ++ (cs ++ rest))).andThen
      (fun k rest => moreKeys [k] rest.length rest) = .ok ks rest ∧ names ks = path := by
    cases h with
    | @one name k sp' hk hsp' =>
      obtain ⟨key, hkey, hname⟩ := spacedKey_spelling hsp hk hsp' rest
        fun c hc => ⟨(hrest c hc).1, (hrest c hc).2.1⟩
      refine ⟨[key], ?_, by simp [names, hname]⟩
      rw [List.append_assoc, hkey]
      exact moreKeys_of_endsKey _ _ hrest
    | @dot name path k sp' sp'' cs hk hsp' hsp'' h =>
      obtain ⟨key, hkey, hname⟩ := spacedKey_spelling hsp hk hsp' ('.' :: (sp'' ++ (cs ++ rest)))
        (by rintro c ⟨⟩; decide)
      obtain ⟨ks, hks, hnames⟩ := moreKeys_spelling h hrest hsp'' [key]
        (n := ('.' :: (sp'' ++ (cs ++ rest))).length)
        (by simp only [List.length_append, List.length_cons]; omega)
      refine ⟨key :: ks, ?_, by rw [names] at hnames ⊢; simp [hname, hnames]⟩
      simp only [List.append_assoc, List.cons_append] at hkey ⊢
      rw [hkey]
      exact hks
  obtain ⟨ks, hks, hnames⟩ := hread
  refine ⟨ks, ?_, hnames⟩
  -- there are as many keys as names, so few enough
  have hcount : ks.length < depthLimit := by
    rw [← hnames, names, List.length_map] at hlength
    exact hlength
  rw [dottedKey, hks, Reply.labelled_ok, Reply.andThen_ok, if_pos hcount]

end QualityGate.Toml
