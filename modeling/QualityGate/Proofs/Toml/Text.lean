import Mathlib.Data.List.TakeWhile
import Mathlib.Tactic.SplitIfs
import QualityGate.Proofs.Toml.Value
/-!
## Strings as they are written

A basic string writes each character as it is or as an escape; a literal string holds its characters as they
are.

* `basicRest_basicText`: a basic string is read back, whichever way each of its characters is written.
* `readsAs_string`: a string of one line is read as its text wherever it stands.
* `stringText_basicString`: a text as it is printed is one of its spellings.
-/

namespace QualityGate.Toml

variable {c : Char} {cs ds rest w : List Char} {s : String}

/-! ### Spellings of characters -/

/-- The escapes of one letter, each with the character that it stands for. -/
def shortEscapes : List (Char × Char) :=
  [('b', '\x08'), ('t', '\t'), ('n', '\n'), ('f', '\x0C'), ('r', '\r'), ('\\', '\\'), (quote, quote)]

/-- The marks of the escapes that give a code point, each with its number of digits. -/
def codeEscapes : List (Char × Nat) :=
  [('u', 4), ('U', 8)]

/-- **How a basic string writes a character**: as it is, or as an escape. -/
inductive CharText (c : Char) : List Char → Prop
  | plain (h : isBasicChar c = true) : CharText c [c]
  | short {e : Char} (h : (e, c) ∈ shortEscapes) : CharText c ['\\', e]
  | code {u : Char} {ds : List Char} (hlength : (u, ds.length) ∈ codeEscapes)
    (hdigits : ∀ d ∈ ds, (hexDigit? d).isSome = true) (hvalue : hexValue ds = c.toNat) :
    CharText c ('\\' :: u :: ds)

/-- **How a basic string writes a text** between its quotes. -/
inductive BasicText : List Char → List Char → Prop
  | nil : BasicText [] []
  | cons {c : Char} {cs w ws : List Char} (hc : CharText c w) (h : BasicText cs ws) :
    BasicText (c :: cs) (w ++ ws)

/-- Characters that need no escape are a spelling of themselves. -/
theorem basicText_self (h : ∀ c ∈ cs, isBasicChar c = true) : BasicText cs cs := by
  induction cs with
  | nil => exact .nil
  | cons c cs ih =>
    obtain ⟨hc, hcs⟩ := List.forall_mem_cons.mp h
    exact .cons (.plain hc) (ih hcs)

/-! ### Escapes -/

theorem scalar?_toNat (c : Char) : scalar? c.toNat = some c := by
  have hvalid : c.toNat.isValidChar := c.valid
  have hsame := Char.ofNat_toNat c
  rw [Char.ofNat, dif_pos hvalid] at hsame
  rw [scalar?, dif_pos hvalid, hsame]

/-- **A code point is read** from exactly its digits. -/
theorem hexEscape_append (hdigits : ∀ d ∈ ds, (hexDigit? d).isSome = true)
    (hvalue : hexValue ds = c.toNat) (rest : Input) :
    hexEscape ds.length (ds ++ rest) = .ok c rest := by
  have htake : ((ds ++ rest).take ds.length).takeWhile (fun c => (hexDigit? c).isSome) = ds := by
    rw [List.take_left]
    exact List.takeWhile_eq_self_iff.mpr hdigits
  simp only [hexEscape, htake, if_true, hvalue, scalar?_toNat, List.drop_left]

theorem escape_short {e : Char} (h : (e, c) ∈ shortEscapes) (rest : Input) :
    escape e rest = .ok c rest := by
  simp only [shortEscapes, List.mem_cons, Prod.mk.injEq, List.not_mem_nil, or_false] at h
  rcases h with ⟨rfl, rfl⟩ | ⟨rfl, rfl⟩ | ⟨rfl, rfl⟩ | ⟨rfl, rfl⟩ | ⟨rfl, rfl⟩ | ⟨rfl, rfl⟩ | ⟨rfl, rfl⟩
  all_goals rfl

theorem escape_code {u : Char} (hlength : (u, ds.length) ∈ codeEscapes)
    (hdigits : ∀ d ∈ ds, (hexDigit? d).isSome = true) (hvalue : hexValue ds = c.toNat) (rest : Input) :
    escape u (ds ++ rest) = .ok c rest := by
  have hread := hexEscape_append hdigits hvalue rest
  simp only [codeEscapes, List.mem_cons, Prod.mk.injEq, List.not_mem_nil, or_false] at hlength
  rcases hlength with ⟨rfl, hlength⟩ | ⟨rfl, hlength⟩
  · rw [hlength] at hread
    exact congrArg (Reply.labelled · "unicode 4-digit hex code") hread
  · rw [hlength] at hread
    exact congrArg (Reply.labelled · "unicode 8-digit hex code") hread

/-! ### Basic strings -/

theorem basicRest_quote (acc : List Char) (rest : Input) :
    basicRest acc (quote :: rest) = .ok (String.ofList acc.reverse) rest := by
  rw [basicRest.eq_def]
  cases rest <;> exact if_pos rfl

/-- A character that needs no escape is taken in, as long as anything follows. -/
theorem basicRest_plain (hc : isBasicChar c = true) (acc : List Char) (d : Char) (r : Input) :
    basicRest acc (c :: d :: r) = basicRest (c :: acc) (d :: r) := by
  have hne {e : Char} (he : isBasicChar e = false) : c ≠ e := by
    rintro rfl
    rw [hc] at he
    cases he
  have hquote : c ≠ quote := hne (by decide)
  have hescape : c ≠ '\\' := hne (by decide)
  rw [basicRest.eq_def]
  simp only [if_neg hquote, if_neg hescape, if_pos hc]

/-- An escape is taken in as what it stands for. -/
theorem basicRest_escape {d : Char} {r : Input} (h : escape d r = .ok c rest) (acc : List Char) :
    basicRest acc ('\\' :: d :: r) = basicRest (c :: acc) rest := by
  have hquote : '\\' ≠ quote := by decide
  rw [basicRest.eq_def]
  simp only [if_neg hquote, if_true]
  split
  · rename_i e after hread
    rw [h] at hread
    cases hread
    rfl
  · rename_i hread
    rw [h] at hread
    cases hread
  · rename_i hread
    rw [h] at hread
    cases hread

/-- **A basic string is read back** up to the quote, whichever way its characters are written. -/
theorem basicRest_basicText (h : BasicText cs w) (acc : List Char) (rest : Input) :
    basicRest acc (w ++ quote :: rest) = .ok (String.ofList (acc.reverse ++ cs)) rest := by
  induction h generalizing acc with
  | nil => rw [List.nil_append, List.append_nil, basicRest_quote]
  | @cons c cs w ws hc h ih =>
    have hnext := ih (c :: acc)
    rw [List.reverse_cons, List.append_assoc, List.singleton_append] at hnext
    rw [← hnext, List.append_assoc]
    cases hc with
    | plain hc =>
      -- something follows in any case, the quote at the latest
      obtain ⟨d, r, hrest⟩ := List.exists_cons_of_ne_nil
        (List.append_ne_nil_of_right_ne_nil ws (List.cons_ne_nil quote rest))
      rw [List.singleton_append, hrest, basicRest_plain hc]
    | short he => exact basicRest_escape (escape_short he _) acc
    | code hlength hdigits hvalue => exact basicRest_escape (escape_code hlength hdigits hvalue _) acc

/-! ### Strings -/

theorem literalRest_append (h : ∀ c ∈ cs, isLiteralChar c = true) (rest : Input) :
    literalRest (cs ++ apostrophe :: rest) = .ok (String.ofList cs) rest := by
  have hmark : isLiteralChar apostrophe = false := by decide
  have hdrop : (cs ++ apostrophe :: rest).dropWhile isLiteralChar = apostrophe :: rest := by
    rw [List.dropWhile_append_of_pos h, List.dropWhile_cons_of_neg (by simp [hmark])]
  have htake : (cs ++ apostrophe :: rest).takeWhile isLiteralChar = cs := by
    rw [List.takeWhile_append_of_pos h, List.takeWhile_cons_of_neg (by simp [hmark]), List.append_nil]
  rw [literalRest, hdrop, htake]
  exact if_pos rfl

/-- **What writes a text on one line**: a basic string or a literal one. -/
inductive StringText (s : String) : List Char → Prop
  | basic {w : List Char} (h : BasicText s.toList w) : StringText s (quote :: (w ++ [quote]))
  | literal (h : ∀ c ∈ s.toList, isLiteralChar c = true) :
    StringText s (apostrophe :: (s.toList ++ [apostrophe]))

/-- **A string is read back** where a string of one line may stand. -/
theorem lineText_stringText (h : StringText s w) (rest : Input) : lineText (w ++ rest) = .ok s rest := by
  cases h with
  | @basic w h =>
    have hread := basicRest_basicText h [] rest
    rw [List.reverse_nil, List.nil_append, String.ofList_toList] at hread
    rw [List.cons_append, List.append_assoc]
    exact hread
  | literal h =>
    have hread := literalRest_append h rest
    rw [String.ofList_toList] at hread
    rw [List.cons_append, List.append_assoc]
    exact hread

/-! ### Strings as values -/

/-- One quote, behind which two others do not stand, opens a string of one line. -/
theorem text_quote {r : Input} (h : ∀ r', r ≠ quote :: quote :: r') :
    text (quote :: r) = lineText (quote :: r) := by
  unfold text
  split
  · rename_i r' heq
    exact absurd (List.cons_eq_cons.mp heq).2 (h r')
  · rename_i heq
    rw [(List.cons_eq_cons.mp heq).2]
    rfl
  · rename_i heq
    exact absurd (List.cons_eq_cons.mp heq).1 (by decide)
  · rename_i heq
    exact absurd (List.cons_eq_cons.mp heq).1 (by decide)
  · rename_i hnone _ _
    exact absurd rfl (hnone r)

theorem text_apostrophe {r : Input} (h : ∀ r', r ≠ apostrophe :: apostrophe :: r') :
    text (apostrophe :: r) = lineText (apostrophe :: r) := by
  unfold text
  split
  · rename_i heq
    exact absurd (List.cons_eq_cons.mp heq).1 (by decide)
  · rename_i heq
    exact absurd (List.cons_eq_cons.mp heq).1 (by decide)
  · rename_i r' heq
    exact absurd (List.cons_eq_cons.mp heq).2 (h r')
  · rename_i heq
    rw [(List.cons_eq_cons.mp heq).2]
    rfl
  · rename_i hnone
    exact absurd rfl (hnone r)

/-- What stands between quotes does not begin with one. -/
theorem BasicText.head_ne (h : BasicText cs w) : ∀ c ∈ w.head?, c ≠ quote := by
  cases h with
  | nil => nofun
  | cons hc h =>
    cases hc with
    | plain hc =>
      rintro d ⟨⟩ rfl
      exact absurd hc (by decide)
    | short _ | code _ _ _ =>
      rintro d ⟨⟩
      decide

/-- Two quotes do not follow on the first one, if the string between does not begin with one and none stands
behind it. -/
theorem append_cons_ne {q : Char} (hw : ∀ c ∈ w.head?, c ≠ q) (hrest : ∀ c ∈ rest.head?, c ≠ q)
    (r' : List Char) : w ++ q :: rest ≠ q :: q :: r' := by
  intro h
  cases w with
  | nil =>
    rw [List.nil_append, List.cons_eq_cons] at h
    exact hrest q (by rw [h.2]; rfl) rfl
  | cons c w =>
    rw [List.cons_append, List.cons_eq_cons] at h
    exact hw c rfl h.1

/-- **A string of one line is read** up to what ends a value. -/
theorem text_stringText (h : StringText s w) (hrest : Ends rest) : text (w ++ rest) = .ok s rest := by
  rw [← lineText_stringText h rest]
  have hends {q : Char} (hq : q ∉ endMarks) : ∀ c ∈ rest.head?, c ≠ q := by
    rintro c hc rfl
    exact hq (hrest c hc)
  cases h with
  | @basic w h =>
    rw [List.cons_append, List.append_assoc]
    exact text_quote (append_cons_ne h.head_ne (hends (by decide)))
  | literal h =>
    have hhead : ∀ c ∈ s.toList.head?, c ≠ apostrophe := by
      rintro c hc rfl
      exact absurd (h _ (List.mem_of_mem_head? hc)) (by decide)
    rw [List.cons_append, List.append_assoc]
    exact text_apostrophe (append_cons_ne hhead (hends (by decide)))

theorem StringText.exists_cons (h : StringText s w) :
    ∃ c r, w = c :: r ∧ (c = quote ∨ c = apostrophe) := by
  cases h with
  | basic _ => exact ⟨_, _, rfl, Or.inl rfl⟩
  | literal _ => exact ⟨_, _, rfl, Or.inr rfl⟩

theorem value_quoted {q : Char} (hq : q = quote ∨ q = apostrophe) (depth : Nat) (r : Input) :
    value depth (q :: r) = placed (q :: r) .string (text (q :: r)) := by
  cases depth <;> exact if_pos hq

/-- An item is a string. -/
def IsString (s : String) (item : Item) : Prop :=
  ∃ span, item = .scalar (.string s) span

/-- **A string is read as its text** wherever it stands. -/
theorem readsAs_string (h : StringText s w) : ReadsAs 0 w (IsString s) := by
  obtain ⟨c, r, rfl, hc⟩ := h.exists_cons
  refine readsAs_of_value ⟨c, r, rfl, ?_⟩ fun depth _ rest hrest => ?_
  · rcases hc with rfl | rfl <;> decide
  · have hread := text_stringText h hrest
    rw [List.cons_append] at hread ⊢
    rw [value_quoted hc, hread]
    exact ⟨_, rfl, _, rfl⟩

/-! ### Texts as they are printed -/

/-- The control characters of ASCII are written with four digits. -/
theorem fourHex_spec : ∀ n < 128, (fourHex n).length = 4 ∧
    (fourHex n).all (fun d => (hexDigit? d).isSome) = true ∧ hexValue (fourHex n) = n := by
  decide +kernel

/-- A character that is neither a quote nor a backslash nor a control character stands for itself. -/
theorem isBasicChar_of_not_isControl (hquote : c ≠ quote) (hbackslash : c ≠ '\\')
    (hcontrol : isControl c = false) : isBasicChar c = true := by
  have hnumber {e : Char} (h : c ≠ e) : c.toNat ≠ e.toNat := fun heq => h (Char.toNat_inj.mp heq)
  have hq : c.toNat ≠ 0x22 := hnumber hquote
  have hb : c.toNat ≠ 0x5C := hnumber hbackslash
  by_cases htab : c = '\t'
  · rw [htab]
    decide
  · simp only [isControl, decide_eq_false_iff_not, not_or] at hcontrol
    have hlow : 0x20 ≤ c.toNat := Nat.le_of_not_lt fun h => hcontrol.1 ⟨h, htab⟩
    have hdelete := hcontrol.2
    simp only [isBasicChar, isSpace, isBeyondAscii, Bool.or_eq_true, decide_eq_true_eq,
      Bool.and_eq_true]
    by_cases hspace : c = ' '
    · simp [hspace]
    · have hne : c.toNat ≠ 0x20 := hnumber hspace
      omega

/-- **Each character as it is printed** is one of its spellings. -/
theorem charText_basicEscaped (c : Char) : CharText c (basicEscaped c) := by
  unfold basicEscaped
  split_ifs with h1 h2 h3 h4 h5 h6 h7 h8
  · rw [h1]
    exact .short (by decide)
  · rw [h2]
    exact .short (by decide)
  · rw [h3]
    exact .short (by decide)
  · rw [h4]
    exact .short (by decide)
  · rw [h5]
    exact .short (by decide)
  · rw [h6]
    exact .short (by decide)
  · rw [h7]
    exact .short (by decide)
  · -- a control character is one of the first 128
    have hsmall : c.toNat < 128 := by
      simp only [isControl, decide_eq_true_eq] at h8
      omega
    obtain ⟨hlength, hdigits, hvalue⟩ := fourHex_spec c.toNat hsmall
    have hmark : ('u', (fourHex c.toNat).length) ∈ codeEscapes := by
      rw [hlength]
      decide
    exact .code hmark (List.all_eq_true.mp hdigits) hvalue
  · exact .plain (isBasicChar_of_not_isControl h1 h2 (Bool.not_eq_true _ ▸ h8))

theorem basicText_flatMap (cs : List Char) : BasicText cs (cs.flatMap basicEscaped) := by
  induction cs with
  | nil => exact .nil
  | cons c cs ih =>
    rw [List.flatMap_cons]
    exact .cons (charText_basicEscaped c) ih

/-- **A text as it is printed** is one of its spellings. -/
theorem stringText_basicString (s : String) : StringText s (basicString s).toList := by
  rw [basicString, String.toList_ofList]
  exact .basic (basicText_flatMap s.toList)

/-- A text without special characters is one of its spellings, put in quotes. -/
theorem stringText_quoted (h : s.toList.all isBasicChar = true) :
    StringText s (quote :: (s.toList ++ [quote])) :=
  .basic (basicText_self (List.all_eq_true.mp h))

/-- So it is between apostrophes. -/
theorem stringText_literal (h : s.toList.all isLiteralChar = true) :
    StringText s (apostrophe :: (s.toList ++ [apostrophe])) :=
  .literal (List.all_eq_true.mp h)

end QualityGate.Toml
