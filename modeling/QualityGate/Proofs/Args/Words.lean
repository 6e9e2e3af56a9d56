import QualityGate.Proofs.Args.Token
/-!
## The words of a run

From the first argument on that is no option, everything belongs to the run.

* `readArgs_plain`: the first plain word ends the reading, and it and what follows are the words.
* `readArgs_awaited`: an option that waits for its value takes the next plain word instead.
* `parse_words`: a command line of texts is one run of exactly these words, unless it starts with a
  command, with the mark that ends the options or with an option; after that mark even those are
  words.

What may not stand first is said about texts (`LooksLikeOption`) and about any bytes (`IsOption`), without
the reader of options; that the reader knows no others is `isPlain_ofArg_iff`.
-/

namespace QualityGate.Args
open Text

variable {scope : Scope} {p : Progress}

/-- Reading goes on after an argument that was taken in. -/
theorem readArgs_of_step {q : Progress} {arg : Bytes} (hmark : Token.ofArg arg ≠ .endOfOptions)
    {rest : List Bytes} (hstep : step scope p arg rest = .ok (.inl q)) :
    readArgs scope p (arg :: rest) = readArgs scope q rest := by
  rw [readArgs, hstep]
  exact if_neg hmark

/-! ### Plain words -/

/-- **Whether an argument of some form is a word**, in a scope: it is no option there, and it does not
look like one unless such words are taken too. -/
def Token.isPlain (scope : Scope) : Token → Bool
  | endOfOptions => false
  | long name _ =>
    scope.takesAnything && (decode? name).any fun n => (scope.long? n).isNone
  | letters cs bad => scope.takesAnything && !allKnown scope cs bad
  | word => true

/-- A plain word is taken in as a word. -/
theorem step_plain {arg : Bytes} (hplain : (Token.ofArg arg).isPlain scope = true)
    (rest : List Bytes) : step scope p arg rest = stepWord scope p arg rest := by
  unfold step
  cases htoken : Token.ofArg arg with
  | endOfOptions => simp [htoken, Token.isPlain] at hplain
  | long name value =>
    simp only [htoken, Token.isPlain, Bool.and_eq_true, Option.any_eq_true_iff_get] at hplain
    obtain ⟨htakes, hsome, hlong⟩ := hplain
    obtain ⟨n, hn⟩ := Option.isSome_iff_exists.mp hsome
    simp only [hn, Option.get_some, Option.isNone_iff_eq_none] at hlong
    simp [hn, hlong, htakes]
  | letters cs bad =>
    rw [htoken] at hplain
    exact if_pos hplain
  | word => rfl

/-- **A plain word ends the reading**: it and all that follows are the words. -/
theorem readArgs_plain (htakes : scope.takesAnything = true) {arg : Bytes}
    (hplain : (Token.ofArg arg).isPlain scope = true) (hwait : ∀ s, p.pending ≠ .awaiting s)
    (rest : List Bytes) : readArgs scope p (arg :: rest) = finish scope p (arg :: rest) := by
  have hstep : stepWord scope p arg rest = .ok (.inr (arg :: rest)) := by
    unfold stepWord
    split
    · exact absurd ‹_› (hwait _)
    · rw [if_pos htakes]
  rw [readArgs, step_plain hplain, hstep]

/-- **An option that waits for its value takes a plain word.** -/
theorem readArgs_awaited {arg : Bytes} (hplain : (Token.ofArg arg).isPlain scope = true)
    {s : Switch} (hwait : p.pending = .awaiting s) (rest : List Bytes) :
    readArgs scope p (arg :: rest) = readArgs scope { p with pending := .value s arg } rest := by
  have hmark : Token.ofArg arg ≠ .endOfOptions := by
    intro h
    rw [h] at hplain
    cases hplain
  apply readArgs_of_step hmark
  rw [step_plain hplain, stepWord, hwait]

/-- The mark hands all that follows it over as words. -/
theorem readArgs_endOfOptions (htakes : scope.takesAnything = true) (rest : List Bytes) :
    readArgs scope p (bytes "--" :: rest) = finish scope p rest := by
  have hmark : Token.ofArg (bytes "--") = .endOfOptions := by decide +kernel
  rw [readArgs, step, hmark]
  simp [htakes]

/-! ### Arguments that look like options -/

/-- The long names of the options that are known before any command. -/
def longNames : List String :=
  ["verbose", "quiet", "color", "config", "help", "version"]

/-- **Whether a text looks like an option** before any command: two hyphens and one of the long names,
perhaps with a value, or one hyphen and only letters of options. -/
def LooksLikeOption (w : String) : Prop :=
  (∃ name ∈ longNames, w = "--" ++ name ∨ ∃ v, w = "--" ++ name ++ "=" ++ v) ∨
    ∃ letters ≠ [], w = "-" ++ String.ofList letters ∧ ∀ c ∈ letters, c ∈ ['v', 'q', 'h', 'V']

theorem long?_top_isSome (n : String) : (Scope.top.long? n).isSome = true ↔ n ∈ longNames := by
  rw [Scope.long?, List.find?_isSome]
  constructor
  · rintro ⟨s, hs, hname⟩
    have hall : ∀ s ∈ Scope.top.switches, s.long ∈ longNames := by decide
    rw [decide_eq_true_eq] at hname
    exact hname ▸ hall s hs
  · intro hn
    have hall : ∀ n ∈ longNames, ∃ s ∈ Scope.top.switches, decide (s.long = n) = true := by decide
    exact hall n hn

theorem short?_top_isSome (c : Char) :
    (Scope.top.short? c).isSome = true ↔ c ∈ ['v', 'q', 'h', 'V'] := by
  constructor
  · intro h
    rw [Scope.short?, List.find?_isSome] at h
    obtain ⟨s, hs, hletter⟩ := h
    rw [decide_eq_true_eq] at hletter
    have hall : ∀ s ∈ Scope.top.switches, s.short?.all (· ∈ ['v', 'q', 'h', 'V']) = true := by decide
    have hmem := hall s hs
    rw [hletter] at hmem
    exact of_decide_eq_true hmem
  · intro hc
    simp only [List.mem_cons, List.not_mem_nil, or_false] at hc
    rcases hc with rfl | rfl | rfl | rfl <;> decide

/-- A long name is plain if it is none of the options', whatever is attached to it. -/
theorem isPlain_long (n : List Char) (value : Option Bytes) :
    (Token.long (encode n) value).isPlain .top = true ↔ String.ofList n ∉ longNames := by
  rw [← long?_top_isSome, Token.isPlain, decode?_encode]
  simp [Scope.takesAnything]

/-- Letters are plain if one of them is none of the options'. -/
theorem isPlain_letters (cs : List Char) :
    (Token.letters cs []).isPlain .top = true ↔ ¬ ∀ c ∈ cs, c ∈ ['v', 'q', 'h', 'V'] := by
  simp only [← short?_top_isSome]
  simp [Token.isPlain, Scope.takesAnything, allKnown]

/-- The bytes of a long name with a value attached. -/
theorem encode_attached (n v : List Char) :
    encode ('-' :: '-' :: (n ++ '=' :: v)) = encode ('-' :: '-' :: n) ++ equals :: encode v := by
  rw [← List.cons_append, ← List.cons_append, encode_append]
  rfl

/-- **Whether an argument is an option** that is recognised before any command: two hyphens and one of the
long names, perhaps with a value, or one hyphen and only letters of options. -/
def IsOption (arg : Bytes) : Prop :=
  (∃ name ∈ longNames, ∃ value, arg = bytes ("--" ++ name) ++ attachedValue value) ∨
    ∃ letters ≠ [], arg = bytes ("-" ++ String.ofList letters) ∧
      ∀ c ∈ letters, c ∈ ['v', 'q', 'h', 'V']

/-- A text that looks like an option is one. -/
theorem isOption_of_looksLikeOption {w : String} (h : LooksLikeOption w) : IsOption (bytes w) := by
  rcases h with ⟨name, hname, rfl | ⟨v, rfl⟩⟩ | ⟨letters, hne, rfl, hall⟩
  · exact Or.inl ⟨name, hname, none, (List.append_nil _).symm⟩
  · refine Or.inl ⟨name, hname, some (bytes v), ?_⟩
    have hchars : ("--" ++ name ++ "=" ++ v).toList = ("--" ++ name).toList ++ '=' :: v.toList := by
      simp
    rw [bytes, hchars, encode_append]
    rfl
  · exact Or.inr ⟨letters, hne, rfl, hall⟩

/-- An option is not plain. -/
theorem isPlain_of_isOption {arg : Bytes} (h : IsOption arg) :
    (Token.ofArg arg).isPlain .top = false := by
  rw [← Bool.not_eq_true]
  rcases h with ⟨name, hname, value, rfl⟩ | ⟨letters, hne, rfl, hall⟩
  · have hnames : ∀ name ∈ longNames, name.toList ≠ [] ∧ '=' ∉ name.toList := by decide
    obtain ⟨hne, hmark⟩ := hnames name hname
    have hbytes : bytes ("--" ++ name) = encode ('-' :: '-' :: name.toList) := by simp [bytes]
    have htoken : Token.ofArg (bytes ("--" ++ name) ++ attachedValue value) =
        .long (encode name.toList) value := by
      rw [hbytes]
      cases value with
      | none => rw [attachedValue, List.append_nil, Token.ofArg_long hne hmark]
      | some v => exact Token.ofArg_attached hmark v
    rw [htoken, isPlain_long, String.ofList_toList]
    exact fun h => h hname
  · obtain ⟨c, s, rfl⟩ := List.exists_cons_of_ne_nil hne
    -- with a hyphen for its first letter the cluster would be a long name
    have hc : c ≠ '-' := by
      rintro rfl
      have : '-' ∉ ['v', 'q', 'h', 'V'] := by decide
      exact this (hall '-' (List.mem_cons_self ..))
    have hbytes : bytes ("-" ++ String.ofList (c :: s)) = encode ('-' :: c :: s) := by simp [bytes]
    rw [hbytes, Token.ofArg_letters hc, isPlain_letters]
    exact fun h => h hall

/-- A text that does not look like an option is plain. -/
theorem isPlain_ofArg {w : String} (hmark : w ≠ "--") (hoption : ¬ LooksLikeOption w) :
    (Token.ofArg (bytes w)).isPlain .top = true := by
  obtain ⟨cs, rfl⟩ : ∃ cs, w = String.ofList cs := ⟨w.toList, String.ofList_toList.symm⟩
  rw [bytes, String.toList_ofList]
  -- The cases are those of the reader: the hyphens in front, and the sign after the name.
  cases cs with
  | nil => rfl
  | cons c s =>
    by_cases hc : c = '-'
    · subst hc
      cases s with
      | nil => rfl
      | cons d name =>
        by_cases hd : d = '-'
        · subst hd
          have hfront (name : List Char) :
              String.ofList ('-' :: '-' :: name) = "--" ++ String.ofList name := by
            simp [← String.toList_inj]
          rw [hfront] at hmark hoption
          by_cases heq : '=' ∈ name
          · obtain ⟨n, v, rfl, hn⟩ := List.eq_append_cons_of_mem heq
            rw [encode_attached, Token.ofArg_attached hn, isPlain_long]
            refine fun h => hoption (.inl ⟨_, h, .inr ⟨String.ofList v, ?_⟩⟩)
            simp [← String.toList_inj]
          · have hne : name ≠ [] := by
              rintro rfl
              exact hmark rfl
            rw [Token.ofArg_long hne heq, isPlain_long]
            exact fun h => hoption (.inl ⟨_, h, .inl rfl⟩)
        · rw [Token.ofArg_letters hd, isPlain_letters]
          refine fun h => hoption (.inr ⟨d :: name, by simp, ?_, h⟩)
          simp
    · rw [Token.ofArg_encode_cons hc]
      rfl

/-- **The plain texts are all but the end mark and those that look like options.** -/
theorem isPlain_ofArg_iff (w : String) :
    (Token.ofArg (bytes w)).isPlain .top = true ↔ w ≠ "--" ∧ ¬ LooksLikeOption w := by
  constructor
  · intro hplain
    refine ⟨?_, fun h => ?_⟩
    · rintro rfl
      have hmark : (Token.ofArg (bytes "--")).isPlain .top = false := by decide +kernel
      rw [hmark] at hplain
      cases hplain
    · rw [isPlain_of_isOption (isOption_of_looksLikeOption h)] at hplain
      cases hplain
  · rintro ⟨hmark, hoption⟩
    exact isPlain_ofArg hmark hoption

/-! ### Command lines of texts -/

theorem mapM_decode?_bytes (ws : List String) : (ws.map bytes).mapM decode? = some ws := by
  induction ws with
  | nil => rfl
  | cons w ws ih => simp [List.mapM_cons, ih]

/-- The request of a run before any command, of which nothing but the words was given. -/
theorem requestOf_words (ws : List String) :
    requestOf .top ⟨[], ws.map bytes⟩ = .ok { run := ⟨ws⟩ } := by
  have hargs : runArgsOf .top (ws.map bytes) = .ok ⟨ws⟩ := by rw [runArgsOf, mapM_decode?_bytes]
  simp [requestOf, commandOf, hargs, colourOf, configOf, Except.map]

/-- What is neither a command's word nor the one for help names no topic. -/
theorem topicOf?_eq_none {w : Bytes} (hhelp : bytes helpWord ≠ w)
    (hcommand : ∀ s ∈ Scope.commands, bytes s.word ≠ w) : topicOf? w = none := by
  have hnone : (Scope.commands.find? fun s => bytes s.word = w) = none := by
    rw [List.find?_eq_none]
    intro s hs hword
    exact hcommand s hs (of_decide_eq_true hword)
  rw [topicOf?, if_neg hhelp, hnone]
  rfl

/-- The words that select a command. -/
def commandWords : List String :=
  ["run", "list", "init", "validate", "completions", "help"]

/-- Other arguments select none. -/
theorem topicOf?_of_not_mem {x : Bytes} (h : x ∉ commandWords.map bytes) : topicOf? x = none := by
  have hwords : ∀ s ∈ Scope.commands, s.word ∈ commandWords := by decide
  have hhelp : helpWord ∈ commandWords := by decide
  apply topicOf?_eq_none
  · rintro rfl
    exact h (List.mem_map_of_mem hhelp)
  · rintro s hs rfl
    exact h (List.mem_map_of_mem (hwords s hs))

/-- Where the first argument selects no command, everything is read in the scope before any command. -/
theorem parse_of_not_command {xs : List Bytes} (h : ∀ x ∈ xs.head?, x ∉ commandWords.map bytes) :
    parse xs = parseScope .top xs := by
  cases xs with
  | nil => rfl
  | cons x rest => rw [parse, topicOf?_of_not_mem (h x rfl)]

/-- Other words select none. -/
theorem topicOf?_bytes {w : String} (h : w ∉ commandWords) : topicOf? (bytes w) = none := by
  apply topicOf?_of_not_mem
  rw [List.mem_map]
  rintro ⟨v, hv, hbytes⟩
  exact h (bytes_inj.mp hbytes ▸ hv)

/-- **A command line of texts is one run of exactly these words**, unless it starts with a command, with
the mark that ends the options or with an option. After that mark it is one of all the words that
follow, whatever they are. Only the first word selects the mode, and the others have no effect. -/
theorem parse_words (first : String) (rest : List String) :
    (first ∉ commandWords → first ≠ "--" → ¬ LooksLikeOption first →
      parse ((first :: rest).map bytes) =
          .ok { command := none, run := ⟨first :: rest⟩, verbose := false, quiet := false,
                colour := .auto, config := none } ∧
        ((⟨first :: rest⟩ : RunArgs).mode = .check ↔ first = "--check") ∧
        (⟨first :: rest⟩ : RunArgs).ignored = rest) ∧
    parse (("--" :: rest).map bytes) =
        .ok { command := none, run := ⟨rest⟩, verbose := false, quiet := false,
              colour := .auto, config := none } ∧
      ((⟨rest⟩ : RunArgs).mode = .check ↔ rest.head? = some "--check") ∧
      (⟨rest⟩ : RunArgs).ignored = rest.tail := by
  refine ⟨?_, ?_, ?_, ?_⟩
  · intro hcommand hmark hoption
    refine ⟨?_, ?_, rfl⟩
    · have hplain := (isPlain_ofArg_iff first).mpr ⟨hmark, hoption⟩
      have hwait (s : Switch) : ({} : Progress).pending ≠ .awaiting s := by
        intro h
        cases h
      rw [List.map_cons, parse, topicOf?_bytes hcommand, parseScope, readArgs_plain rfl hplain hwait]
      exact requestOf_words (first :: rest)
    · rw [RunArgs.mode, Mode.ofFirstArg_eq_check_iff, List.head?_cons, Option.some.injEq]
      rfl
  · -- the mark is no command, and all behind it is left as it stands
    have hmark : topicOf? (bytes "--") = none := topicOf?_bytes (by decide)
    rw [List.map_cons, parse, hmark, parseScope, readArgs_endOfOptions rfl]
    exact requestOf_words rest
  · exact Mode.ofFirstArg_eq_check_iff _
  · exact List.drop_one

/-- Neither options nor commands after the first word are taken as such. -/
theorem parse_words_check :
    parse (["--check", "--help", "list", "--config", "--", "-v"].map bytes) =
      .ok { run := ⟨["--check", "--help", "list", "--config", "--", "-v"]⟩ } := by
  have hoption : ¬ LooksLikeOption "--check" :=
    ((isPlain_ofArg_iff "--check").mp (by decide +kernel)).2
  exact ((parse_words "--check" ["--help", "list", "--config", "--", "-v"]).1 (by decide)
    (by decide) hoption).1

end QualityGate.Args
