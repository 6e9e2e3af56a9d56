import QualityGate.Proofs.Args.Words
/-!
## Options and their spellings

What is given by options can be written in several ways: a flag by its long name or by its letter, letters
alone or in clusters, a value attached to the name of its option or as an argument of its own. `Spelled`
relates what is given to the arguments that are written for it.

* `readArgs_spelled`: different options are read one after the other, in every scope and spelling. What
  is kept up on the way is `HasGiven`: taking in what still waits leaves exactly the options so far.
* `parse_spelled_plain`: before a plain word they change the request, and that word and all that follow
  are words of a run.
-/

namespace QualityGate.Args
open Text

variable {scope : Scope} {p q : Progress}

/-! ### Spellings -/

/-- A value, attached to the name of its option or after it. -/
def withValue (option : String) (value : Bytes) (attached : Bool) : List Bytes :=
  if attached then [bytes option ++ equals :: value] else [bytes option, value]

/-- **The flags of a scope**: its options without a value that do not end the reading. -/
def Scope.flags (scope : Scope) : List Switch :=
  scope.switches.filter fun s => !s.takesValue && s != .help && s != .version

/-- **The arguments that are written for what is given.** A value that is an argument of its own is not
taken for an option itself. -/
inductive Spelled (scope : Scope) : List Given → List Bytes → Prop
  | nil : Spelled scope [] []
  /-- A flag by its long name. -/
  | long {s : Switch} (hs : s ∈ scope.flags) {gs : List Given} {args : List Bytes}
      (h : Spelled scope gs args) : Spelled scope (.flag s :: gs) (bytes ("--" ++ s.long) :: args)
  /-- Flags by their letters, in one argument. -/
  | letters {cluster : List Switch} (hne : cluster ≠ [])
      (hcluster : ∀ s ∈ cluster, s ∈ scope.flags ∧ s.short?.isSome = true) {gs : List Given}
      {args : List Bytes} (h : Spelled scope gs args) :
    Spelled scope (cluster.map Given.flag ++ gs)
      (bytes ("-" ++ String.ofList (cluster.filterMap Switch.short?)) :: args)
  | colour (choice : ColourChoice) (attached : Bool) {gs : List Given} {args : List Bytes}
      (h : Spelled scope gs args) :
    Spelled scope (.colour choice :: gs) (withValue "--color" (bytes choice.word) attached ++ args)
  | config {path : Bytes} (hne : path ≠ []) (attached : Bool)
      (hplain : attached = false → (Token.ofArg path).isPlain scope = true) {gs : List Given}
      {args : List Bytes} (h : Spelled scope gs args) :
    Spelled scope (.config path :: gs) (withValue "--config" path attached ++ args)

theorem bytes_hyphen_append (s : String) : bytes ("-" ++ s) = hyphen :: bytes s := by
  have hchars : ("-" ++ s).toList = '-' :: s.toList := by simp
  rw [bytes, hchars, Token.encode_hyphen_cons]
  rfl

theorem bytes_hyphens_append (s : String) : bytes ("--" ++ s) = hyphen :: bytes ("-" ++ s) := by
  have hchars : "--" ++ s = "-" ++ ("-" ++ s) := by rw [← String.append_assoc]; rfl
  rw [hchars, bytes_hyphen_append]

/-- What is written for options starts with a hyphen. -/
theorem Spelled.eq_nil_or_hyphen {gs : List Given} {args : List Bytes} (h : Spelled scope gs args) :
    (gs = [] ∧ args = []) ∨ ∃ t more, args = (hyphen :: t) :: more := by
  cases h with
  | nil => exact Or.inl ⟨rfl, rfl⟩
  | long => exact Or.inr ⟨_, _, by rw [bytes_hyphens_append]⟩
  | letters => exact Or.inr ⟨_, _, by rw [bytes_hyphen_append]⟩
  | colour choice attached => cases attached <;> exact Or.inr ⟨_, _, rfl⟩
  | config hne attached => cases attached <;> exact Or.inr ⟨_, _, rfl⟩

/-! ### Options of a scope -/

theorem long?_of_mem {s : Switch} (h : s ∈ scope.switches) : scope.long? s.long = some s := by
  have hall : ∀ s ∈ scope.switches, scope.long? s.long = some s := by cases scope <;> decide
  exact hall s h

theorem short?_of_mem {s : Switch} (h : s ∈ scope.switches) {c : Char} (hc : s.short? = some c) :
    scope.short? c = some s := by
  have hall : ∀ s ∈ scope.switches, s.short?.all fun c => scope.short? c = some s := by
    cases scope <;> decide
  have hs := hall s h
  rw [hc] at hs
  exact of_decide_eq_true hs

theorem mem_flags {s : Switch} (h : s ∈ scope.flags) :
    s ∈ scope.switches ∧ s.takesValue = false ∧ s ≠ .help ∧ s ≠ .version := by
  simpa [Scope.flags, and_assoc] using h

theorem ofArg_longName (s : Switch) : Token.ofArg (bytes ("--" ++ s.long)) = .long (bytes s.long) none := by
  cases s <;> decide +kernel

theorem short?_ne_hyphen {s : Switch} {c : Char} (h : s.short? = some c) : c ≠ '-' := by
  have hall : s.short?.all (· ≠ '-') = true := by cases s <;> decide
  rw [h] at hall
  exact of_decide_eq_true hall

/-- The letters of flags are read as such, and each is known. -/
theorem ofArg_cluster {cluster : List Switch} (hne : cluster ≠ [])
    (hcluster : ∀ s ∈ cluster, s ∈ scope.flags ∧ s.short?.isSome = true) :
    Token.ofArg (bytes ("-" ++ String.ofList (cluster.filterMap Switch.short?))) =
        .letters (cluster.filterMap Switch.short?) [] ∧
      allKnown scope (cluster.filterMap Switch.short?) [] = true := by
  obtain ⟨s, more, rfl⟩ := List.exists_cons_of_ne_nil hne
  obtain ⟨c, hc⟩ := Option.isSome_iff_exists.mp (hcluster s (List.mem_cons_self ..)).2
  have hletters : (s :: more).filterMap Switch.short? = c :: more.filterMap Switch.short? :=
    List.filterMap_cons_some hc
  have hbytes : bytes ("-" ++ String.ofList ((s :: more).filterMap Switch.short?)) =
      encode ('-' :: c :: more.filterMap Switch.short?) := by
    rw [hletters]
    simp [bytes]
  refine ⟨?_, ?_⟩
  · rw [hbytes, hletters]
    exact Token.ofArg_letters (short?_ne_hyphen hc) _
  · -- with a letter that is not known the cluster would be a word
    rw [allKnown, Bool.and_eq_true, List.all_eq_true]
    refine ⟨rfl, fun d hd => ?_⟩
    obtain ⟨t, ht, hletter⟩ := List.mem_filterMap.mp hd
    rw [short?_of_mem (mem_flags (hcluster t ht).1).1 hletter]
    rfl

/-! ### Taking in -/

theorem take_fresh (scope : Scope) {s : Switch} (h : p.has s = false) (g : Given) :
    p.take scope s g = .ok { p with given := p.given ++ [g], pending := .nothing } := by
  rw [Progress.take, h]
  rfl

theorem readArgs_long {arg : Bytes} {name : String} {value : Option Bytes} {s : Switch}
    (htoken : Token.ofArg arg = .long (bytes name) value) (hs : scope.long? name = some s)
    (htake : takeLong scope p s value = .ok q) (rest : List Bytes) :
    readArgs scope p (arg :: rest) = readArgs scope q rest := by
  apply readArgs_of_step
  · rw [htoken]
    intro h
    cases h
  · rw [step, htoken]
    simp [hs, htake, Except.map]

theorem readArgs_letters {arg : Bytes} {cs : List Char} (htoken : Token.ofArg arg = .letters cs [])
    (hknown : allKnown scope cs [] = true) (htake : takeLetters scope p [] cs = .ok q)
    (rest : List Bytes) : readArgs scope p (arg :: rest) = readArgs scope q rest := by
  apply readArgs_of_step
  · rw [htoken]
    intro h
    cases h
  · rw [step, htoken]
    simp [hknown, htake, Except.map]

/-- **Reading has come through what was given**: taking in what still waits leaves exactly that. -/
def HasGiven (scope : Scope) (p : Progress) (gs : List Given) : Prop :=
  resolve scope p = .ok { given := gs }

/-- Different options, of which one is in the middle, do not have it in front. -/
theorem not_mem_of_nodup {gs more : List Given} {g : Given} {s : Switch} (hg : g.switch? = some s)
    (h : ((gs ++ g :: more).map Given.switch?).Nodup) : some s ∉ gs.map Given.switch? := by
  rw [List.map_append, List.nodup_append] at h
  intro hmem
  exact h.2.2 _ hmem _ (List.mem_map_of_mem (List.mem_cons_self ..)) hg.symm

namespace HasGiven

variable {gs : List Given} {s : Switch}

theorem start : HasGiven scope {} [] := rfl

/-- No option waits for a value that has not come. -/
theorem not_awaiting (h : HasGiven scope p gs) (s : Switch) : p.pending ≠ .awaiting s := by
  intro hwait
  rw [HasGiven, resolve, hwait] at h
  cases h

theorem finish (h : HasGiven scope p gs) (words : List Bytes) :
    Args.finish scope p words = .ok ⟨gs, words⟩ := by
  rw [Args.finish, h]

theorem has_eq_false (hnew : some s ∉ gs.map Given.switch?) :
    ({ given := gs } : Progress).has s = false := by
  rw [Progress.has, List.any_eq_false]
  intro g hg
  have hne : g.switch? ≠ some s := fun h => hnew (h ▸ List.mem_map_of_mem hg)
  simpa using hne

theorem takeFlag (h : HasGiven scope p gs) (hs : s ∈ scope.flags)
    (hnew : some s ∉ gs.map Given.switch?) (long : Bool) :
    Args.takeFlag scope p s long = .ok { given := gs ++ [.flag s] } := by
  obtain ⟨-, -, hhelp, hversion⟩ := mem_flags hs
  have htake := take_fresh scope (has_eq_false hnew) (.flag s)
  rw [HasGiven] at h
  cases s with
  | help => exact absurd rfl hhelp
  | version => exact absurd rfl hversion
  | _ =>
    rw [Args.takeFlag, h]
    exact htake

theorem long (h : HasGiven scope p gs) (hs : s ∈ scope.flags)
    (hnew : some s ∉ gs.map Given.switch?) (rest : List Bytes) :
    readArgs scope p (bytes ("--" ++ s.long) :: rest) =
      readArgs scope { given := gs ++ [.flag s] } rest := by
  obtain ⟨hmem, hvalue, -, -⟩ := mem_flags hs
  apply readArgs_long (ofArg_longName s) (long?_of_mem hmem)
  rw [takeLong, if_neg (by rw [hvalue]; decide)]
  exact h.takeFlag hs hnew true

/-- **The letters of different flags are taken in**, one after the other. -/
theorem takeLetters (h : HasGiven scope p gs) {cluster : List Switch}
    (hcluster : ∀ s ∈ cluster, s ∈ scope.flags ∧ s.short?.isSome = true)
    (hdistinct : ((gs ++ cluster.map Given.flag).map Given.switch?).Nodup) :
    ∃ q, Args.takeLetters scope p [] (cluster.filterMap Switch.short?) = .ok q ∧
      HasGiven scope q (gs ++ cluster.map Given.flag) := by
  induction cluster generalizing p gs with
  | nil => exact ⟨p, rfl, by simpa using h⟩
  | cons s cluster ih =>
    obtain ⟨⟨hs, hletter⟩, hcluster⟩ := List.forall_mem_cons.mp hcluster
    obtain ⟨c, hc⟩ := Option.isSome_iff_exists.mp hletter
    have hshort := short?_of_mem (mem_flags hs).1 hc
    have hflag := h.takeFlag hs (not_mem_of_nodup rfl hdistinct) false
    have hnext : HasGiven scope { given := gs ++ [.flag s] } (gs ++ [.flag s]) := rfl
    rw [List.map_cons, List.append_cons] at hdistinct ⊢
    obtain ⟨q, htake, hq⟩ := ih hnext hcluster hdistinct
    refine ⟨q, ?_, hq⟩
    rw [List.filterMap_cons_some hc, Args.takeLetters, hshort]
    simp only [hflag, htake]

theorem letters (h : HasGiven scope p gs) {cluster : List Switch} (hne : cluster ≠ [])
    (hcluster : ∀ s ∈ cluster, s ∈ scope.flags ∧ s.short?.isSome = true)
    (hdistinct : ((gs ++ cluster.map Given.flag).map Given.switch?).Nodup) :
    ∃ q, HasGiven scope q (gs ++ cluster.map Given.flag) ∧ ∀ rest,
      readArgs scope p (bytes ("-" ++ String.ofList (cluster.filterMap Switch.short?)) :: rest) =
        readArgs scope q rest := by
  obtain ⟨q, htake, hq⟩ := h.takeLetters hcluster hdistinct
  obtain ⟨htoken, hknown⟩ := ofArg_cluster hne hcluster
  exact ⟨q, hq, fun rest => readArgs_letters htoken hknown htake rest⟩

theorem takeValue (scope : Scope) (hnew : some s ∉ gs.map Given.switch?) {v : Bytes} {g : Given}
    (hvalue : readValue s v = .ok g) :
    Args.takeValue scope { given := gs } s v = .ok { given := gs ++ [g] } := by
  have hhas := has_eq_false hnew
  rw [Args.takeValue, hhas, hvalue]
  exact take_fresh scope hhas g

/-- **A value is read** when it is attached to the name, or when it follows and is a plain word. -/
theorem value (h : HasGiven scope p gs) (hs : s = .colour ∨ s = .config)
    (hnew : some s ∉ gs.map Given.switch?) {v : Bytes} {g : Given} (hvalue : readValue s v = .ok g)
    (attached : Bool) (hplain : attached = false → (Token.ofArg v).isPlain scope = true) :
    ∃ q, HasGiven scope q (gs ++ [g]) ∧
      ∀ rest, readArgs scope p (withValue ("--" ++ s.long) v attached ++ rest) =
        readArgs scope q rest := by
  have hlong : scope.long? s.long = some s := by
    rcases hs with rfl | rfl <;> cases scope <;> decide
  have htakes : s.takesValue = true := by rcases hs with rfl | rfl <;> rfl
  have htaken := takeValue scope hnew hvalue
  cases attached with
  | true =>
    refine ⟨{ given := gs ++ [g] }, rfl, fun rest => ?_⟩
    have hbytes : bytes ("--" ++ s.long) = encode ('-' :: '-' :: s.long.toList) := by simp [bytes]
    have hmark : '=' ∉ s.long.toList := by rcases hs with rfl | rfl <;> decide
    apply readArgs_long (by rw [hbytes]; exact Token.ofArg_attached hmark v) hlong
    rw [takeLong, if_pos htakes, h]
    exact htaken
  | false =>
    -- on its own, the value waits until something else is read
    refine ⟨{ given := gs, pending := .value s v }, htaken, fun rest => ?_⟩
    have hwait : takeLong scope p s none = .ok { given := gs, pending := .awaiting s } := by
      rw [takeLong, if_pos htakes, h]
    have hname := readArgs_long (ofArg_longName s) hlong hwait (v :: rest)
    exact hname.trans (readArgs_awaited (hplain rfl) rfl rest)

end HasGiven

/-! ### Reading all that is given -/

theorem readValue_word (choice : ColourChoice) :
    readValue .colour (bytes choice.word) = .ok (.colour choice) := by
  cases choice <;> rfl

/-- **Different options are read one after the other**, however they are written. -/
theorem readArgs_spelled {gs : List Given} {args : List Bytes} (h : Spelled scope gs args)
    {before : List Given} (hp : HasGiven scope p before)
    (hdistinct : ((before ++ gs).map Given.switch?).Nodup) :
    ∃ q, HasGiven scope q (before ++ gs) ∧
      ∀ rest, readArgs scope p (args ++ rest) = readArgs scope q rest := by
  -- What was given so far grows with each argument, so the invariant is carried for any `before`.
  induction h generalizing p before with
  | nil => exact ⟨p, by rwa [List.append_nil], fun _ => rfl⟩
  | @long s hs gs args _ ih =>
    have hnew := not_mem_of_nodup rfl hdistinct
    rw [List.append_cons] at hdistinct ⊢
    obtain ⟨q, hq, hmore⟩ := ih (p := { given := before ++ [.flag s] }) rfl hdistinct
    exact ⟨q, hq, fun rest => by rw [List.cons_append, hp.long hs hnew, hmore]⟩
  | letters hne hcluster _ ih =>
    rw [← List.append_assoc] at hdistinct ⊢
    have hfront := hdistinct
    rw [List.map_append, List.nodup_append] at hfront
    obtain ⟨q, hq, hone⟩ := hp.letters hne hcluster hfront.1
    obtain ⟨r, hr, hmore⟩ := ih hq hdistinct
    exact ⟨r, hr, fun rest => by rw [List.cons_append, hone, hmore]⟩
  | colour choice attached _ ih =>
    have hnew := not_mem_of_nodup (s := .colour) rfl hdistinct
    rw [List.append_cons] at hdistinct ⊢
    obtain ⟨q, hq, hone⟩ := hp.value (Or.inl rfl) hnew (readValue_word choice) attached
      fun _ => by cases choice <;> rfl
    obtain ⟨r, hr, hmore⟩ := ih hq hdistinct
    exact ⟨r, hr, fun rest => by rw [List.append_assoc, ← hmore]; exact hone _⟩
  | config hne attached hplain _ ih =>
    have hnew := not_mem_of_nodup (s := .config) rfl hdistinct
    rw [List.append_cons] at hdistinct ⊢
    obtain ⟨q, hq, hone⟩ := hp.value (Or.inr rfl) hnew (if_neg hne) attached hplain
    obtain ⟨r, hr, hmore⟩ := ih hq hdistinct
    exact ⟨r, hr, fun rest => by rw [List.append_assoc, ← hmore]; exact hone _⟩

theorem readArgs_front {gs : List Given} {args : List Bytes} (h : Spelled scope gs args)
    (hdistinct : (gs.map Given.switch?).Nodup) :
    ∃ q, HasGiven scope q gs ∧
      ∀ rest, readArgs scope {} (args ++ rest) = readArgs scope q rest := by
  have hstart : HasGiven scope {} [] := HasGiven.start
  simpa using readArgs_spelled h hstart (by simpa using hdistinct)

/-! ### Requests with options -/

/-- The request of a run from what was given before any command. -/
def runRequest (args : RunArgs) (given : List Given) : Request :=
  { command := none
    run := args
    verbose := given.contains (.flag .verbose)
    quiet := given.contains (.flag .quiet)
    colour := colourOf given
    config := configOf given }

theorem requestOf_top (given : List Given) (words : List Bytes) :
    requestOf .top ⟨given, words⟩ = (runArgsOf .top words).map fun args => runRequest args given :=
  rfl

theorem hyphen_cons_not_command (t : Bytes) : hyphen :: t ∉ commandWords.map bytes := by
  have hwords : ∀ w ∈ commandWords, (bytes w).head? ≠ some hyphen := by decide
  rw [List.mem_map]
  rintro ⟨w, hw, h⟩
  exact hwords w hw (by rw [h]; rfl)

/-- Behind options no command is selected. -/
theorem parse_spelled {gs : List Given} {args rest : List Bytes} (h : Spelled .top gs args)
    (hrest : gs = [] → ∀ x ∈ rest.head?, x ∉ commandWords.map bytes) :
    parse (args ++ rest) = parseScope .top (args ++ rest) := by
  apply parse_of_not_command
  rcases h.eq_nil_or_hyphen with ⟨hnil, rfl⟩ | ⟨t, more, rfl⟩
  · exact hrest hnil
  · rintro x ⟨⟩
    exact hyphen_cons_not_command t

/-- **Options before a plain word**: all from that word on are words of the run. -/
theorem parse_spelled_plain {gs : List Given} {args : List Bytes} (h : Spelled .top gs args)
    (hne : gs ≠ []) (hdistinct : (gs.map Given.switch?).Nodup) {arg : Bytes}
    (hplain : (Token.ofArg arg).isPlain .top = true) (rest : List Bytes) :
    parse (args ++ arg :: rest) =
      (runArgsOf .top (arg :: rest)).map fun words => runRequest words gs := by
  obtain ⟨q, hq, hread⟩ := readArgs_front h hdistinct
  rw [parse_spelled h fun hnil => absurd hnil hne, parseScope, hread,
    readArgs_plain rfl hplain hq.not_awaiting, hq.finish]
  exact requestOf_top gs _

end QualityGate.Args
