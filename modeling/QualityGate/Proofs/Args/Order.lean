import QualityGate.Proofs.Args.Explicit
/-!
## Options in any order

What different options come to depends neither on their order nor on the way in which they are written.

* `runRequest_of_perm`: a request does not depend on the order of what is given.
* `readArgs_tail`: behind options in front everything from the first argument on that is no option
  belongs to the run.
* `parse_any_order`: before the words of a run and after a command, any order and spelling of the same
  options gives the same request.

An argument behind the options need not be text (`isPlain_or_unreadable`).
-/

namespace QualityGate.Args
open Text

variable {p q : Progress} {gs gs' : List Given}

/-! ### What is given in any order -/

/-- The one thing given that answers a question is found in any order. -/
theorem findSome?_of_perm {α : Type} {f : Given → Option α} {s : Switch}
    (hf : ∀ g, (f g).isSome = true → g.switch? = some s) (hperm : gs.Perm gs')
    (hdistinct : (gs.map Given.switch?).Nodup) : gs.findSome? f = gs'.findSome? f := by
  induction hperm with
  | nil => rfl
  | cons g _ ih =>
    rw [List.map_cons, List.nodup_cons] at hdistinct
    rw [List.findSome?_cons, List.findSome?_cons, ih hdistinct.2]
  | swap g h l =>
    -- only one of the two can answer, for the answers stand for the same option
    have hone : f g = none ∨ f h = none := by
      refine Decidable.byContradiction fun hboth => ?_
      rw [not_or, ← ne_eq, ← ne_eq, Option.ne_none_iff_isSome, Option.ne_none_iff_isSome] at hboth
      have hsame : h.switch? = g.switch? := (hf h hboth.2).trans (hf g hboth.1).symm
      simp [hsame] at hdistinct
    rcases hone with hnone | hnone <;> simp [List.findSome?_cons, hnone]
  | trans hfirst _ ih ih' => exact (ih hdistinct).trans (ih' ((hfirst.map _).nodup_iff.mp hdistinct))

/-- **A request does not depend on the order of what is given.** -/
theorem runRequest_of_perm (args : RunArgs) (hperm : gs.Perm gs')
    (hdistinct : (gs.map Given.switch?).Nodup) : runRequest args gs' = runRequest args gs := by
  have hcolour : colourOf gs = colourOf gs' := by
    refine congrArg (Option.getD · _) (findSome?_of_perm (s := .colour) ?_ hperm hdistinct)
    rintro g hg
    cases g with
    | colour choice => rfl
    | _ => cases hg
  have hconfig : configOf gs = configOf gs' := by
    refine findSome?_of_perm (s := .config) ?_ hperm hdistinct
    rintro g hg
    cases g with
    | config path => rfl
    | _ => cases hg
  simp [runRequest, hcolour, hconfig, hperm.mem_iff]

/-! ### The first argument that is no option -/

/-- **Whether an argument is a long name that is no text**, which is no word of a run either. -/
def Unreadable (arg : Bytes) : Prop :=
  ∃ name value, Token.ofArg arg = .long name value ∧ decode? name = none

/-- **What is neither an option nor the end mark is a word**, but for a long name that is no text. -/
theorem isPlain_or_unreadable {arg : Bytes} (hmark : arg ≠ bytes "--") (h : ¬IsOption arg) :
    (Token.ofArg arg).isPlain .top = true ∨ Unreadable arg := by
  cases htoken : Token.ofArg arg with
  | endOfOptions => exact absurd (Token.eq_of_ofArg_endOfOptions htoken) hmark
  | word => exact Or.inl rfl
  | long name value =>
    cases hname : decode? name with
    | none => exact Or.inr ⟨name, value, htoken, hname⟩
    | some n =>
      rw [decode?_eq_some_iff] at hname
      -- a name that is known would make an option of the argument
      have hunknown : String.ofList n.toList ∉ longNames := by
        rw [String.ofList_toList]
        intro hn
        refine h (Or.inl ⟨n, hn, value, ?_⟩)
        rw [Token.eq_of_ofArg_long htoken, hname, bytes_hyphens_append, bytes_hyphen_append]
        rfl
      rw [hname]
      exact Or.inl ((isPlain_long n.toList value).mpr hunknown)
  | letters cs bad =>
    obtain ⟨hbytes, hne⟩ := Token.eq_of_ofArg_letters htoken
    cases hknown : allKnown .top cs bad with
    | false => exact Or.inl (by rw [Token.isPlain, hknown]; rfl)
    | true =>
      -- a cluster of known letters, with nothing left over, is an option as well
      rw [allKnown, Bool.and_eq_true, decide_eq_true_eq, List.all_eq_true] at hknown
      obtain ⟨rfl, hall⟩ := hknown
      rw [List.append_nil] at hbytes hne
      refine absurd (Or.inr ⟨cs, fun hnil => hne (encode_eq_nil.mpr hnil), ?_, ?_⟩) h
      · rw [hbytes, bytes_hyphen_append, bytes, String.toList_ofList]
      · exact fun c hc => (short?_top_isSome c).mp (hall c hc)

/-! ### The words of a run behind options -/

/-- **The words that stand behind options**: the end mark before them is none of them. -/
def wordsOf : List Bytes → List Bytes
  | [] => []
  | arg :: rest => if arg = bytes "--" then rest else arg :: rest

theorem wordsOf_map_bytes (words : List String) :
    wordsOf (words.map bytes) =
      (if words.head? = some "--" then words.tail else words).map bytes := by
  cases words with
  | nil => rfl
  | cons w rest =>
    by_cases hw : w = "--"
    · simp [wordsOf, hw]
    · simp [wordsOf, bytes_inj, hw]

/-- **What stands behind options belongs to the run** from its first argument on that is no option. -/
theorem readArgs_tail (hq : HasGiven .top q gs) {tail : List Bytes}
    (htail : ∀ x ∈ tail.head?, ¬IsOption x ∧ ¬Unreadable x) :
    readArgs .top q tail = .ok ⟨gs, wordsOf tail⟩ := by
  cases tail with
  | nil => exact hq.finish []
  | cons arg rest =>
    obtain ⟨hoption, hreadable⟩ := htail arg rfl
    rw [wordsOf]
    by_cases hmark : arg = bytes "--"
    · rw [if_pos hmark, hmark, readArgs_endOfOptions rfl, hq.finish]
    · have hplain := (isPlain_or_unreadable hmark hoption).resolve_right hreadable
      rw [if_neg hmark, readArgs_plain rfl hplain hq.not_awaiting, hq.finish]

/-- A long name that is no text is a fault even there. -/
theorem readArgs_unreadable {arg : Bytes} (h : Unreadable arg) (rest : List Bytes) :
    ∃ f, f.kind = .unknownArgument ∧ readArgs .top q (arg :: rest) = .error f := by
  obtain ⟨name, value, htoken, hname⟩ := h
  refine ⟨unknownLong .top q name, rfl, ?_⟩
  rw [readArgs, step, htoken]
  simp [hname]

theorem not_unreadable_bytes {w : String} (h : ¬IsOption (bytes w)) : ¬Unreadable (bytes w) := by
  rintro ⟨name, value, htoken, hname⟩
  by_cases hmark : w = "--"
  · have hend : Token.ofArg (bytes "--") = .endOfOptions := by decide +kernel
    rw [hmark, hend] at htoken
    cases htoken
  · have hplain := isPlain_ofArg hmark fun hlooks => h (isOption_of_looksLikeOption hlooks)
    rw [htoken, Token.isPlain, hname] at hplain
    cases hplain

/-! ### Any order and spelling -/

section Front

variable {args tail : List Bytes} (h : Spelled .top gs args) (hdistinct : (gs.map Given.switch?).Nodup)
  (htail : ∀ x ∈ tail.head?, x ∉ commandWords.map bytes ∧ ¬IsOption x)

include h hdistinct htail

theorem parse_front (hreadable : ∀ x ∈ tail.head?, ¬Unreadable x) :
    parse (args ++ tail) =
      (runArgsOf .top (wordsOf tail)).map fun words => runRequest words gs := by
  obtain ⟨q, hq, hread⟩ := readArgs_front h hdistinct
  rw [parse_spelled h fun _ x hx => (htail x hx).1, parseScope, hread,
    readArgs_tail hq fun x hx => ⟨(htail x hx).2, hreadable x hx⟩]
  exact requestOf_top gs _

/-- A long name that is no text is the fault, whatever stands in front. -/
theorem parse_front_unreadable (hunreadable : ∃ x ∈ tail.head?, Unreadable x) :
    ∃ f, f.kind = .unknownArgument ∧ parse (args ++ tail) = .error f := by
  obtain ⟨q, -, hread⟩ := readArgs_front h hdistinct
  obtain ⟨x, hx, hunreadable⟩ := hunreadable
  obtain ⟨rest, rfl⟩ := List.head?_eq_some_iff.mp hx
  obtain ⟨f, hf, herror⟩ := readArgs_unreadable (q := q) hunreadable rest
  exact ⟨f, hf, by rw [parse_spelled h fun _ x hx => (htail x hx).1, parseScope, hread, herror]⟩

end Front

/-- The command of a scope, by its own flag. -/
def Scope.commandGiven (gs : List Given) : Scope → Option Command
  | .list => some (.list (gs.contains (.flag .check)))
  | .init => some (.init (gs.contains (.flag .force)))
  | .validate => some .validate
  | _ => none

theorem Scope.commandGiven_of_perm (hperm : gs.Perm gs') (s : Scope) :
    s.commandGiven gs' = s.commandGiven gs := by
  cases s <;> simp [commandGiven, hperm.mem_iff]

theorem parse_behind {s : Scope} (hs : s ∈ [Scope.list, .init, .validate]) {args : List Bytes}
    (h : Spelled s gs args) (hdistinct : (gs.map Given.switch?).Nodup) :
    parse (bytes s.word :: args) = .ok { runRequest {} gs with command := s.commandGiven gs } := by
  obtain ⟨q, hq, hread⟩ := readArgs_front h hdistinct
  have hargs : readArgs s {} args = .ok ⟨gs, []⟩ := by
    rw [← List.append_nil args, hread]
    exact hq.finish []
  have hcommands : ∀ s ∈ [Scope.list, .init, .validate], s ∈ Scope.commands := by decide
  rw [parse_word (hcommands s hs), parseScope, hargs]
  simp only [List.mem_cons, List.not_mem_nil, or_false] at hs
  rcases hs with rfl | rfl | rfl <;> rfl

/-- **Different options come to the same in any order and spelling.** Before the words of a run they
give one request, or the same kind of fault where the words are none; if these are text, the request is
for a run with them and with the options. The same holds behind `list`, `init` and `validate`, whose own
flags may stand among the options. -/
theorem parse_any_order (hperm : gs.Perm gs') (hdistinct : (gs.map Given.switch?).Nodup) :
    (∀ args args' tail, Spelled .top gs args → Spelled .top gs' args' →
      (∀ x ∈ tail.head?, x ∉ commandWords.map bytes ∧ ¬IsOption x) →
      (parse (args' ++ tail)).mapError Fault.kind = (parse (args ++ tail)).mapError Fault.kind ∧
      ∀ words : List String, tail = words.map bytes →
        ∃ r, parse (args ++ tail) = .ok r ∧ parse (args' ++ tail) = .ok r ∧
          r = runRequest ⟨if words.head? = some "--" then words.tail else words⟩ gs) ∧
    ∀ s ∈ [Scope.list, .init, .validate], ∀ args args', Spelled s gs args → Spelled s gs' args' →
      ∃ r, parse (bytes s.word :: args) = .ok r ∧ parse (bytes s.word :: args') = .ok r ∧
        r = { runRequest {} gs with command := s.commandGiven gs } := by
  have hdistinct' : (gs'.map Given.switch?).Nodup := (hperm.map _).nodup_iff.mp hdistinct
  have hsame (args : RunArgs) := runRequest_of_perm args hperm hdistinct
  refine ⟨fun args args' tail h h' htail => ⟨?_, fun words hwords => ?_⟩, ?_⟩
  · -- behind either spelling the same words are left, so they are text for both or for none
    by_cases hunreadable : ∃ x ∈ tail.head?, Unreadable x
    · obtain ⟨f, hf, hparse⟩ := parse_front_unreadable h hdistinct htail hunreadable
      obtain ⟨f', hf', hparse'⟩ := parse_front_unreadable h' hdistinct' htail hunreadable
      rw [hparse, hparse']
      exact congrArg Except.error (hf'.trans hf.symm)
    · have hreadable : ∀ x ∈ tail.head?, ¬Unreadable x := fun x hx hun => hunreadable ⟨x, hx, hun⟩
      rw [parse_front h hdistinct htail hreadable, parse_front h' hdistinct' htail hreadable]
      simp only [hsame]
  · have hreadable : ∀ x ∈ tail.head?, ¬Unreadable x := by
      intro x hx
      have hoption := (htail x hx).2
      rw [hwords, List.head?_map] at hx
      obtain ⟨w, -, rfl⟩ := Option.map_eq_some_iff.mp hx
      exact not_unreadable_bytes hoption
    have hargs (ws : List String) : runArgsOf .top (ws.map bytes) = .ok ⟨ws⟩ := by
      rw [runArgsOf, mapM_decode?_bytes]
    refine ⟨_, ?_, ?_, rfl⟩
    · rw [parse_front h hdistinct htail hreadable, hwords, wordsOf_map_bytes, hargs]
      rfl
    · rw [parse_front h' hdistinct' htail hreadable, hwords, wordsOf_map_bytes, hargs, ← hsame]
      rfl
  · intro s hs args args' h h'
    refine ⟨_, parse_behind hs h hdistinct, ?_, rfl⟩
    rw [parse_behind hs h' hdistinct', hsame, s.commandGiven_of_perm hperm]

/-- Options as a cluster and as long names, with values attached and on their own. -/
theorem parse_any_order_check :
    ∃ r, parse (["-vq", "--color=never", "--config", "x", "--check"].map bytes) = .ok r ∧
      parse (["--config=x", "--quiet", "--color", "never", "-v", "--check"].map bytes) = .ok r ∧
      r.run.mode = .check ∧ r.verbose = true ∧ r.quiet = true ∧ r.colour = .never ∧
      r.config = some (bytes "x") := by
  have hplain : (Token.ofArg (bytes "x")).isPlain .top = true := by decide +kernel
  have hpath : bytes "x" ≠ [] := by decide
  have hfirst : Spelled .top [.flag .verbose, .flag .quiet, .colour .never, .config (bytes "x")] _ :=
    .letters (List.cons_ne_nil Switch.verbose [.quiet]) (by decide)
      (.colour .never true (.config hpath false (fun _ => hplain) .nil))
  have hsecond : Spelled .top [.config (bytes "x"), .flag .quiet, .colour .never, .flag .verbose] _ :=
    .config hpath true nofun (.long (by decide) (.colour .never false
      (.letters (List.cons_ne_nil Switch.verbose []) (by decide) .nil)))
  have htail : ∀ x ∈ ([bytes "--check"] : List Bytes).head?,
      x ∉ commandWords.map bytes ∧ ¬IsOption x := by
    rintro x ⟨⟩
    have hword : (Token.ofArg (bytes "--check")).isPlain .top = true := by decide +kernel
    refine ⟨by decide, fun hoption => ?_⟩
    rw [isPlain_of_isOption hoption] at hword
    cases hword
  obtain ⟨r, hr, hr', rfl⟩ := ((parse_any_order (by decide) (by decide)).1 _ _ [bytes "--check"]
    hfirst hsecond htail).2 ["--check"] rfl
  exact ⟨_, hr, hr', by decide +kernel⟩

end QualityGate.Args
