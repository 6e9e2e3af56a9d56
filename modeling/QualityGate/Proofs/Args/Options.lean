import Mathlib.Data.List.Induction
import Mathlib.Data.List.Nodup
import QualityGate.Proofs.Args.Spelling
/-!
## The options that every command knows

A `GlobalOption` is one of the four options with the way it is written.

* `spelled_options`: what is written for them spells what is given with them.
* `runRequest_options`: a request with them is the one without, changed by each option in turn.
* `parse_options_command`: before a command's word they keep the command from being recognised, so
  that its word and all that follows are words of a run.
-/

namespace QualityGate.Args
open Text

variable {scope : Scope}

/-! ### Options as they are written -/

/-- **An option that every command knows**, and how it is written: a flag by its long name or its letter,
a value attached to the name or as the next argument. -/
inductive GlobalOption where
  | verbose (long : Bool)
  | quiet (long : Bool)
  | colour (choice : ColourChoice) (attached : Bool)
  | config (path : Bytes) (attached : Bool)
  deriving DecidableEq

namespace GlobalOption

/-- **The arguments that an option is written as.** -/
def arguments : GlobalOption → List Bytes
  | verbose long => [bytes (if long then "--verbose" else "-v")]
  | quiet long => [bytes (if long then "--quiet" else "-q")]
  | colour choice attached => withValue "--color" (bytes choice.word) attached
  | config path attached => withValue "--config" path attached

/-- Which option it is. -/
def switch : GlobalOption → Switch
  | verbose _ => .verbose
  | quiet _ => .quiet
  | colour _ _ => .colour
  | config _ _ => .config

/-- What is given with it. -/
def given : GlobalOption → Given
  | verbose _ => .flag .verbose
  | quiet _ => .flag .quiet
  | colour choice _ => .colour choice
  | config path _ => .config path

/-- **The request changed by an option.** -/
def set (r : Request) : GlobalOption → Request
  | verbose _ => { r with verbose := true }
  | quiet _ => { r with quiet := true }
  | colour choice _ => { r with colour := choice }
  | config path _ => { r with config := some path }

/-- **Whether an option has a value where it needs one**: the path is not empty, and it is not taken for
an option itself where it is an argument of its own. -/
def WellFormed (scope : Scope) : GlobalOption → Prop
  | config path attached =>
    path ≠ [] ∧ (attached = false → (Token.ofArg path).isPlain scope = true)
  | _ => True

theorem switch?_given (o : GlobalOption) : o.given.switch? = some o.switch := by
  cases o <;> rfl

/-- **What is written for one option spells what is given with it**, whatever comes after. -/
theorem spelled (o : GlobalOption) (hwell : o.WellFormed scope) {gs : List Given} {args : List Bytes}
    (h : Spelled scope gs args) : Spelled scope (o.given :: gs) (o.arguments ++ args) := by
  have hverbose : Switch.verbose ∈ scope.flags := by cases scope <;> decide
  have hquiet : Switch.quiet ∈ scope.flags := by cases scope <;> decide
  cases o with
  | verbose long =>
    cases long with
    | true => exact .long hverbose h
    | false => exact .letters (List.cons_ne_nil _ _) (List.forall_mem_singleton.mpr ⟨hverbose, rfl⟩) h
  | quiet long =>
    cases long with
    | true => exact .long hquiet h
    | false => exact .letters (List.cons_ne_nil _ _) (List.forall_mem_singleton.mpr ⟨hquiet, rfl⟩) h
  | colour choice attached => exact .colour choice attached h
  | config path attached => exact .config hwell.1 attached hwell.2 h

end GlobalOption

/-- **What is written for options spells what is given with them.** -/
theorem spelled_options (opts : List GlobalOption) (hwell : ∀ o ∈ opts, o.WellFormed scope) :
    Spelled scope (opts.map GlobalOption.given) (opts.flatMap GlobalOption.arguments) := by
  induction opts with
  | nil => exact .nil
  | cons o opts ih =>
    obtain ⟨ho, hopts⟩ := List.forall_mem_cons.mp hwell
    exact o.spelled ho (ih hopts)

/-- Different options are different in what is given with them. -/
theorem nodup_given {opts : List GlobalOption} (h : (opts.map GlobalOption.switch).Nodup) :
    ((opts.map GlobalOption.given).map Given.switch?).Nodup := by
  have hswitches : (opts.map GlobalOption.given).map Given.switch? =
      (opts.map GlobalOption.switch).map some := by
    simp [GlobalOption.switch?_given]
  rw [hswitches]
  exact List.Nodup.map (fun _ _ => Option.some.inj) h

/-! ### Requests with options -/

theorem colourOf_append {before : List GlobalOption}
    (hnew : .colour ∉ before.map GlobalOption.switch) (choice : ColourChoice) :
    colourOf (before.map GlobalOption.given ++ [.colour choice]) = choice := by
  rw [colourOf, List.findSome?_append, List.findSome?_eq_none_iff.mpr]
  · rfl
  · intro g hg
    obtain ⟨o, ho, rfl⟩ := List.mem_map.mp hg
    have hne : o.switch ≠ .colour := fun h => hnew (h ▸ List.mem_map_of_mem ho)
    cases o with
    | colour choice attached => exact absurd rfl hne
    | _ => rfl

theorem configOf_append {before : List GlobalOption}
    (hnew : .config ∉ before.map GlobalOption.switch) (path : Bytes) :
    configOf (before.map GlobalOption.given ++ [.config path]) = some path := by
  rw [configOf, List.findSome?_append, List.findSome?_eq_none_iff.mpr]
  · rfl
  · intro g hg
    obtain ⟨o, ho, rfl⟩ := List.mem_map.mp hg
    have hne : o.switch ≠ .config := fun h => hnew (h ▸ List.mem_map_of_mem ho)
    cases o with
    | config path attached => exact absurd rfl hne
    | _ => rfl

/-- An option that was not given before changes its own field of the request, and no other. -/
theorem runRequest_append (args : RunArgs) {before : List GlobalOption} {o : GlobalOption}
    (hnew : o.switch ∉ before.map GlobalOption.switch) :
    runRequest args (before.map GlobalOption.given ++ [o.given]) =
      GlobalOption.set (runRequest args (before.map GlobalOption.given)) o := by
  cases o with
  | verbose long =>
    simp [runRequest, GlobalOption.set, GlobalOption.given, colourOf, configOf,
      List.findSome?_append]
  | quiet long =>
    simp [runRequest, GlobalOption.set, GlobalOption.given, colourOf, configOf,
      List.findSome?_append]
  | colour choice attached =>
    have hcolour := colourOf_append hnew choice
    simp [runRequest, GlobalOption.set, GlobalOption.given, hcolour, configOf,
      List.findSome?_append]
  | config path attached =>
    have hconfig := configOf_append hnew path
    simp [runRequest, GlobalOption.set, GlobalOption.given, hconfig, colourOf,
      List.findSome?_append]

/-- **A request with options is the one without, changed by each of them in turn.** -/
theorem runRequest_options (args : RunArgs) (opts : List GlobalOption)
    (hdistinct : (opts.map GlobalOption.switch).Nodup) :
    runRequest args (opts.map GlobalOption.given) = opts.foldl GlobalOption.set { run := args } := by
  -- The last option comes last in both, so the induction takes options off the end.
  induction opts using List.reverseRecOn with
  | nil => rfl
  | append_singleton opts o ih =>
    rw [List.map_append, List.nodup_append] at hdistinct
    obtain ⟨hopts, -, hapart⟩ := hdistinct
    have hnew : o.switch ∉ opts.map GlobalOption.switch := by
      intro hmem
      exact hapart _ hmem _ (List.mem_singleton_self _) rfl
    rw [List.map_append, List.foldl_append, ← ih hopts]
    exact runRequest_append args hnew

/-! ### Options before other arguments -/

/-- **Options before a plain word**: all from that word on are words of the run. -/
theorem parse_options_plain {opts : List GlobalOption} (hne : opts ≠ [])
    (hwell : ∀ o ∈ opts, o.WellFormed .top) (hdistinct : (opts.map GlobalOption.switch).Nodup)
    {arg : Bytes} (hplain : (Token.ofArg arg).isPlain .top = true) (rest : List Bytes) :
    parse (opts.flatMap GlobalOption.arguments ++ arg :: rest) =
      (runArgsOf .top (arg :: rest)).map fun args =>
        opts.foldl GlobalOption.set { run := args } := by
  have hgiven : opts.map GlobalOption.given ≠ [] := by simpa using hne
  rw [parse_spelled_plain (spelled_options opts hwell) hgiven (nodup_given hdistinct) hplain]
  simp only [runRequest_options _ _ hdistinct]

/-- A command's word is a word where it selects no command. -/
theorem isPlain_word {s : Scope} (hs : s ∈ Scope.commands) :
    (Token.ofArg (bytes s.word)).isPlain .top = true := by
  have hall : ∀ s ∈ Scope.commands, (Token.ofArg (bytes s.word)).isPlain .top = true := by
    decide +kernel
  exact hall s hs

/-- A command's word selects it. -/
theorem parse_word {s : Scope} (hs : s ∈ Scope.commands) (rest : List Bytes) :
    parse (bytes s.word :: rest) = parseScope s rest := by
  have hall : ∀ s ∈ Scope.commands, topicOf? (bytes s.word) = some (.scope s) := by
    decide +kernel
  rw [parse, hall s hs]

/-- The scope of a command gives a command. -/
theorem commandOf_ne_none {s : Scope} (hs : s ≠ .top) {reading : Reading} {command : Option Command}
    (h : commandOf s reading = .ok command) : command ≠ none := by
  cases s with
  | top => exact absurd rfl hs
  -- only `run` and `completions` read what was given, and may fail
  | run =>
    rw [commandOf] at h
    cases hargs : runArgsOf .run reading.words with
    | error f => simp [hargs, Except.map] at h
    | ok args =>
      simp only [hargs, Except.map, Except.ok.injEq] at h
      simp [← h]
  | completions =>
    rw [commandOf] at h
    cases hshell : shellOf reading.given with
    | none => simp [hshell] at h
    | some shell =>
      simp only [hshell, Except.ok.injEq] at h
      simp [← h]
  | _ =>
    simp only [commandOf, Except.ok.injEq] at h
    simp [← h]

/-- A request made after a command's word is one for a command. -/
theorem command_ne_none {s : Scope} (hs : s ≠ .top) {args : List Bytes} {r : Request}
    (h : parseScope s args = .ok r) : r.command ≠ none := by
  rw [parseScope] at h
  cases hread : readArgs s {} args with
  | error f => simp [hread] at h
  | ok reading =>
    simp only [hread, requestOf] at h
    cases hcommand : commandOf s reading with
    | error f => simp [hcommand] at h
    | ok command =>
      simp only [hcommand, if_neg hs, Except.map, Except.ok.injEq] at h
      rw [← h]
      exact commandOf_ne_none hs hcommand

theorem foldl_set_command (opts : List GlobalOption) (r : Request) :
    (opts.foldl GlobalOption.set r).command = r.command := by
  induction opts generalizing r with
  | nil => rfl
  | cons o opts ih =>
    rw [List.foldl_cons, ih]
    cases o <;> rfl

/-- **Options before a command's word hide the command.** Whatever the arguments of the command, the
result is a run in fix mode, with the command's word and all that follows for its words, and with the
options; it fails only if these are no text. So the command is the same with the options in front as
without them exactly if there are no options. -/
theorem parse_options_command (opts : List GlobalOption) (hwell : ∀ o ∈ opts, o.WellFormed .top)
    (hdistinct : (opts.map GlobalOption.switch).Nodup) (s : Scope) (hs : s ∈ Scope.commands)
    (rest : List Bytes) (r : Request) (hparse : parse (bytes s.word :: rest) = .ok r) :
    ((∃ r', parse (opts.flatMap GlobalOption.arguments ++ bytes s.word :: rest) = .ok r' ∧
        r'.command = r.command) ↔ opts = []) ∧
      (opts ≠ [] →
        parse (opts.flatMap GlobalOption.arguments ++ bytes s.word :: rest) =
          match rest.mapM decode? with
          | some ws =>
            .ok (opts.foldl GlobalOption.set { command := none, run := ⟨s.word :: ws⟩ })
          | none => .error (.notText .top)) ∧
      ∀ ws, (⟨s.word :: ws⟩ : RunArgs).mode = .fix := by
  have hhidden (hne : opts ≠ []) :
      parse (opts.flatMap GlobalOption.arguments ++ bytes s.word :: rest) =
        match rest.mapM decode? with
        | some ws => .ok (opts.foldl GlobalOption.set { command := none, run := ⟨s.word :: ws⟩ })
        | none => .error (.notText .top) := by
    rw [parse_options_plain hne hwell hdistinct (isPlain_word hs), runArgsOf, List.mapM_cons,
      decode?_bytes]
    cases rest.mapM decode? <;> rfl
  refine ⟨⟨?_, ?_⟩, hhidden, ?_⟩
  · rintro ⟨r', hr', hcommand⟩
    refine Decidable.byContradiction fun hne => ?_
    rw [hhidden hne] at hr'
    -- Some command is asked for without the options, and none with them.
    have htop : s ≠ .top := by
      rintro rfl
      exact absurd hs (by decide)
    rw [parse_word hs] at hparse
    have hsome : r.command ≠ none := command_ne_none htop hparse
    cases hwords : rest.mapM decode? with
    | none => simp [hwords] at hr'
    | some ws =>
      simp only [hwords, Except.ok.injEq] at hr'
      rw [← hr', foldl_set_command] at hcommand
      exact hsome hcommand.symm
  · rintro rfl
    exact ⟨r, hparse, rfl⟩
  · intro ws
    have hall : ∀ s ∈ Scope.commands, Mode.ofFirstArg (some s.word) = .fix := by decide
    exact hall s hs

/-- Validation of a named settings file becomes a run that rewrites files. -/
theorem parse_config_validate :
    parse (["--config", "x", "validate"].map bytes) =
      .ok { run := ⟨["validate"]⟩, config := some (bytes "x") } := by
  have hwell : ∀ o ∈ [GlobalOption.config (bytes "x") false], o.WellFormed .top := by
    intro o ho
    rw [List.mem_singleton] at ho
    rw [ho]
    exact ⟨by decide, fun _ => by decide +kernel⟩
  exact (parse_options_command [.config (bytes "x") false] hwell (by decide) .validate (by decide)
    [] { command := some .validate } rfl).2.1 (by simp)

/-- A flag before the list of steps hides the request for it. -/
theorem parse_verbose_list :
    parse (["list"].map bytes) = .ok { command := some (.list false) } ∧
      parse (["--verbose", "list"].map bytes) = .ok { run := ⟨["list"]⟩, verbose := true } := by
  decide +kernel

end QualityGate.Args
