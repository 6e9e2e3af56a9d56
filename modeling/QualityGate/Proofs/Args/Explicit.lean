import QualityGate.Proofs.Args.Options
/-!
## A run with and without its command

The words of a run may stand behind the command `run` or on their own. The two forms are read in scopes
of their own, with the same options and the same freedom of words, and no more than the scope in a fault
tells them apart (`Fault.within`).

* `readArgs_run`: the readings of both scopes agree, step by step.
* `parse_run`: so behind the command everything is read as it is on its own, where its first argument
  selects no command.
* `parse_run_explicit`: both forms ask for the same or fail alike; behind the command the words of
  commands are words like any others.
-/

namespace QualityGate

/-- **The same request with the command for its run.** -/
def Request.explicit (r : Request) : Request :=
  { r with command := some (.run r.run), run := {} }

namespace Args
open Text

variable {p : Progress}

/-! ### Faults of one kind -/

/-- **What is wrong with a command line**, or what is asked for in place of a command. -/
inductive FaultKind where
  | help | version | unknownArgument | repeated | invalidValue | uselessValue | missingShell | notText
  | unknownCommand
  deriving DecidableEq, Repr

namespace Fault

/-- **The kind of a fault.** A missing value and one that is none of the choices are of one kind. -/
def kind : Fault → FaultKind
  | helpAsked _ _ => .help
  | versionAsked _ => .version
  | unknownArgument _ _ _ _ _ => .unknownArgument
  | repeated _ _ => .repeated
  | missingValue _ _ => .invalidValue
  | badValue _ _ _ => .invalidValue
  | uselessValue _ _ _ _ => .uselessValue
  | missingShell _ => .missingShell
  | notText _ => .notText
  | unknownCommand _ _ => .unknownCommand

/-- **The same fault in another scope.** -/
def within (scope : Scope) : Fault → Fault
  | helpAsked (.scope _) long => helpAsked (.scope scope) long
  | versionAsked _ => versionAsked scope
  | unknownArgument _ shown similar asValue used => unknownArgument scope shown similar asValue used
  | repeated _ s => repeated scope s
  | uselessValue _ s value used => uselessValue scope s value used
  | notText _ => notText scope
  | f => f

theorem kind_within (scope : Scope) (f : Fault) : (f.within scope).kind = f.kind := by
  cases f with
  | helpAsked topic long => cases topic <;> rfl
  | _ => rfl

end Fault

/-- What is read behind the command, by what is read without it. -/
abbrev behindRun {α : Type} (x : Except Fault α) : Except Fault α :=
  x.mapError (Fault.within .run)

theorem map_behindRun {α β : Type} (f : α → β) (x : Except Fault α) :
    (behindRun x).map f = behindRun (x.map f) := by
  cases x <;> rfl

/-! ### Taking in -/

theorem take_run (s : Switch) (g : Given) : p.take .run s g = behindRun (p.take .top s g) := by
  unfold Progress.take
  split
  · rfl
  · rfl

/-- A fault about the choice of a word belongs to no scope. -/
theorem within_of_chooseWord {α : Type} {shown : String} {choices : List (String × α)} {w : Bytes}
    {f : Fault} (h : chooseWord shown choices w = .error f) : f.within .run = f := by
  unfold chooseWord at h
  dsimp only at h
  split at h
  · cases h
  · split at h <;> cases h <;> rfl

theorem within_of_readValue {s : Switch} {v : Bytes} {f : Fault} (h : readValue s v = .error f) :
    f.within .run = f := by
  unfold readValue at h
  split at h
  · cases hword : chooseWord Switch.colour.shown (ColourChoice.listed.map fun c => (c.word, c)) v with
    | ok c =>
      rw [hword] at h
      cases h
    | error f' =>
      rw [hword] at h
      cases h
      exact within_of_chooseWord hword
  · split at h
    · cases h
      rfl
    · cases h
  · cases h

theorem takeValue_run (s : Switch) (v : Bytes) :
    takeValue .run p s v = behindRun (takeValue .top p s v) := by
  unfold takeValue
  split
  · rfl
  · cases hread : readValue s v with
    | ok g => exact take_run s g
    | error f => exact congrArg Except.error (within_of_readValue hread).symm

theorem resolve_run : resolve .run p = behindRun (resolve .top p) := by
  unfold resolve
  cases p.pending with
  | nothing => rfl
  | awaiting s => rfl
  | value s v => exact takeValue_run s v
  | shellWord w =>
    dsimp only
    cases hword : chooseWord "<SHELL>" (CompletionShell.listed.map fun c => (c.word, c)) w with
    | ok c => rfl
    | error f => exact congrArg Except.error (within_of_chooseWord hword).symm

theorem resolveIfSound_run : resolveIfSound .run p = resolveIfSound .top p := by
  rw [resolveIfSound, resolveIfSound, resolve_run]
  cases resolve .top p <;> rfl

theorem takeFlag_run (s : Switch) (long : Bool) :
    takeFlag .run p s long = behindRun (takeFlag .top p s long) := by
  rw [takeFlag, takeFlag, resolve_run]
  cases resolve .top p with
  | error f => rfl
  | ok q =>
    cases s with
    | help => rfl
    | version => rfl
    | _ => exact take_run _ _

theorem takeLong_run (s : Switch) (value : Option Bytes) :
    takeLong .run p s value = behindRun (takeLong .top p s value) := by
  unfold takeLong
  split
  · rw [resolve_run]
    cases resolve .top p with
    | error f => rfl
    | ok q =>
      cases value with
      | none => rfl
      | some v => exact takeValue_run s v
  · cases value with
    | none => exact takeFlag_run s true
    | some v => rfl

theorem takeLetters_run (rest : Bytes) (cs : List Char) :
    takeLetters .run p rest cs = behindRun (takeLetters .top p rest cs) := by
  induction cs generalizing p with
  | nil =>
    unfold takeLetters
    split
    · rfl
    · rfl
  | cons c cs ih =>
    have hshort : Scope.run.short? c = Scope.top.short? c := rfl
    rw [takeLetters, takeLetters, hshort]
    cases Scope.top.short? c with
    | none => rfl
    | some s =>
      dsimp only
      rw [takeFlag_run]
      cases takeFlag .top p s false with
      | error f => rfl
      | ok q => exact ih

theorem unknownLong_run (name : Bytes) :
    unknownLong .run p name = (unknownLong .top p name).within .run := by
  rw [unknownLong, resolveIfSound_run]
  rfl

/-! ### Reading -/

/-- **One argument is taken in alike** behind the command and without it. -/
theorem step_run (arg : Bytes) (rest : List Bytes) :
    step .run p arg rest = behindRun (step .top p arg rest) := by
  have hword : stepWord .run p arg rest = behindRun (stepWord .top p arg rest) := by
    unfold stepWord
    split
    · rfl
    · rfl
  unfold step
  -- both scopes know the same options and take any word, so both go the same way
  cases Token.ofArg arg with
  | endOfOptions => rfl
  | word => exact hword
  | letters cs bad =>
    cases hknown : allKnown .top cs bad with
    | false =>
      have hrun : allKnown .run cs bad = false := hknown
      simpa [hknown, hrun, Scope.takesAnything] using hword
    | true =>
      have hrun : allKnown .run cs bad = true := hknown
      simp [hknown, hrun, takeLetters_run, map_behindRun]
  | long name value =>
    have hlong (n : String) : Scope.run.long? n = Scope.top.long? n := rfl
    simp only [hlong]
    cases decode? name with
    | none => exact congrArg Except.error (unknownLong_run name)
    | some n =>
      cases hs : Scope.top.long? n with
      | none => simpa [hs, Scope.takesAnything] using hword
      | some s => simp [hs, takeLong_run, map_behindRun]

theorem finish_run (words : List Bytes) : finish .run p words = behindRun (finish .top p words) := by
  rw [finish, finish, resolve_run]
  cases resolve .top p <;> rfl

/-- **All arguments are read alike** behind the command and without it. -/
theorem readArgs_run (args : List Bytes) : readArgs .run p args = behindRun (readArgs .top p args) := by
  induction args generalizing p with
  | nil => exact finish_run []
  | cons arg rest ih =>
    rw [readArgs, readArgs, step_run]
    cases step .top p arg rest with
    | error f => rfl
    | ok next =>
      cases next with
      | inr words => exact finish_run words
      | inl q =>
        dsimp only [behindRun, Except.mapError]
        split
        · exact finish_run []
        · exact ih

/-! ### Requests -/

theorem requestOf_run (r : Reading) :
    requestOf .run r = behindRun ((requestOf .top r).map Request.explicit) := by
  have hargs : runArgsOf .run r.words = behindRun (runArgsOf .top r.words) := by
    unfold runArgsOf
    split
    · rfl
    · rfl
  rw [requestOf_top, requestOf, commandOf, hargs]
  cases runArgsOf .top r.words <;> rfl

theorem parseScope_run (args : List Bytes) :
    parseScope .run args = behindRun ((parseScope .top args).map Request.explicit) := by
  rw [parseScope, parseScope, readArgs_run]
  cases readArgs .top {} args with
  | error f => rfl
  | ok r => exact requestOf_run r

/-- **Behind the command everything is read as it is on its own.** -/
theorem parse_run {xs : List Bytes} (h : ∀ x ∈ xs.head?, x ∉ commandWords.map bytes) :
    parse (bytes "run" :: xs) = behindRun ((parse xs).map Request.explicit) := by
  have hword : parse (bytes "run" :: xs) = parseScope .run xs :=
    parse_word (s := .run) (by decide) xs
  rw [hword, parseScope_run, parse_of_not_command h]

theorem effective_of_parseScope {args : List Bytes} {r : Request}
    (h : parseScope .top args = .ok r) : r.effective = .run r.run := by
  rw [parseScope] at h
  cases hread : readArgs .top {} args with
  | error f =>
    rw [hread] at h
    cases h
  | ok reading =>
    rw [hread] at h
    dsimp only at h
    -- at the top no word is taken for a command, so a request from there has none
    rw [requestOf_top] at h
    cases hargs : runArgsOf .top reading.words with
    | error f =>
      rw [hargs] at h
      cases h
    | ok args =>
      rw [hargs] at h
      cases h
      rfl

/-- **A run with and without its command.** If the first argument selects no command, both forms are one
run with the same words, so in the same mode and with the same ignored ones, and with the same options,
or both fail by a fault of the same kind, which differs in its scope at most. Behind the command the
word of a command is a word like any other: it makes a run in fix mode. -/
theorem parse_run_explicit :
    (∀ xs : List Bytes, (∀ x ∈ xs.head?, x ∉ commandWords.map bytes) →
      (∃ r r', parse xs = .ok r ∧ parse (bytes "run" :: xs) = .ok r' ∧
        r.effective = .run r.run ∧ r'.effective = .run r.run ∧ r'.verbose = r.verbose ∧
        r'.quiet = r.quiet ∧ r'.colour = r.colour ∧ r'.config = r.config) ∨
      ∃ f, parse xs = .error f ∧ parse (bytes "run" :: xs) = .error (f.within .run) ∧
        (f.within .run).kind = f.kind) ∧
    ∀ w ∈ commandWords, ∀ rest : List String,
      parse (("run" :: w :: rest).map bytes) = .ok { command := some (.run ⟨w :: rest⟩) } ∧
        (⟨w :: rest⟩ : RunArgs).mode = .fix := by
  refine ⟨?_, ?_⟩
  · intro xs hxs
    have hrun := parse_run hxs
    cases hparse : parse xs with
    | error f =>
      rw [hparse] at hrun
      exact Or.inr ⟨f, rfl, hrun, f.kind_within .run⟩
    | ok r =>
      rw [hparse] at hrun
      rw [parse_of_not_command hxs] at hparse
      exact Or.inl ⟨r, r.explicit, rfl, hrun, effective_of_parseScope hparse, rfl, rfl, rfl, rfl, rfl⟩
  · -- behind the command no word opens a scope any more, so that of a command begins the words
    intro w hw rest
    have hplain : ∀ w ∈ commandWords, (Token.ofArg (bytes w)).isPlain .run = true := by
      decide +kernel
    have hfix : ∀ w ∈ commandWords, Mode.ofFirstArg (some w) = .fix := by decide
    have hwait (s : Switch) : ({} : Progress).pending ≠ .awaiting s := by
      intro h
      cases h
    have hword : parse (("run" :: w :: rest).map bytes) = parseScope .run ((w :: rest).map bytes) :=
      parse_word (s := .run) (by decide) _
    refine ⟨?_, hfix w hw⟩
    rw [hword, parseScope, List.map_cons, readArgs_plain rfl (hplain w hw) hwait]
    have hrequest := requestOf_run ⟨[], (w :: rest).map bytes⟩
    rw [requestOf_words] at hrequest
    exact hrequest

/-- Behind the command, as on its own, an option leaves the word after it a word. -/
theorem parse_run_explicit_quiet :
    ∃ r, parse (["run", "-q", "list"].map bytes) = .ok r ∧ r.effective = .run ⟨["list"]⟩ ∧
      r.quiet = true := by
  have halone : parse (["-q", "list"].map bytes) = .ok { run := ⟨["list"]⟩, quiet := true } := by
    decide +kernel
  have hfirst : ∀ x ∈ (["-q", "list"].map bytes).head?, x ∉ commandWords.map bytes := by
    rintro x ⟨⟩
    decide
  rcases parse_run_explicit.1 (["-q", "list"].map bytes) hfirst with
    ⟨r, r', hr, hr', -, heffective, -, hquiet, -⟩ | ⟨f, hf, -⟩
  · rw [halone] at hr
    cases hr
    exact ⟨r', hr', heffective, hquiet⟩
  · rw [halone] at hf
    cases hf

end Args
end QualityGate
