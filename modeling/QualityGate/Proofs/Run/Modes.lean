import QualityGate.Proofs.Run.Course
/-!
## One run in each mode

What a run comes to does not depend on its mode, as long as the tools themselves do not answer
differently to different arguments.

* `Performer.Oblivious`: the performers that do not look at arguments, up to what their states keep.
* `performFrom_oblivious`: over such a performer, command lines of the same programs bring a sequence
  of steps to the same outcomes. Recording the calls keeps a performer oblivious
  (`Performer.Oblivious.recorded`), so the same lemma compares the calls.
* `runWith_modes`: a run in check mode and one in fix mode end alike, and their calls agree but for the
  formatter's, to whose arguments check mode adds its flag.
-/

namespace QualityGate

variable {σ : Type}

/-! ### Performers that do not look at arguments -/

/-- **A performer that does not look at arguments.** States that were reached by calls of the same
programs are `alike`: in such states a call of the same program is answered in the same way, and leads
to states that are alike again. -/
structure Performer.Oblivious (p : Performer σ) (alike : σ → σ → Prop) : Prop where
  available (program : String) (cond : Conditions) {s t : σ} (h : alike s t) :
    (p.available program cond s).1 = (p.available program cond t).1 ∧
      alike (p.available program cond s).2 (p.available program cond t).2
  execute {c d : CommandLine} (hprogram : c.program = d.program) (cond : Conditions) {s t : σ}
    (h : alike s t) :
    (p.execute c cond s).1 = (p.execute d cond t).1 ∧
      alike (p.execute c cond s).2.2 (p.execute d cond t).2.2

/-- A call without the arguments of what it executes. -/
def Call.bare : Call → Call
  | lookup program cond found => lookup program cond found
  | execution c cond answer => execution ⟨c.program, []⟩ cond answer

/-- **Recording keeps a performer oblivious**, and the calls that it writes down agree but for the
arguments. -/
theorem Performer.Oblivious.recorded {p : Performer σ} {alike : σ → σ → Prop}
    (hp : p.Oblivious alike) :
    p.recorded.Oblivious fun s t => alike s.1 t.1 ∧ s.2.map Call.bare = t.2.map Call.bare where
  available program cond s t h := by
    obtain ⟨hfound, hnext⟩ := hp.available program cond h.1
    exact ⟨hfound, hnext, by simp [Performer.recorded, h.2, hfound]⟩
  execute hprogram cond s t h := by
    obtain ⟨hanswer, hnext⟩ := hp.execute hprogram cond h.1
    exact ⟨hanswer, hnext, by simp [Performer.recorded, h.2, hanswer, hprogram, Call.bare]⟩

/-! ### Steps with the same programs -/

/-- The tool of a step and how it ended. -/
def Step.ended (s : Step) : Tool × Outcome :=
  (s.tool, s.outcome)

/-- **Command lines of the same programs bring an oblivious performer to the same outcomes.** -/
theorem performFrom_oblivious {p : Performer σ} {alike : σ → σ → Prop} (hp : p.Oblivious alike)
    (cond : Conditions) {f g : Tool → CommandLine} (hprogram : ∀ t, (f t).program = (g t).program)
    (tools : List Tool) (done done' : List Step) (hdone : done.map Step.ended = done'.map Step.ended)
    (shown shown' : List Console.Event) (s s' : σ) (hs : alike s s') :
    let ran := performFrom p cond done shown s (tools.map fun t => (t, f t))
    let ran' := performFrom p cond done' shown' s' (tools.map fun t => (t, g t))
    ran.result.map (·.map Step.ended) = ran'.result.map (·.map Step.ended) ∧
      alike ran.state ran'.state := by
  induction tools generalizing done done' shown shown' s s' with
  | nil => exact ⟨by simp [performFrom, Except.map, hdone], hs⟩
  -- the two runs answer alike at each tool, so they stop at the same one or go on together
  | cons t rest ih =>
    simp only [List.map_cons, performFrom, hprogram t]
    have hfound := hp.available (g t).program cond hs
    rcases hhere : p.available (g t).program cond s with ⟨found, s1⟩
    rcases hthere : p.available (g t).program cond s' with ⟨found', s1'⟩
    rw [hhere, hthere] at hfound
    obtain ⟨rfl : found = found', hs1 : alike s1 s1'⟩ := hfound
    cases found with
    | false => exact ⟨rfl, hs1⟩
    | true =>
      have hanswer := hp.execute (hprogram t) cond hs1
      dsimp only
      rcases hhere : p.execute (f t) cond s1 with ⟨answer, events, s2⟩
      rcases hthere : p.execute (g t) cond s1' with ⟨answer', events', s2'⟩
      rw [hhere, hthere] at hanswer
      obtain ⟨rfl : answer = answer', hs2 : alike s2 s2'⟩ := hanswer
      cases answer with
      | error e => exact ⟨rfl, hs2⟩
      | ok o =>
        have hdone' : (done ++ [Step.mk t (f t) o]).map Step.ended =
            (done' ++ [Step.mk t (g t) o]).map Step.ended := by simp [hdone, Step.ended]
        dsimp only
        cases hpassed : o.passed with
        | false => exact ⟨congrArg Except.ok hdone', hs2⟩
        | true => exact ih _ _ hdone' _ _ _ _ hs2

/-! ### Call by call -/

variable {cond : Conditions} {plan : List (Tool × CommandLine)} {log : List Call}
  {result : Except Failure (List Step)}

/-- **The calls of a course by their numbers**: each step makes two, of which the second executes its
command line. -/
theorem Course.call_at (h : Course cond plan log result) {i : ℕ} {call : Call}
    (hi : log[i]? = some call) :
    ∃ t c, plan[i / 2]? = some (t, c) ∧
      ((i % 2 = 0 ∧ ∃ found, call = .lookup c.program cond found) ∨
        (i % 2 = 1 ∧ ∃ answer, call = .execution c cond answer)) := by
  induction h generalizing i with
  | complete => simp at hi
  | missing t c rest =>
    match i with
    | 0 => exact ⟨t, c, rfl, Or.inl ⟨rfl, _, (Option.some.inj hi).symm⟩⟩
    | i + 1 => simp at hi
  | passed t c o ho hrest ih =>
    match i with
    | 0 => exact ⟨t, c, rfl, Or.inl ⟨rfl, _, (Option.some.inj hi).symm⟩⟩
    | 1 => exact ⟨t, c, rfl, Or.inr ⟨rfl, _, (Option.some.inj hi).symm⟩⟩
    -- the first two calls are those of the step that passed, and the rest is numbered from them
    | i + 2 =>
      obtain ⟨t', c', hplan, hcall⟩ := ih hi
      refine ⟨t', c', ?_, ?_⟩
      · rw [show (i + 2) / 2 = i / 2 + 1 by omega]
        exact hplan
      · rw [show (i + 2) % 2 = i % 2 by omega]
        exact hcall
  | faulted t c rest f | stopped t c rest o ho =>
    match i with
    | 0 => exact ⟨t, c, rfl, Or.inl ⟨rfl, _, (Option.some.inj hi).symm⟩⟩
    | 1 => exact ⟨t, c, rfl, Or.inr ⟨rfl, _, (Option.some.inj hi).symm⟩⟩
    | i + 2 => simp at hi

/-- **Two logs that agree call by call, but for one**: there the one log executes `c` and the other
`d`, under the same conditions and with the same answer. -/
structure AgreeBut (i : ℕ) (c d : CommandLine) (log log' : List Call) : Prop where
  length : log.length = log'.length
  elsewhere : ∀ j, j ≠ i → log[j]? = log'[j]?
  here : ∀ call, log[i]? = some call → ∃ cond answer,
    call = .execution c cond answer ∧ log'[i]? = some (.execution d cond answer)

/-- Courses of plans that differ in one step, with calls that agree but for the arguments. -/
theorem Course.agreeBut {plan' : List (Tool × CommandLine)} {log' : List Call}
    {result' : Except Failure (List Step)} (h : Course cond plan log result)
    (h' : Course cond plan' log' result') (hbare : log.map Call.bare = log'.map Call.bare) (n : ℕ)
    (hplan : ∀ m, m ≠ n → plan[m]? = plan'[m]?) {t : Tool} {c d : CommandLine}
    (hc : plan[n]? = some (t, c)) (hd : plan'[n]? = some (t, d)) :
    AgreeBut (2 * n + 1) c d log log' := by
  have hlength : log.length = log'.length := by simpa using congrArg List.length hbare
  -- At each number both logs have a call or neither, and both calls have the same form.
  have hcalls (j : ℕ) (call : Call) (hj : log[j]? = some call) :
      ∃ call', log'[j]? = some call' ∧ call.bare = call'.bare := by
    have hboth := congrArg (·[j]?) hbare
    simp only [List.getElem?_map, hj, Option.map_some] at hboth
    obtain ⟨call', hj', heq⟩ := Option.map_eq_some_iff.mp hboth.symm
    exact ⟨call', hj', heq.symm⟩
  refine ⟨hlength, ?_, ?_⟩
  · intro j hne
    cases hj : log[j]? with
    | none =>
      rw [List.getElem?_eq_none_iff, hlength] at hj
      exact (List.getElem?_eq_none_iff.mpr hj).symm
    | some call =>
      obtain ⟨call', hj', heq⟩ := hcalls j call hj
      obtain ⟨u, e, hu, hcall⟩ := h.call_at hj
      obtain ⟨u', e', hu', hcall'⟩ := h'.call_at hj'
      rw [hj']
      rcases hcall with ⟨heven, found, rfl⟩ | ⟨hodd, answer, rfl⟩ <;>
        rcases hcall' with ⟨heven', found', rfl⟩ | ⟨hodd', answer', rfl⟩
      · simpa [Call.bare] using heq
      · omega
      · omega
      · have hm : j / 2 ≠ n := by omega
        rw [← hplan _ hm, hu] at hu'
        cases hu'
        simpa [Call.bare] using heq
  · intro call hj
    obtain ⟨call', hj', heq⟩ := hcalls _ call hj
    obtain ⟨u, e, hu, hcall⟩ := h.call_at hj
    obtain ⟨u', e', hu', hcall'⟩ := h'.call_at hj'
    rw [show (2 * n + 1) / 2 = n by omega] at hu hu'
    rw [hc] at hu
    rw [hd] at hu'
    cases hu
    cases hu'
    rcases hcall with ⟨heven, -⟩ | ⟨-, answer, rfl⟩
    · omega
    · rcases hcall' with ⟨heven', -⟩ | ⟨-, answer', rfl⟩
      · omega
      · simp only [Call.bare, Call.execution.injEq] at heq
        exact ⟨cond, answer, rfl, by rw [hj', heq.2.2]⟩

/-! ### The formatter's arguments -/

namespace Tool

/-- The formatter's arguments that stand before the flag of check mode. -/
def blackOptions (b : BlackTable) : List String :=
  ["--line-length", toString b.lineLength.toNat] ++
    if b.skipStringNormalization then ["--skip-string-normalization"] else []

/-- The formatter's arguments that stand after the flag of check mode. -/
def blackRest (b : BlackTable) : List String :=
  b.overrides.extraArgs ++ [b.target]

/-- **The formatter's command line**: check mode puts its flag between the options and the rest. -/
theorem blackLine_eq (b : BlackTable) (mode : Mode) :
    blackLine b mode =
      ⟨b.overrides.programOr "black",
        blackOptions b ++ (if mode.isCheck then [Mode.checkFlag] else []) ++ blackRest b⟩ := by
  simp [blackLine, blackFlags, blackOptions, blackRest, CommandLine.push, CommandLine.append, name]

theorem isDigit_of_mem_toString {n : ℕ} {c : Char} (h : c ∈ (toString n).toList) :
    c.isDigit = true := by
  rw [Nat.toString_eq_repr, Nat.repr, String.toList_ofList] at h
  exact Nat.isDigit_of_mem_toDigits (by decide) (by decide) h

/-- A number is not the flag. -/
theorem toString_ne_checkFlag (n : ℕ) : toString n ≠ Mode.checkFlag := by
  intro h
  have hdash : '-' ∈ (toString n).toList := by
    rw [h]
    decide
  exact absurd (isDigit_of_mem_toString hdash) (by decide)

theorem checkFlag_not_mem_blackOptions (b : BlackTable) : Mode.checkFlag ∉ blackOptions b := by
  intro h
  rw [blackOptions, List.mem_append] at h
  rcases h with h | h
  · rw [List.mem_cons, List.mem_singleton] at h
    rcases h with h | h
    · exact absurd h (by decide)
    · exact toString_ne_checkFlag _ h.symm
  · split at h
    · exact absurd h (by decide)
    · cases h

/-- **How often the flag of check mode stands among the formatter's arguments.** -/
theorem count_checkFlag (b : BlackTable) (mode : Mode) :
    (blackLine b mode).args.count Mode.checkFlag =
      (if mode = .check then 1 else 0) + b.overrides.extraArgs.count Mode.checkFlag +
        (if b.target = Mode.checkFlag then 1 else 0) := by
  have hoptions : (blackOptions b).count Mode.checkFlag = 0 :=
    List.count_eq_zero.mpr (checkFlag_not_mem_blackOptions b)
  have hflag : (if mode.isCheck then [Mode.checkFlag] else []).count Mode.checkFlag =
      if mode = .check then 1 else 0 := by
    cases mode <;> rfl
  have hrest : (blackRest b).count Mode.checkFlag =
      b.overrides.extraArgs.count Mode.checkFlag + if b.target = Mode.checkFlag then 1 else 0 := by
    rw [blackRest, List.count_append, List.count_singleton]
    simp only [beq_iff_eq]
  rw [blackLine_eq, List.count_append, List.count_append, hoptions, hflag, hrest]
  omega

end Tool

/-! ### Both modes -/

/-- The number of the call that executes the formatter, the second of the tools. -/
def formatterCall : ℕ := 2 * Tool.all.idxOf .black + 1

/-- Only the formatter's step of a plan depends on the mode. -/
theorem Settings.getElem?_plan (s : Settings) (m n : Mode) (i : ℕ) (hi : i ≠ Tool.all.idxOf .black) :
    (s.plan m)[i]? = (s.plan n)[i]? := by
  rw [plan, plan, List.getElem?_map, List.getElem?_map]
  cases ht : Tool.all[i]? with
  | none => rfl
  | some t =>
    have hblack : t ≠ .black := by
      rintro rfl
      apply hi
      match i with
      | 0 | 2 | 3 | i + 4 => cases ht
      | 1 => rfl
    rw [Option.map_some, Option.map_some, t.commandLine_mode hblack s m n]

/-- What a run comes to, without its mode, its command lines and the time that it took. -/
def Summary.ended (r : Summary) : List (Tool × Outcome) × Bool :=
  (r.steps.map Step.ended, r.activated)

namespace Pipeline

/-- **Both plans of some settings, performed after the same activation** by an oblivious performer from
states that are alike. -/
theorem performIn_modes {p : Performer σ} {alike : σ → σ → Prop} (hp : p.Oblivious alike)
    (settings : Settings) (root : Bytes) (limit : Option Duration) (env : Option Environment)
    {state state' : σ} (halike : alike state state') :
    let check := performIn p settings root limit env .check state
    let fix := performIn p settings root limit env .fix state'
    check.1.map Summary.ended = fix.1.map Summary.ended ∧
    ∃ checkLog fixLog,
      performIn p.recorded settings root limit env .check (state, []) =
        (check.1, check.2.1, check.2.2, checkLog) ∧
      performIn p.recorded settings root limit env .fix (state', []) =
        (fix.1, fix.2.1, fix.2.2, fixLog) ∧
      AgreeBut formatterCall (Tool.blackLine settings.black .check)
        (Tool.blackLine settings.black .fix) checkLog fixLog := by
  intro check fix
  let cond := conditions settings root limit env
  obtain ⟨checkLog, hcheck, hcheckRan⟩ := perform_recorded p cond (settings.plan .check) state
  obtain ⟨fixLog, hfix, hfixRan⟩ := perform_recorded p cond (settings.plan .fix) state'
  -- The calls are part of the states of the recording performer, so one induction compares both.
  have hprogram (t : Tool) :
      (t.commandLine settings .check).program = (t.commandLine settings .fix).program := by
    cases t <;> rfl
  have hran := performFrom_oblivious hp.recorded cond hprogram Tool.all [] [] rfl [] [] (state, [])
    (state', []) ⟨halike, rfl⟩
  have hperform (mode : Mode) (t : σ × List Call) :
      performFrom p.recorded cond [] [] t (Tool.all.map fun u => (u, u.commandLine settings mode)) =
        perform p.recorded cond (settings.plan mode) t := rfl
  simp only [hperform, hcheckRan, hfixRan] at hran
  obtain ⟨hended, -, hbare⟩ := hran
  have hagree := hcheck.agreeBut hfix hbare (Tool.all.idxOf .black) (settings.getElem?_plan _ _)
    (t := .black) rfl rfl
  refine ⟨?_, checkLog, fixLog, ?_, ?_, hagree⟩
  · simp only [check, fix, performIn]
    generalize (perform p cond (settings.plan .check) state).result = steps at hended ⊢
    generalize (perform p cond (settings.plan .fix) state').result = steps' at hended ⊢
    cases steps <;> cases steps' <;> simp only [Except.map, reduceCtorEq] at hended ⊢
    · rw [Except.error.inj hended]
    · rw [Summary.ended, Summary.ended, Except.ok.inj hended]
  · simp only [check, performIn, cond, hcheckRan]
  · simp only [fix, performIn, cond, hfixRan]

/-- A run with a proper time limit performs its plan after the activation. -/
theorem runWith_of_limit (launcher : Launcher) (p : Performer σ) (start : Host.FileTree → σ)
    {settings : Settings} {limit : Option Duration} (hlimit : settings.limit = .ok limit)
    (root : Bytes) (mode : Mode) (s : Surroundings) :
    runWith launcher p start settings root mode s =
      let activated := activate launcher s root (Text.bytes settings.pipeline.activate)
        settings.pipeline.shell
      let ran := performIn p settings root limit activated.env mode (start activated.files)
      (ran.1.mapError .failed, activated.events ++ ran.2.1, ran.2.2) := by
  simp only [runWith, hlimit]

/-- **A run in check mode and one in fix mode.** With the same settings, root and result of the
activation, and from states of an oblivious performer that are alike, both end with the same failure or
with the same tools and outcomes. Their calls agree one by one but for the formatter's, where check
mode puts its flag between the options and the other arguments. -/
theorem runWith_modes {p : Performer σ} {alike : σ → σ → Prop} (hp : p.Oblivious alike)
    (settings : Settings) (root : Bytes) (launcher launcher' : Launcher) (s s' : Surroundings)
    (start start' : Host.FileTree → σ) :
    let script := Text.bytes settings.pipeline.activate
    let activated := activate launcher s root script settings.pipeline.shell
    let activated' := activate launcher' s' root script settings.pipeline.shell
    activated.env = activated'.env → alike (start activated.files) (start' activated'.files) →
    let check := runWith launcher p start settings root .check s
    let fix := runWith launcher' p start' settings root .fix s'
    let b := settings.black
    let program := b.overrides.programOr "black"
    check.1.map Summary.ended = fix.1.map Summary.ended ∧
    (∃ checkLog fixLog,
      runWith launcher p.recorded (fun files => (start files, [])) settings root .check s =
        (check.1, check.2.1, check.2.2, checkLog) ∧
      runWith launcher' p.recorded (fun files => (start' files, [])) settings root .fix s' =
        (fix.1, fix.2.1, fix.2.2, fixLog) ∧
      AgreeBut formatterCall
        ⟨program, Tool.blackOptions b ++ Mode.checkFlag :: Tool.blackRest b⟩
        ⟨program, Tool.blackOptions b ++ Tool.blackRest b⟩ checkLog fixLog) ∧
    ∀ mode, (Tool.black.commandLine settings mode).args.count Mode.checkFlag =
      (if mode = .check then 1 else 0) + b.overrides.extraArgs.count Mode.checkFlag +
        if b.target = Mode.checkFlag then 1 else 0 := by
  intro script activated activated' henv hstart check fix b program
  have hcheckLine : Tool.blackLine b .check =
      ⟨program, Tool.blackOptions b ++ Mode.checkFlag :: Tool.blackRest b⟩ := by
    rw [Tool.blackLine_eq, List.append_assoc]
    rfl
  have hfixLine : Tool.blackLine b .fix = ⟨program, Tool.blackOptions b ++ Tool.blackRest b⟩ := by
    rw [Tool.blackLine_eq, List.append_assoc]
    rfl
  rw [← hcheckLine, ← hfixLine, ← and_assoc]
  refine ⟨?_, Tool.count_checkFlag b⟩
  -- The limit is read after the activation; only with one are there any steps.
  cases hlimit : settings.limit with
  | error h =>
    refine ⟨?_, [], [], ?_, ?_, rfl, fun _ _ => rfl, fun _ hcall => nomatch hcall⟩ <;>
      simp only [check, fix, runWith, hlimit]
  | ok limit =>
    obtain ⟨hended, checkLog, fixLog, hcheckLog, hfixLog, hagree⟩ :=
      performIn_modes hp settings root limit activated.env hstart
    rw [henv] at hfixLog
    refine ⟨?_, checkLog, fixLog, ?_, ?_, hagree⟩
    · have hmap {α β γ δ : Type} (f : α → β) (g : γ → δ) (x : Except γ α) :
          (x.mapError g).map f = (x.map f).mapError g := by cases x <;> rfl
      simp only [check, fix, runWith_of_limit _ _ _ hlimit, hmap]
      rw [hended, henv]
    · simp only [check, runWith_of_limit _ _ _ hlimit]
      rw [hcheckLog]
    · simp only [fix, runWith_of_limit _ _ _ hlimit]
      rw [hfixLog]

/-- A performer that keeps every command line and fails each third one. -/
def thirdFails : Performer (List CommandLine) where
  available _ _ s := (true, s)
  execute c _ s := (.ok { exitCode := if s.length % 3 = 2 then 1 else 0 }, [], s ++ [c])

theorem thirdFails_oblivious :
    thirdFails.Oblivious fun s t => s.map CommandLine.program = t.map CommandLine.program where
  available _ _ _ _ h := ⟨rfl, h⟩
  execute hprogram _ s t h := by
    have hlength : s.length = t.length := by simpa using congrArg List.length h
    exact ⟨by simp [thirdFails, hlength], by simp [thirdFails, h, hprogram]⟩

/-- A target that looks like the flag is not lost in check mode, and changes nothing else. -/
theorem runWith_modes_flagged :
    let settings : Settings := { black := { target := "--check" } }
    let run := fun mode => runWith Launcher.real thirdFails (fun _ => []) settings [] mode default
    (run .check).1.map Summary.ended = (run .fix).1.map Summary.ended ∧
      (Tool.black.commandLine settings .check).args.count "--check" = 2 := by
  intro settings run
  obtain ⟨hended, -, hcount⟩ := runWith_modes thirdFails_oblivious settings [] Launcher.real
    Launcher.real default default (fun _ => []) (fun _ => []) rfl rfl
  exact ⟨hended, (hcount .check).trans (by decide)⟩

end Pipeline
end QualityGate
