import QualityGate.Proofs.Run.Modes
/-!
## What a run announces

Where the output of the tools is not kept back, the command line of each is announced before it is
executed.

* `performFrom_keeps`: what every step of a sequence keeps up between the events and the state, the
  whole sequence keeps up.
* `Course.stops`: a course that does not execute its whole plan ends with a call that stops it.
* `Pipeline.run_announces`: the command lines that a run announces are those that it executes.
-/

namespace QualityGate

open Console (Event inColour plain dim)

variable {σ : Type}

/-! ### Lines -/

/-- The text of a line on standard error. -/
def Console.Event.errLine? : Event → Option String
  | .err line => some (Console.render false line)
  | _ => none

/-- **The lines that the program shows on standard error**, apart from its log. -/
def errLines (events : List Event) : List String :=
  events.filterMap Event.errLine?

@[simp] theorem errLines_nil : errLines [] = [] := rfl

@[simp] theorem errLines_append (front back : List Event) :
    errLines (front ++ back) = errLines front ++ errLines back :=
  List.filterMap_append

@[simp] theorem errLines_err (line : List Console.Piece) (events : List Event) :
    errLines (.err line :: events) = Console.render false line :: errLines events := rfl

@[simp] theorem errLines_log (record : Console.Record) (events : List Event) :
    errLines (.log record :: events) = errLines events := rfl

/-! ### Announcements -/

/-- **The command line that an event announces.** -/
def announced? : Event → Option String
  | .err [mark, gap, line] =>
    if mark = inColour .cyan "•" ∧ gap = plain " " ∧ line = dim line.text then some line.text else none
  | _ => none

theorem announced?_announcement (c : CommandLine) : announced? (announcement c) = some c.render := by
  simp [announced?, announcement, dim]

theorem announced?_verdict (tool : Tool) (o : Outcome) : announced? (verdict tool o) = none := by
  unfold verdict
  split
  · rfl
  · split <;> rfl

/-- Without a line of the program nothing is announced. -/
theorem filterMap_announced?_of_errLines {events : List Event} (h : errLines events = []) :
    events.filterMap announced? = [] := by
  rw [errLines, List.filterMap_eq_nil_iff] at h
  rw [List.filterMap_eq_nil_iff]
  intro event hevent
  have hline := h event hevent
  cases event with
  | err line => cases hline
  | _ => rfl

/-! ### What a sequence keeps up -/

/-- **What every step keeps up** between the events so far and the state of the performer. -/
structure Performer.Keeps (p : Performer σ) (cond : Conditions) (I : List Event → σ → Prop) :
    Prop where
  available (program : String) {shown : List Event} {s : σ} (h : I shown s) :
    I shown (p.available program cond s).2
  execute (c : CommandLine) {shown : List Event} {s : σ} (h : I shown s) :
    I ((if cond.capture then shown else shown ++ [announcement c]) ++ (p.execute c cond s).2.1)
      (p.execute c cond s).2.2
  verdict (tool : Tool) (o : Outcome) {shown : List Event} {s : σ} (h : I shown s) :
    I (shown ++ [verdict tool o]) s

/-- **What every step keeps up, the whole sequence keeps up.** -/
theorem performFrom_keeps {p : Performer σ} {cond : Conditions} {I : List Event → σ → Prop}
    (hp : p.Keeps cond I) (plan : List (Tool × CommandLine)) (done : List Step) (shown : List Event)
    (s : σ) (h : I shown s) :
    I (performFrom p cond done shown s plan).events (performFrom p cond done shown s plan).state := by
  induction plan generalizing done shown s with
  | nil => exact h
  | cons step rest ih =>
    -- the cases are those in which a sequence goes on or ends; only the last one has steps left
    obtain ⟨t, c⟩ := step
    have hfound := hp.available c.program h
    rcases havailable : p.available c.program cond s with ⟨found, s1⟩
    rw [havailable] at hfound
    cases found with
    | false =>
      simp only [performFrom, havailable]
      exact hfound
    | true =>
      have hexecuted := hp.execute c hfound
      rcases hanswer : p.execute c cond s1 with ⟨answer, events, s2⟩
      rw [hanswer] at hexecuted
      cases answer with
      | error f =>
        simp only [performFrom, havailable, hanswer]
        exact hexecuted
      | ok o =>
        have hverdict := hp.verdict t o hexecuted
        cases hpassed : o.passed with
        | false =>
          simp only [performFrom, havailable, hanswer, hpassed]
          exact hverdict
        | true =>
          simp only [performFrom, havailable, hanswer, hpassed]
          exact ih _ _ _ hverdict

/-! ### Executed and announced -/

/-- What holds of every call that a performer can answer holds of all that are written down. -/
theorem Performer.keeps_calls (p : Performer σ) (cond : Conditions) {Q : Call → Prop}
    (hlookup : ∀ program found, Q (.lookup program cond found))
    (hexecution : ∀ c s, Q (.execution c cond (p.execute c cond s).1)) :
    p.recorded.Keeps cond fun _ t => ∀ call ∈ t.2, Q call where
  available program _ _ h :=
    List.forall_mem_append.mpr ⟨h, List.forall_mem_singleton.mpr (hlookup program _)⟩
  execute c _ t h :=
    List.forall_mem_append.mpr ⟨h, List.forall_mem_singleton.mpr (hexecution c t.1)⟩
  verdict _ _ _ _ h := h

/-- **The announced command lines are the executed ones**, unless output is kept back: then none is
announced. -/
def Announces (cond : Conditions) (shown : List Event) (log : List Call) : Prop :=
  shown.filterMap announced? =
    if cond.capture then [] else (log.filterMap Call.executed?).map CommandLine.render

/-- A performer that shows no lines itself. -/
def Performer.Silent (p : Performer σ) : Prop :=
  ∀ c cond s, errLines (p.execute c cond s).2.1 = []

/-- A call that executes nothing, passes an outcome on, or fails because no process could be started. -/
def Call.ByProcess : Call → Prop
  | execution c _ (.error f) => ∃ fault, f = .io ("spawn " ++ c.program) fault
  | _ => True

/-- **A performer that leaves the announcing to the sequence**, and fails only where a process cannot be
started. -/
structure Performer.ByProcess (p : Performer σ) : Prop where
  silent : p.Silent
  fails (c : CommandLine) (cond : Conditions) (s : σ) :
    (Call.execution c cond (p.execute c cond s).1).ByProcess

/-- Over such a performer the calls are announced step by step. -/
theorem Performer.ByProcess.keeps {p : Performer σ} (hp : p.ByProcess) (cond : Conditions) :
    p.recorded.Keeps cond fun shown t => Announces cond shown t.2 where
  available program shown t h := by
    simpa [Announces, Performer.recorded, List.filterMap_cons, Call.executed?] using h
  execute c shown t h := by
    have hsilent := filterMap_announced?_of_errLines (hp.silent c cond t.1)
    unfold Announces at h ⊢
    cases hcapture : cond.capture with
    | true => simpa [hcapture, Performer.recorded, hsilent] using h
    | false =>
      -- the announcement and the call are added together, one to the events and one to the calls
      rw [hcapture] at h
      simp [Performer.recorded, hsilent, Call.executed?, announced?_announcement, h]
  verdict tool o shown t h := by simpa [Announces, announced?_verdict] using h

/-! ### Processes -/

/-- Processes show no lines of the program. -/
theorem Launched.silent (launcher : Launcher) : (performer launcher).Silent := by
  intro c cond s
  simp only [performer, execute]
  cases launcher (launch c cond) s with
  | error fault => rfl
  | ok l =>
    have hkept (name text : String) : errLines (kept name c text) = [] := by
      unfold kept
      split <;> rfl
    have hend (o : Outcome) : errLines (endRecords c cond l o) = [] := by
      unfold endRecords
      split
      · split <;> rfl
      · simp [record, hkept]
    cases cond.capture with
    | true => simpa [record] using hend _
    | false => exact hend _

/-- Processes announce nothing themselves, and fail only to start. -/
theorem Launched.byProcess (launcher : Launcher) : (performer launcher).ByProcess where
  silent := Launched.silent launcher
  fails c cond s := by
    simp only [performer, execute]
    cases launcher (launch c cond) s with
    | error fault => exact ⟨fault, rfl⟩
    | ok l => trivial

/-- An activation shows no lines. -/
theorem errLines_activate (launcher : Launcher) (s : Surroundings) (root relative : Bytes)
    (shell : String) : errLines (activate launcher s root relative shell).events = [] := by
  unfold activate
  dsimp only
  split
  · split <;> rfl
  · rfl

/-! ### Where a course stops -/

/-- **A call after which no other is made**: the program is missing, no process can be started, or the
tool does not pass. -/
inductive Call.Stops : Call → Prop
  | missing (program : String) (cond : Conditions) : Stops (.lookup program cond false)
  | unstartable (c : CommandLine) (cond : Conditions) (fault : IoFault) :
    Stops (.execution c cond (.error (.io ("spawn " ++ c.program) fault)))
  | failed (c : CommandLine) (cond : Conditions) (o : Outcome) (h : o.passed = false) :
    Stops (.execution c cond (.ok o))

/-- **A course executes its whole plan or ends with a call that stops it.** -/
theorem Course.stops {cond : Conditions} {plan : List (Tool × CommandLine)} {log : List Call}
    {result : Except Failure (List Step)} (h : Course cond plan log result)
    (hlog : ∀ call ∈ log, call.ByProcess) :
    log.filterMap Call.executed? = plan.map Prod.snd ∨
      ∃ call, log.getLast? = some call ∧ call.Stops := by
  induction h with
  | complete => exact Or.inl rfl
  | missing t c rest => exact Or.inr ⟨_, rfl, .missing _ _⟩
  | faulted t c rest f =>
    obtain ⟨fault, rfl⟩ := hlog (.execution c cond (.error f)) (by simp)
    exact Or.inr ⟨_, rfl, .unstartable c cond fault⟩
  | stopped t c rest o ho => exact Or.inr ⟨_, rfl, .failed c cond o ho⟩
  | passed t c o ho hrest ih =>
    rcases ih (fun call hcall => hlog call (by simp [hcall])) with hall | ⟨call, hlast, hstops⟩
    · exact Or.inl (by simp [List.filterMap_cons, Call.executed?, hall])
    · exact Or.inr ⟨call, by simp [List.getLast?_cons, hlast], hstops⟩

/-! ### Runs -/

namespace Pipeline

/-- **The calls that a run makes**, written down by the same run. -/
def calls (launcher : Launcher) (settings : Settings) (mode : Mode) (s : Surroundings) : List Call :=
  (runWith launcher (Launched.performer launcher).recorded (fun files => ({ s with files := files }, []))
    settings s.cwd.path mode s).2.2.2

/-- Writing the calls down changes nothing that a run shows. -/
theorem runWith_recorded (launcher : Launcher) (settings : Settings) (mode : Mode) (s : Surroundings) :
    runWith launcher (Launched.performer launcher).recorded
        (fun files => ({ s with files := files }, [])) settings s.cwd.path mode s =
      ((run launcher settings mode s).summary, (run launcher settings mode s).events,
        (run launcher settings mode s).surroundings, calls launcher settings mode s) := by
  cases hlimit : settings.limit with
  | error h => simp only [run, calls, runWith, hlimit]
  | ok limit =>
    simp only [run, calls, runWith_of_limit _ _ _ hlimit]
    obtain ⟨log, -, -, -, hrecorded⟩ := performIn_recorded (Launched.performer launcher) settings
      s.cwd.path limit _ mode _
    rw [hrecorded]

section Performed

variable (launcher : Launcher) {settings : Settings} {limit : Option Duration}

/-- The activation with which a run starts. -/
def activation (settings : Settings) (s : Surroundings) : Activated :=
  activate launcher s s.cwd.path (Text.bytes settings.pipeline.activate) settings.pipeline.shell

/-- The conditions under which the steps of a run are performed after the activation. -/
def activeConditions (settings : Settings) (limit : Option Duration) (s : Surroundings) : Conditions :=
  conditions settings s.cwd.path limit (activation launcher settings s).env

/-- The surroundings that the activation leaves. -/
def activeSurroundings (settings : Settings) (s : Surroundings) : Surroundings :=
  { s with files := (activation launcher settings s).files }

theorem calls_of_limit (hlimit : settings.limit = .ok limit) (mode : Mode) (s : Surroundings) :
    calls launcher settings mode s =
      (perform (Launched.performer launcher).recorded (activeConditions launcher settings limit s)
        (settings.plan mode) (activeSurroundings launcher settings s, [])).state.2 := by
  simp only [calls, runWith_of_limit _ _ _ hlimit, performIn]
  rfl

/-- The steps that were performed make the summary, and the activation shows its events first. -/
theorem run_of_limit (hlimit : settings.limit = .ok limit) (mode : Mode) (s : Surroundings) :
    let ran := perform (Launched.performer launcher) (activeConditions launcher settings limit s)
      (settings.plan mode) (activeSurroundings launcher settings s)
    run launcher settings mode s =
      ⟨(ran.result.map fun steps =>
          { mode := mode, steps := steps
            activated := (activation launcher settings s).env.isSome
            elapsed := elapsed steps }).mapError .failed,
        (activation launcher settings s).events ++ ran.events, ran.state⟩ := by
  intro ran
  simp only [run, runWith_of_limit _ _ _ hlimit, performIn_eq]
  rfl

/-- What holds of the calls that processes can answer holds of the calls of a run. -/
theorem forall_mem_calls {Q : Call → Prop}
    (hlookup : ∀ program cond found, Q (.lookup program cond found))
    (hexecution : ∀ c cond s, Q (.execution c cond (Launched.execute launcher c cond s).1))
    (settings : Settings) (mode : Mode) (s : Surroundings) :
    ∀ call ∈ calls launcher settings mode s, Q call := by
  cases hlimit : settings.limit with
  | error h => simp [calls, runWith, hlimit]
  | ok limit =>
    rw [calls_of_limit launcher hlimit]
    exact performFrom_keeps ((Launched.performer launcher).keeps_calls _ (fun _ _ => hlookup _ _ _)
      fun _ _ => hexecution _ _ _) _ _ _ _ (by simp)

end Performed

/-- **A run executes the first command lines of its plan**, stopping early only after a call that stops
it, and announces what it executes unless output is kept back. -/
theorem run_announces (launcher : Launcher) {settings : Settings} {limit : Option Duration}
    (hlimit : settings.limit = .ok limit) (mode : Mode) (s : Surroundings) :
    let lines := (settings.plan mode).map Prod.snd
    let log := calls launcher settings mode s
    ∃ k ≤ 4, log.filterMap Call.executed? = lines.take k ∧
      (k < 4 → ∃ call, log.getLast? = some call ∧ call.Stops) ∧
      (run launcher settings mode s).events.filterMap announced? =
        if settings.pipeline.captureOutput then [] else (lines.take k).map CommandLine.render := by
  intro lines log
  let cond := activeConditions launcher settings limit s
  let state := activeSurroundings launcher settings s
  obtain ⟨made, hcourse, hrecorded⟩ :=
    perform_recorded (Launched.performer launcher) cond (settings.plan mode) state
  have hlog : log = made := (calls_of_limit launcher hlimit mode s).trans
    (congrArg (fun ran => ran.state.2) hrecorded)
  -- The calls are part of the state of the recording performer, so one invariant ties them to the events.
  have hannounces := performFrom_keeps ((Launched.byProcess launcher).keeps cond) (settings.plan mode)
    [] [] (state, []) (by simp [Announces])
  rw [← perform, hrecorded] at hannounces
  have hbyProcess : ∀ call ∈ made, call.ByProcess := by
    rw [← hlog]
    exact forall_mem_calls launcher (fun _ _ _ => trivial) (Launched.byProcess launcher).fails _ _ _
  have hprefix := hcourse.executed_isPrefix
  have hlength : lines.length = 4 := rfl
  refine ⟨(made.filterMap Call.executed?).length, ?_, ?_, ?_, ?_⟩
  · exact hlength ▸ hprefix.length_le
  · rw [hlog]
    exact List.prefix_iff_eq_take.mp hprefix
  · intro hk
    rcases hcourse.stops hbyProcess with hall | hstops
    · rw [hall] at hk
      exact absurd hlength (Nat.ne_of_lt hk)
    · rwa [hlog]
  · rw [run_of_limit launcher hlimit, List.filterMap_append, activation,
      filterMap_announced?_of_errLines (errLines_activate _ _ _ _ _), List.nil_append, hannounces,
      ← List.prefix_iff_eq_take.mp hprefix]
    rfl

end Pipeline
end QualityGate
