import Mathlib.Data.List.Basic
import QualityGate.Session.Pipeline
/-!
The course of a run. A performer can write down every call that is made to it (`Performer.recorded`)
without changing what it answers (`perform_recorded`). The calls and the result of a sequence of steps
then form a `Course`, one constructor for each way in which a sequence goes on or ends, and the calls
alone determine the result (`Course.unique`).

`runWith_accounted` reads a whole run off its calls: the executed command lines are the first ones of
the plan, all calls are made under the same conditions, and the result is an error exactly after a
look-up without success or an execution that failed to start. The only runs outside this account are
those whose time limit has a sum out of range; `runWith_overflow` is one of them.
-/

namespace QualityGate

variable {σ : Type}

/-! ### Recorded calls -/

/-- **A call to a performer**, with its conditions and its answer. -/
inductive Call where
  | lookup (program : String) (cond : Conditions) (found : Bool)
  | execution (line : CommandLine) (cond : Conditions) (answer : Except Failure Outcome)

namespace Call

/-- The conditions under which a call is made. -/
def conditions : Call → Conditions
  | lookup _ cond _ => cond
  | execution _ cond _ => cond

/-- The command line that a call executes. -/
def executed? : Call → Option CommandLine
  | lookup _ _ _ => none
  | execution c _ _ => some c

end Call

/-- **The same performer, writing down its calls** after those of its state. -/
def Performer.recorded (p : Performer σ) : Performer (σ × List Call) where
  available program cond s :=
    let (found, t) := p.available program cond s.1
    (found, t, s.2 ++ [.lookup program cond found])
  execute c cond s :=
    let (answer, events, t) := p.execute c cond s.1
    (answer, events, t, s.2 ++ [.execution c cond answer])

theorem Performer.available_recorded (p : Performer σ) (program : String) (cond : Conditions) (s : σ)
    (log : List Call) :
    p.recorded.available program cond (s, log) =
      ((p.available program cond s).1, (p.available program cond s).2,
        log ++ [.lookup program cond (p.available program cond s).1]) := rfl

theorem Performer.execute_recorded (p : Performer σ) (c : CommandLine) (cond : Conditions) (s : σ)
    (log : List Call) :
    p.recorded.execute c cond (s, log) =
      ((p.execute c cond s).1, (p.execute c cond s).2.1, (p.execute c cond s).2.2,
        log ++ [.execution c cond (p.execute c cond s).1]) := rfl

namespace Step

/-- The part of a step that its plan holds. -/
def planned (s : Step) : Tool × CommandLine :=
  (s.tool, s.commandLine)

/-- The calls of a step that was performed. -/
def calls (cond : Conditions) (s : Step) : List Call :=
  [.lookup s.commandLine.program cond true, .execution s.commandLine cond (.ok s.outcome)]

end Step

/-! ### Courses -/

/-- **The courses that the steps of a plan can take**, each with its calls and its result. -/
inductive Course (cond : Conditions) :
    List (Tool × CommandLine) → List Call → Except Failure (List Step) → Prop
  /-- No step is left. -/
  | complete : Course cond [] [] (.ok [])
  /-- The program of the next step is not found. -/
  | missing (t : Tool) (c : CommandLine) (rest : List (Tool × CommandLine)) :
    Course cond ((t, c) :: rest) [.lookup c.program cond false] (.error (.toolMissing c.program))
  /-- The next step cannot be executed. -/
  | faulted (t : Tool) (c : CommandLine) (rest : List (Tool × CommandLine)) (f : Failure) :
    Course cond ((t, c) :: rest)
      [.lookup c.program cond true, .execution c cond (.error f)] (.error f)
  /-- The next step does not pass. -/
  | stopped (t : Tool) (c : CommandLine) (rest : List (Tool × CommandLine)) (o : Outcome)
      (h : o.passed = false) :
    Course cond ((t, c) :: rest) [.lookup c.program cond true, .execution c cond (.ok o)]
      (.ok [⟨t, c, o⟩])
  /-- The next step passes, and the course goes on. -/
  | passed (t : Tool) (c : CommandLine) (o : Outcome) (h : o.passed = true)
      {rest : List (Tool × CommandLine)} {log : List Call} {result : Except Failure (List Step)} :
    Course cond rest log result →
      Course cond ((t, c) :: rest)
        (.lookup c.program cond true :: .execution c cond (.ok o) :: log)
        (result.map (⟨t, c, o⟩ :: ·))

/-- **Recording changes nothing that a sequence shows**, and what it writes down is a course with the
sequence's result. -/
theorem performFrom_recorded (p : Performer σ) (cond : Conditions)
    (plan : List (Tool × CommandLine)) (done : List Step) (shown : List Console.Event) (s : σ)
    (log : List Call) :
    ∃ more result, Course cond plan more result ∧
      (performFrom p cond done shown s plan).result = result.map (done ++ ·) ∧
      performFrom p.recorded cond done shown (s, log) plan =
        ⟨(performFrom p cond done shown s plan).result,
          (performFrom p cond done shown s plan).events,
          (performFrom p cond done shown s plan).state, log ++ more⟩ := by
  -- Each step adds to what was done, shown and written down before, so all of it is general.
  induction plan generalizing done shown s log with
  | nil => exact ⟨[], .ok [], .complete, by simp [performFrom, Except.map], by simp [performFrom]⟩
  | cons step rest ih =>
    obtain ⟨t, c⟩ := step
    rcases hfound : p.available c.program cond s with ⟨found, s1⟩
    cases found with
    | false =>
      refine ⟨_, _, .missing t c rest, ?_, ?_⟩ <;>
        simp [performFrom, Performer.available_recorded, hfound, Except.map]
    | true =>
      rcases hanswer : p.execute c cond s1 with ⟨answer, events, s2⟩
      cases answer with
      | error f =>
        refine ⟨_, _, .faulted t c rest f, ?_, ?_⟩ <;>
          simp [performFrom, Performer.available_recorded, Performer.execute_recorded, hfound, hanswer,
            Except.map]
      | ok o =>
        cases hpassed : o.passed with
        | false =>
          refine ⟨_, _, .stopped t c rest o hpassed, ?_, ?_⟩ <;>
            simp [performFrom, Performer.available_recorded, Performer.execute_recorded, hfound,
              hanswer, hpassed, Except.map]
        | true =>
          obtain ⟨more, result, hcourse, hresult, hrecorded⟩ := ih (done ++ [⟨t, c, o⟩])
            ((if cond.capture then shown else shown ++ [announcement c]) ++ events ++ [verdict t o])
            s2 (log ++ [.lookup c.program cond true, .execution c cond (.ok o)])
          refine ⟨_, _, .passed t c o hpassed hcourse, ?_, ?_⟩
          · simp only [performFrom, hfound, hanswer, hpassed, ↓reduceIte, hresult]
            cases result <;> simp [Except.map]
          · simp only [performFrom, Performer.available_recorded, Performer.execute_recorded, hfound,
              hanswer, hpassed, ↓reduceIte]
            simpa using hrecorded

/-- The calls of a run of `perform` form a course with its result. -/
theorem perform_recorded (p : Performer σ) (cond : Conditions) (plan : List (Tool × CommandLine))
    (s : σ) :
    ∃ log, Course cond plan log (perform p cond plan s).result ∧
      perform p.recorded cond plan (s, []) =
        ⟨(perform p cond plan s).result, (perform p cond plan s).events,
          (perform p cond plan s).state, log⟩ := by
  obtain ⟨log, result, hcourse, hresult, hrecorded⟩ :=
    performFrom_recorded p cond plan [] [] s []
  have hmap : result.map ([] ++ ·) = result := by cases result <;> rfl
  rw [hmap] at hresult
  exact ⟨log, by rw [perform, hresult]; exact hcourse, hrecorded⟩

/-! ### What the calls tell -/

section Account

variable (cond : Conditions) (plan : List (Tool × CommandLine)) (log : List Call)

/-- Some first steps of the plan passed, and then the next one's program, which is `program`, was not
found. -/
def Missed (program : String) : Prop :=
  ∃ (steps : List Step) (t : Tool) (c : CommandLine), (∀ step ∈ steps, step.passed = true) ∧
    steps.map Step.planned ++ [(t, c)] <+: plan ∧ c.program = program ∧
    log = steps.flatMap (Step.calls cond) ++ [.lookup program cond false]

/-- Some first steps of the plan passed, and then the execution of the next one gave `f`. -/
def Faulted (f : Failure) : Prop :=
  ∃ (steps : List Step) (t : Tool) (c : CommandLine), (∀ step ∈ steps, step.passed = true) ∧
    steps.map Step.planned ++ [(t, c)] <+: plan ∧
    log = steps.flatMap (Step.calls cond) ++
      [.lookup c.program cond true, .execution c cond (.error f)]

/-- The steps are the executed ones: all of the plan, every one of them passing, or the first ones up
to the only one that does not pass. -/
def Finished (steps : List Step) : Prop :=
  log = steps.flatMap (Step.calls cond) ∧
    ((steps.map Step.planned = plan ∧ ∀ step ∈ steps, step.passed = true) ∨
      ∃ front last, steps = front ++ [last] ∧ steps.map Step.planned <+: plan ∧
        (∀ step ∈ front, step.passed = true) ∧ last.passed = false)

end Account

variable {cond : Conditions} {plan : List (Tool × CommandLine)} {log : List Call}
  {result : Except Failure (List Step)}

namespace Course

/-- **The calls determine the result.** -/
theorem unique {other : Except Failure (List Step)} (h : Course cond plan log result)
    (h' : Course cond plan log other) : result = other := by
  induction h generalizing other with
  | complete => cases h'; rfl
  | missing t c rest => cases h'; rfl
  | faulted t c rest f => cases h'; rfl
  | stopped t c rest o ho =>
    cases h' with
    | stopped => rfl
    | passed _ _ _ ho' => simp [ho] at ho'
  | passed t c o ho hrest ih =>
    cases h' with
    | stopped _ _ _ _ ho' => simp [ho] at ho'
    | passed _ _ _ _ hrest' => rw [ih hrest']

/-- The executed command lines are the first ones of the plan. -/
theorem executed_isPrefix (h : Course cond plan log result) :
    log.filterMap Call.executed? <+: plan.map Prod.snd := by
  induction h with
  | complete => exact List.prefix_rfl
  | missing t c rest => exact List.nil_prefix
  | faulted t c rest f => simp [List.filterMap_cons, Call.executed?]
  | stopped t c rest o ho => simp [List.filterMap_cons, Call.executed?]
  | passed t c o ho hrest ih => simpa [List.filterMap_cons, Call.executed?] using ih

/-- All calls are made under the same conditions. -/
theorem conditions_eq (h : Course cond plan log result) : ∀ call ∈ log, call.conditions = cond := by
  induction h with
  | complete => simp
  | passed t c o ho hrest ih => simpa [Call.conditions] using ih
  | _ => simp [Call.conditions]

/-- A course may be preceded by steps that pass. -/
theorem append (h : Course cond plan log result) (steps : List Step)
    (hsteps : ∀ step ∈ steps, step.passed = true) :
    Course cond (steps.map Step.planned ++ plan) (steps.flatMap (Step.calls cond) ++ log)
      (result.map (steps ++ ·)) := by
  induction steps with
  | nil =>
    have hmap : result.map ([] ++ ·) = result := by cases result <;> rfl
    rw [hmap]
    exact h
  | cons step steps ih =>
    obtain ⟨hstep, hsteps⟩ := List.forall_mem_cons.mp hsteps
    have hnext := Course.passed step.tool step.commandLine step.outcome hstep (ih hsteps)
    have hmap : (result.map (steps ++ ·)).map (step :: ·) = result.map (step :: steps ++ ·) := by
      cases result <;> rfl
    rw [← hmap]
    exact hnext

end Course

theorem Missed.course {program : String} (h : Missed cond plan log program) :
    Course cond plan log (.error (.toolMissing program)) := by
  obtain ⟨steps, t, c, hsteps, ⟨rest, rfl⟩, rfl, rfl⟩ := h
  rw [List.append_assoc]
  exact (Course.missing t c rest).append steps hsteps

theorem Faulted.course {f : Failure} (h : Faulted cond plan log f) :
    Course cond plan log (.error f) := by
  obtain ⟨steps, t, c, hsteps, ⟨rest, rfl⟩, rfl⟩ := h
  rw [List.append_assoc]
  exact (Course.faulted t c rest f).append steps hsteps

namespace Course

/-- A failed course looked in vain for a program, or its last execution gave the failure. -/
theorem missed_or_faulted {f : Failure} (h : Course cond plan log (.error f)) :
    (∃ program, f = .toolMissing program ∧ Missed cond plan log program) ∨
      Faulted cond plan log f := by
  -- the result is a variable for the induction, with what it is equal to beside it
  generalize hresult : Except.error f = result at h
  induction h with
  | complete => cases hresult
  | missing t c rest =>
    cases hresult
    exact Or.inl ⟨_, rfl, [], t, c, by simp, ⟨rest, rfl⟩, rfl, rfl⟩
  | faulted t c rest f' =>
    cases hresult
    exact Or.inr ⟨[], t, c, by simp, ⟨rest, rfl⟩, rfl⟩
  | stopped t c rest o ho => cases hresult
  | @passed t c o ho rest log result hrest ih =>
    cases result with
    | ok steps => cases hresult
    | error f' =>
      cases hresult
      rcases ih rfl with ⟨program, rfl, steps, t', c', hsteps, hprefix, hprogram, rfl⟩ |
        ⟨steps, t', c', hsteps, hprefix, rfl⟩
      · exact Or.inl ⟨program, rfl, ⟨t, c, o⟩ :: steps, t', c',
          List.forall_mem_cons.mpr ⟨ho, hsteps⟩, List.cons_prefix_cons.mpr ⟨rfl, hprefix⟩, hprogram, rfl⟩
      · exact Or.inr ⟨⟨t, c, o⟩ :: steps, t', c', List.forall_mem_cons.mpr ⟨ho, hsteps⟩,
          List.cons_prefix_cons.mpr ⟨rfl, hprefix⟩, rfl⟩

/-- The steps of a course without failure are the executed ones, and only the last may not pass. -/
theorem finished {steps : List Step} (h : Course cond plan log (.ok steps)) :
    Finished cond plan log steps := by
  generalize hresult : Except.ok steps = result at h
  induction h generalizing steps with
  | complete =>
    cases hresult
    exact ⟨rfl, Or.inl ⟨rfl, by simp⟩⟩
  | missing t c rest => cases hresult
  | faulted t c rest f => cases hresult
  | stopped t c rest o ho =>
    cases hresult
    exact ⟨rfl, Or.inr ⟨[], ⟨t, c, o⟩, rfl, ⟨rest, rfl⟩, by simp, ho⟩⟩
  -- the step passed, so it stands in front of those that the rest of the course gives
  | @passed t c o ho rest log result hrest ih =>
    cases result with
    | error f => cases hresult
    | ok later =>
      cases hresult
      obtain ⟨rfl, ⟨hplan, hlater⟩ | ⟨front, last, rfl, hprefix, hfront, hlast⟩⟩ := ih rfl
      · exact ⟨rfl, Or.inl ⟨by simp [Step.planned, hplan], List.forall_mem_cons.mpr ⟨ho, hlater⟩⟩⟩
      · exact ⟨rfl, Or.inr ⟨⟨t, c, o⟩ :: front, last, rfl, List.cons_prefix_cons.mpr ⟨rfl, hprefix⟩,
          List.forall_mem_cons.mpr ⟨ho, hfront⟩, hlast⟩⟩

/-- **A course fails exactly after a look-up in vain or an execution that gave the failure.** -/
theorem error_iff (h : Course cond plan log result) (f : Failure) :
    result = .error f ↔ (∃ program, f = .toolMissing program ∧ Missed cond plan log program) ∨
      Faulted cond plan log f := by
  constructor
  · rintro rfl
    exact h.missed_or_faulted
  · rintro (⟨program, rfl, hmissed⟩ | hfaulted)
    · exact h.unique hmissed.course
    · exact h.unique hfaulted.course

/-- **A course gives steps exactly when nothing was looked for in vain or failed to execute.** -/
theorem ok_iff (h : Course cond plan log result) :
    (∃ steps, result = .ok steps) ↔
      (¬ ∃ program, Missed cond plan log program) ∧ ¬ ∃ f, Faulted cond plan log f := by
  cases result with
  | error f =>
    constructor
    · rintro ⟨steps, hsteps⟩
      cases hsteps
    · rintro ⟨hmissed, hfaulted⟩
      rcases h.missed_or_faulted with ⟨program, -, hprogram⟩ | hf
      · exact absurd ⟨program, hprogram⟩ hmissed
      · exact absurd ⟨f, hf⟩ hfaulted
  | ok steps =>
    refine ⟨fun _ => ⟨?_, ?_⟩, fun _ => ⟨steps, rfl⟩⟩
    · rintro ⟨program, hmissed⟩
      cases h.unique hmissed.course
    · rintro ⟨f, hfaulted⟩
      cases h.unique hfaulted.course

end Course

/-! ### Runs of the pipeline -/

namespace Pipeline

open Settings in
/-- A time limit can be out of range, but nothing else is wrong with it. -/
theorem limit_error {settings : Settings} {h : Halt} (hlimit : settings.limit = .error h) :
    h = .overflow := by
  unfold limit at hlimit
  split at hlimit
  · cases hlimit
  · split at hlimit <;> cases hlimit
    rfl

/-- The steps that were performed make the summary. -/
theorem performIn_eq (p : Performer σ) (settings : Settings) (root : Bytes) (limit : Option Duration)
    (env : Option Environment) (mode : Mode) (state : σ) :
    let ran := perform p (conditions settings root limit env) (settings.plan mode) state
    performIn p settings root limit env mode state =
      (ran.result.map fun steps =>
        { mode := mode, steps := steps, activated := env.isSome, elapsed := elapsed steps },
        ran.events, ran.state) := by
  simp only [performIn]
  cases (perform p (conditions settings root limit env) (settings.plan mode) state).result <;> rfl

/-- A run of `performIn` with recorded calls, which form a course. -/
theorem performIn_recorded (p : Performer σ) (settings : Settings) (root : Bytes)
    (limit : Option Duration) (env : Option Environment) (mode : Mode) (state : σ) :
    ∃ log result, Course (conditions settings root limit env) (settings.plan mode) log result ∧
      (performIn p settings root limit env mode state).1 = result.map (fun steps =>
        { mode := mode, steps := steps, activated := env.isSome, elapsed := elapsed steps }) ∧
      performIn p.recorded settings root limit env mode (state, []) =
        ((performIn p settings root limit env mode state).1,
          (performIn p settings root limit env mode state).2.1,
          (performIn p settings root limit env mode state).2.2, log) := by
  obtain ⟨log, hcourse, hrecorded⟩ :=
    perform_recorded p (conditions settings root limit env) (settings.plan mode) state
  refine ⟨log, _, hcourse, ?_, ?_⟩
  · rw [performIn_eq]
  · rw [performIn_eq, performIn_eq, hrecorded]

/-- **A run, read off the calls that it makes.** -/
theorem runWith_accounted (launcher : Launcher) (p : Performer σ) (start : Host.FileTree → σ)
    (settings : Settings) (root : Bytes) (mode : Mode) (s : Surroundings) :
    let (summary, events, state) := runWith launcher p start settings root mode s
    let plan := settings.plan mode
    ∃ log,
      runWith launcher p.recorded (fun files => (start files, [])) settings root mode s =
        (summary, events, state, log) ∧
      match settings.limit with
      | .error h => h = .overflow ∧ summary = .error h ∧ log = []
      | .ok limit =>
        let cond : Conditions :=
          { cwd := some root
            limit := limit
            env := (activate launcher s root (Text.bytes settings.pipeline.activate)
              settings.pipeline.shell).env
            capture := settings.pipeline.captureOutput }
        (∃ k ≤ 4, log.filterMap Call.executed? = (plan.map Prod.snd).take k) ∧
        (∀ call ∈ log, call.conditions = cond) ∧
        (∀ f, summary = .error (.failed f) ↔
          (∃ program, f = .toolMissing program ∧ Missed cond plan log program) ∨
            Faulted cond plan log f) ∧
        ((∃ r, summary = .ok r) ↔
          (¬ ∃ program, Missed cond plan log program) ∧ ¬ ∃ f, Faulted cond plan log f) ∧
        ∀ r, summary = .ok r →
          Finished cond plan log r.steps ∧
          (r.exitCode = 0 →
            r.steps.map Step.planned = plan ∧ ∀ step ∈ r.steps, step.passed = true) := by
  rcases hrun : runWith launcher p start settings root mode s with ⟨summary, events, state⟩
  -- The limit is read after the activation; only with one are there any steps.
  cases hlimit : settings.limit with
  | error h =>
    simp only [runWith, hlimit, Prod.mk.injEq] at hrun
    obtain ⟨rfl, rfl, rfl⟩ := hrun
    exact ⟨[], by simp only [runWith, hlimit], limit_error hlimit, rfl, rfl⟩
  | ok limit =>
    obtain ⟨log, result, hcourse, hsummary, hrecorded⟩ := performIn_recorded p settings root limit
      (activate launcher s root (Text.bytes settings.pipeline.activate) settings.pipeline.shell).env
      mode (start (activate launcher s root (Text.bytes settings.pipeline.activate)
        settings.pipeline.shell).files)
    rw [conditions] at hcourse
    simp only [runWith, hlimit, Prod.mk.injEq] at hrun
    obtain ⟨hsum, rfl, rfl⟩ := hrun
    rw [hsummary] at hsum
    refine ⟨log, ?_, ?_, hcourse.conditions_eq, ?_, ?_, ?_⟩
    · simp only [runWith, hlimit, hrecorded, ← hsum, hsummary]
    · have hprefix := hcourse.executed_isPrefix
      exact ⟨_, hprefix.length_le, List.prefix_iff_eq_take.mp hprefix⟩
    · intro f
      rw [← hcourse.error_iff f, ← hsum]
      cases result <;> simp [Except.map, Except.mapError]
    · rw [← hcourse.ok_iff, ← hsum]
      cases result <;> simp [Except.map, Except.mapError]
    · rintro r rfl
      cases result with
      | error f => cases hsum
      | ok steps =>
        cases hsum
        have hfinished := hcourse.finished
        refine ⟨hfinished, fun hzero => ?_⟩
        have hall := (Summary.exitCode_eq_zero_iff _).mp hzero
        obtain ⟨-, ⟨hplan, -⟩ | ⟨front, last, rfl, -, -, hlast⟩⟩ := hfinished
        · exact ⟨hplan, hall⟩
        · have hpassed := hall last (by simp)
          rw [hlast] at hpassed
          cases hpassed

/-- A time limit whose sum is out of range by the carry of its last item. -/
def timeoutOutOfRange : String := "18446744073709551615s 1000000000ns"

theorem limit_timeoutOutOfRange :
    ({ pipeline := { timeout := some timeoutOutOfRange } } : Settings).limit = .error .overflow := by
  decide +kernel

/-- **A run that is neither a failure nor a success.** Every program is found and every tool would
pass, but no call is made, for the time limit is out of range. -/
theorem runWith_overflow :
    let p : Performer Unit :=
      { available := fun _ _ s => (true, s), execute := fun _ _ s => (.ok {}, [], s) }
    let (summary, _, _, log) := runWith Launcher.real p.recorded (fun _ => ((), []))
      { pipeline := { timeout := some timeoutOutOfRange } } [] .fix default
    log = [] ∧ (∀ f, summary ≠ .error (.failed f)) ∧ ∀ r, summary ≠ .ok r := by
  simp [runWith, limit_timeoutOutOfRange]

end Pipeline
end QualityGate
