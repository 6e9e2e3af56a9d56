import QualityGate.Proofs.Run.Announced
import QualityGate.Session.Commands
/-!
## What the flags for more and for less output change

The flags choose the log filter, and only where the environment does not choose it. Everything else is
settled before the filter is looked at.

* `Display.stderr_eq`: standard error is made of pieces that no filter has touched, of which the filter
  leaves out log records only.
* `filter_shows`: without a filter in the environment the flags show the records up to one level.
* `start_verbosity`: two sessions that differ in the flags only come to the same status and leave the
  same files, deal with the same programs, and show the same but for their log.
-/

namespace QualityGate

open Console (Display Event Filter Record Level)

/-! ### Pieces of standard error -/

namespace Console

/-- **A piece of what stands on standard error**: a line of the program, what a tool wrote, or a record
of the log. -/
inductive ErrPiece where
  | line (bytes : Bytes)
  | tool (bytes : Bytes)
  | log (record : Record)

namespace ErrPiece

/-- The bytes of a piece. -/
def bytes (time : String) : ErrPiece → Bytes
  | line b => b
  | tool b => b
  | log r => lineBytes (r.render time)

/-- The record of the log that a piece shows. -/
def record? : ErrPiece → Option Record
  | log r => some r
  | _ => none

/-- **Whether a filter lets a piece through.** It holds back nothing but records. -/
def passes (f : Filter) : ErrPiece → Bool
  | log r => f.shows r
  | _ => true

/-- The piece of an event, whatever the filter. -/
def ofEvent? (coloured : Bool) : Event → Option ErrPiece
  | .err l => some (line (lineBytes (render coloured l)))
  | .toolErr b => some (tool b)
  | .log r => some (log r)
  | _ => none

end ErrPiece

/-- The pieces of some events, whatever the filter. -/
def errPieces (coloured : Bool) (es : List Event) : List ErrPiece :=
  es.filterMap (ErrPiece.ofEvent? coloured)

/-- **The pieces that a display shows.** -/
def Display.shown (d : Display) (es : List Event) : List ErrPiece :=
  (errPieces d.coloured es).filter (ErrPiece.passes d.filter)

theorem errPieces_cons (coloured : Bool) (e : Event) (es : List Event) :
    errPieces coloured (e :: es) = (ErrPiece.ofEvent? coloured e).toList ++ errPieces coloured es := by
  rw [errPieces, List.filterMap_cons]
  cases ErrPiece.ofEvent? coloured e <;> rfl

/-- An event writes its piece, unless the filter holds it back. -/
theorem Display.errBytes_eq (d : Display) (e : Event) :
    d.errBytes e = ((ErrPiece.ofEvent? d.coloured e).toList.filter (ErrPiece.passes d.filter)).flatMap
      (ErrPiece.bytes d.time) := by
  cases e with
  | out line => rfl
  | toolOut b => rfl
  | err line => exact (List.append_nil _).symm
  | toolErr b => exact (List.append_nil _).symm
  | log r =>
    cases hshows : d.filter.shows r <;>
      simp [Display.errBytes, ErrPiece.ofEvent?, ErrPiece.passes, ErrPiece.bytes, hshows]

/-- **Standard error is the pieces that are shown**, one after the other. -/
theorem Display.stderr_eq (d : Display) (es : List Event) :
    d.stderr es = (d.shown es).flatMap (ErrPiece.bytes d.time) := by
  induction es with
  | nil => rfl
  | cons e es ih =>
    rw [Display.stderr] at ih
    rw [Display.stderr, Display.shown, List.flatMap_cons, errPieces_cons, List.filter_append,
      List.flatMap_append, ih, errBytes_eq, Display.shown]

/-- **Two displays that differ in their filter show the same apart from the log.** -/
theorem Display.shown_filter_log {d d' : Display} (h : d'.coloured = d.coloured) (es : List Event) :
    (d'.shown es).filter (·.record?.isNone) = (d.shown es).filter (·.record?.isNone) := by
  have hpasses (f : Filter) (p : ErrPiece) :
      (p.record?.isNone && p.passes f) = p.record?.isNone := by cases p <;> rfl
  simp only [Display.shown, List.filter_filter, hpasses, h]

/-- The records that are shown are those that the filter lets through. -/
theorem Display.filterMap_record?_shown (d : Display) (es : List Event) :
    (d.shown es).filterMap ErrPiece.record? =
      ((errPieces d.coloured es).filterMap ErrPiece.record?).filter d.filter.shows := by
  rw [Display.shown, List.filterMap_filter, List.filter_filterMap]
  congr 1
  funext p
  cases p with
  | log r =>
    cases hshows : d.filter.shows r <;>
      simp [ErrPiece.passes, ErrPiece.record?, Option.filter, hshows]
  | _ => rfl

/-- A filter with one level shows the records up to that level. -/
theorem Filter.shows_upTo (l : Level) (r : Record) :
    (Filter.upTo l).shows r = decide (r.level.rank ≤ l.rank) := by
  simp [Filter.shows, Filter.decisive?, Filter.upTo, Directive.covers]

end Console

/-! ### Programs that a session deals with -/

/-- The shell that an activation starts, if there is a script to read in. -/
def Activation.launch? (s : Surroundings) (root relative : Bytes) (shell : String) : Option Launch :=
  let script := Host.Path.join root relative
  if s.files.isFile s.cwd script then some (launch root script shell) else none

/-- **An activation starts that shell and nothing else**: launchers that agree on it activate alike. -/
theorem activate_congr {launcher launcher' : Launcher} {s : Surroundings} {root relative : Bytes}
    {shell : String}
    (h : ∀ l ∈ Activation.launch? s root relative shell, launcher' l s = launcher l s) :
    activate launcher' s root relative shell = activate launcher s root relative shell := by
  unfold activate
  unfold Activation.launch? at h
  dsimp only at h ⊢
  split
  · rename_i hfile
    rw [if_pos hfile] at h
    rw [h _ rfl]
  · rfl

namespace Session

/-- **What a session does with programs**: the shell that it starts for the activation, and the look-ups and
executions of its steps, each with its conditions. -/
structure Dealings where
  shell : Option Launch
  calls : List Call

/-- **The programs that a request deals with.** Only a run with settings deals with any, in a working
directory that is there. -/
def dealings (launcher : Launcher) (r : Request) (s : Surroundings) : Dealings :=
  match r.effective with
  | .run args =>
    match Settings.loadOrDefault (site s) r.config, s.directory with
    | .ok settings, .ok _ =>
      { shell := Activation.launch? s s.cwd.path (Text.bytes settings.pipeline.activate)
          settings.pipeline.shell
        calls := Pipeline.calls launcher settings args.mode s }
    | _, _ => ⟨none, []⟩
  | _ => ⟨none, []⟩

/-! ### The filter of a session -/

/-- How the events of a request are shown. -/
def displayOf (r : Request) (env : Environment) (time : String) : Console.Display :=
  { coloured := coloured r.colour env, filter := filter r env, time := time }

theorem display_of_parse {args : List Bytes} {r : Request} (h : Args.parse args = .ok r)
    (env : Environment) (time : String) : display args env time = displayOf r env time := by
  rw [display, h]
  rfl

theorem start_of_parse {args : List Bytes} {r : Request} (h : Args.parse args = .ok r)
    (launcher : Launcher) (s : Surroundings) (scripts : Scripts) :
    start launcher args s scripts = perform launcher r s scripts := by
  rw [start, h]

/-- The filter of the environment, if there is a proper one. -/
def environmentFilter? (env : Environment) : Option Filter :=
  (textOf? env filterKey).bind Console.filterOf?

/-- The level up to which the flags show records: quiet goes before verbose. -/
def level (verbose quiet : Bool) : Level :=
  if quiet then .error else if verbose then .debug else .info

/-- **Without a filter in the environment the flags show the records up to one level.** -/
theorem filter_shows {env : Environment} (h : environmentFilter? env = none) (r : Request)
    (record : Record) :
    (filter r env).shows record = decide (record.level.rank ≤ (level r.verbose r.quiet).rank) := by
  rw [environmentFilter?] at h
  rw [filter, h]
  exact Filter.shows_upTo _ _

/-- With one they have no effect. -/
theorem filter_of_environment {env : Environment} {f : Filter} (h : environmentFilter? env = some f)
    (r : Request) : filter r env = f := by
  rw [environmentFilter?] at h
  rw [filter, h]
  rfl

/-! ### Two sessions -/

/-- **The flags for more and for less output affect the log and nothing else.** A session whose request
differs from that of another one in the two flags only comes to the same status, leaves the same
surroundings, deals with the same programs in the same order, and writes the same to standard output;
apart from the records of the log the pieces of standard error are the same in the same order. With a
filter in the environment all of standard error is the same, and without one its records are those up to
the level of the flags, out of the same records for both. All of this holds whatever the scripts for
shells say. -/
theorem start_verbosity (launcher : Launcher) {args : List Bytes} {r : Request}
    (hr : Args.parse args = .ok r) (verbose quiet : Bool) (s : Surroundings) (scripts : Scripts)
    (time : String) :
    let r' : Request := { r with verbose := verbose, quiet := quiet }
    let one := start launcher args s scripts
    let other := perform launcher r' s scripts
    let d := display args s.env time
    let d' := displayOf r' s.env time
    let records := (Console.errPieces d.coloured one.events).filterMap Console.ErrPiece.record?
    (∀ args', Args.parse args' = .ok r' →
      start launcher args' s scripts = other ∧ display args' s.env time = d') ∧
    other.status = one.status ∧ other.surroundings = one.surroundings ∧
    dealings launcher r' s = dealings launcher r s ∧
    d'.stdout other.events = d.stdout one.events ∧
    (d'.shown other.events).filter (·.record?.isNone) =
      (d.shown one.events).filter (·.record?.isNone) ∧
    (∀ f, environmentFilter? s.env = some f → d'.stderr other.events = d.stderr one.events) ∧
    (environmentFilter? s.env = none →
      (d.shown one.events).filterMap Console.ErrPiece.record? =
        records.filter (·.level.rank ≤ (level r.verbose r.quiet).rank) ∧
      (d'.shown other.events).filterMap Console.ErrPiece.record? =
        records.filter (·.level.rank ≤ (level verbose quiet).rank)) := by
  intro r' one other d d' records
  have hd : d = displayOf r s.env time := display_of_parse hr s.env time
  -- nothing that a command does looks at the flags
  have hother : other = one := (start_of_parse hr launcher s scripts).symm
  have hcoloured : d'.coloured = d.coloured := by rw [hd]; rfl
  have htime : d'.time = d.time := by rw [hd]; rfl
  rw [hother]
  refine ⟨fun args' hr' => ?_, rfl, rfl, rfl, ?_, ?_, fun f hf => ?_, fun hnone => ⟨?_, ?_⟩⟩
  · rw [← hother]
    exact ⟨start_of_parse hr' launcher s scripts, display_of_parse hr' s.env time⟩
  · rw [hd]
    exact Console.Display.stdout_filter (displayOf r s.env time) (filter r' s.env) one.events
  · exact Console.Display.shown_filter_log hcoloured one.events
  · have hfilter : d'.filter = d.filter := by
      rw [hd]
      exact (filter_of_environment hf r').trans (filter_of_environment hf r).symm
    rw [Console.Display.stderr_eq, Console.Display.stderr_eq, Console.Display.shown,
      Console.Display.shown, hcoloured, hfilter, htime]
  · have hshows : d.filter.shows = fun record =>
        decide (record.level.rank ≤ (level r.verbose r.quiet).rank) := by
      rw [hd]
      exact funext (filter_shows hnone r)
    rw [Console.Display.filterMap_record?_shown, hshows]
  · have hshows : d'.filter.shows = fun record =>
        decide (record.level.rank ≤ (level verbose quiet).rank) := funext (filter_shows hnone r')
    rw [Console.Display.filterMap_record?_shown, hshows, hcoloured]

/-- Listing the steps with the flag for more output, or with the one for less. -/
theorem start_verbosity_list :
    let verbose := ["list", "-v"].map Text.bytes
    let quiet := ["list", "-q"].map Text.bytes
    let one := start .real verbose default
    let other := start .real quiet default
    other.status = one.status ∧
      (display quiet Environment.empty "").stdout other.events =
        (display verbose Environment.empty "").stdout one.events := by
  intro verbose quiet one other
  have hverbose : Args.parse verbose = .ok { command := some (.list false), verbose := true } := by
    decide +kernel
  have hquiet : Args.parse quiet = .ok { command := some (.list false), quiet := true } := by
    decide +kernel
  obtain ⟨hparse, hstatus, -, -, hstdout, -⟩ := start_verbosity .real hverbose false true default
    Scripts.empty ""
  obtain ⟨hother, hdisplay⟩ := hparse quiet hquiet
  rw [← hother] at hstatus hstdout
  rw [← hdisplay] at hstdout
  exact ⟨hstatus, hstdout⟩

end Session
end QualityGate
