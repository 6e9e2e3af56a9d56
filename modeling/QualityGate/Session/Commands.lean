import QualityGate.Args.Parse
import QualityGate.Session.Pipeline
import QualityGate.Session.Source
import QualityGate.Settings.ToToml
/-!
The commands of the command line. Each comes to a status, the events that it shows, and what it
leaves of its surroundings. Colours and the log filter play no part until the events are rendered
(`Session.display`), so the options that choose them have no other effect.
-/

namespace QualityGate

open Console (Event Level inColour boldIn bold dim plain)

namespace Session

/-! ### What a command comes to -/

/-- **What a command comes to.** -/
structure Result where
  status : Nat
  events : List Event
  surroundings : Surroundings

/-- The status of a command that did what it was asked for. -/
def statusDone : Nat := 0

/-- The status of a command that refused, or found something wrong. -/
def statusRefused : Nat := 1

/-- The status of a program that stops where nothing catches a fault. -/
def statusAborted : Nat := 101

/-- Where settings are looked for. -/
def site (s : Surroundings) : Settings.Site := ⟨s.files, s.cwd⟩

/-- **The end of a command that cannot go on**, after what it has shown so far. -/
def halted (h : Halt) (shown : List Event) (s : Surroundings) : Result :=
  match h with
  | .failed f => ⟨statusByte f.exitCode, shown ++ [.err [plain ("Error: " ++ f.report)]], s⟩
  | .overflow => ⟨statusAborted, shown, s⟩

/-- The record about the settings file, if one was used. -/
def loadedEvents (s : Surroundings) (config : Option Bytes) : List Event :=
  match config, Settings.find (site s) with
  | some path, _ => [.log (Settings.loadedRecord path)]
  | none, .ok path => [.log (Settings.loadedRecord path)]
  | none, .error _ => []

/-- Goes on with the settings of the session, if there are any. -/
def withSettings (s : Surroundings) (config : Option Bytes)
    (next : Settings → List Event → Result) : Result :=
  match Settings.loadOrDefault (site s) config with
  | .error h => halted h [] s
  | .ok settings => next settings (loadedEvents s config)

/-! ### Running -/

/-- The part of the program that speaks about commands. -/
def target : String := "lint_pipeline::cli::commands"

/-- The record about arguments without effect, if there are any. -/
def ignoredEvents (args : RunArgs) : List Event :=
  if args.ignored = [] then []
  else
    [.log { level := .debug, target, message := "Ignoring extra arguments"
            fields := [("args", Text.quotedList args.ignored)] }]

/-- The line that names the mode. -/
def modeLine (mode : Mode) : Event :=
  .err [inColour .cyan "•", plain " Mode: ", bold mode.name]

/-- How many lines of a failed tool's output are shown. -/
def excerptLength : Nat := 40

/-- The first lines of a failed tool's output. -/
def excerpt (o : Outcome) : List Event :=
  (Text.firstLines excerptLength o.combined).map fun line => .err [plain ("    " ++ line)]

/-- **The lines that close a run.** -/
def closing (settings : Settings) (r : Summary) : List Event :=
  (if r.activated then
    [.log { level := .info, target, message := "Ran tools in activated environment"
            fields := [("script", settings.pipeline.activate)] }]
   else []) ++
  .err [] ::
  match r.failedStep? with
  | none =>
    [.err [boldIn .green "✓", plain (" All " ++ toString r.passedCount ++ " tools passed in " ++
      r.elapsed.brief ++ " (" ++ r.mode.name ++ " mode)")]]
  | some step =>
    .err [boldIn .red "✗", plain (" " ++ step.outcome.describe step.commandLine)] ::
      (if settings.pipeline.captureOutput then excerpt step.outcome else [])

/-- What a run does with some settings; `loaded` is what was shown when they were read. The working
directory is asked for only then. -/
def runBy (launcher : Launcher) (s : Surroundings) (args : RunArgs) (settings : Settings)
    (loaded : List Event) : Result :=
  match s.directory with
  | .error e => halted (.failed (.directoryGone e)) (loaded ++ ignoredEvents args) s
  | .ok _ =>
    let shown := loaded ++ ignoredEvents args ++ [modeLine args.mode]
    let r := Pipeline.run launcher settings args.mode s
    match r.summary with
    | .error h => halted h (shown ++ r.events) r.surroundings
    | .ok summary =>
      ⟨statusByte summary.exitCode, shown ++ r.events ++ closing settings summary, r.surroundings⟩

/-- **Runs the pipeline.** -/
def run (launcher : Launcher) (s : Surroundings) (config : Option Bytes) (args : RunArgs) : Result :=
  withSettings s config (runBy launcher s args)

/-! ### Listing -/

/-- The lines about one step. -/
def stepLines (number : Nat) (step : Tool × CommandLine) : List Event :=
  [.out [plain ("  " ++ toString number ++ ". "), inColour .cyan step.1.name,
     plain (" - " ++ step.1.description)],
   .out [plain ("     " ++ step.2.render)]]

/-- **The lines that show a plan.** -/
def planLines (settings : Settings) (mode : Mode) : List Event :=
  .out [bold ("Pipeline (" ++ mode.name ++ " mode):")] ::
  .out [plain ("  activate: " ++ settings.pipeline.activate ++ " (if present)")] ::
  ((settings.plan mode).zipIdx.flatMap fun p => stepLines (p.2 + 1) p.1)

/-- What a listing does with some settings. -/
def listBy (s : Surroundings) (mode : Mode) (settings : Settings) (loaded : List Event) : Result :=
  match s.directory with
  | .error e => halted (.failed (.directoryGone e)) loaded s
  | .ok _ => ⟨statusDone, loaded ++ planLines settings mode, s⟩

/-- **Shows the steps of the pipeline.** -/
def list (s : Surroundings) (config : Option Bytes) (mode : Mode) : Result :=
  withSettings s config (listBy s mode)

/-! ### Writing and checking settings -/

/-- The file that settings are written to. -/
def settingsPath (config : Option Bytes) : Bytes :=
  config.getD Settings.fileName

/-- **Writes the default settings**, over an existing file only if forced. -/
def init (s : Surroundings) (config : Option Bytes) (force : Bool) : Result :=
  let path := settingsPath config
  if s.files.exists? s.cwd path && !force then
    ⟨statusRefused,
     [.err [inColour .yellow "!", plain (" Configuration already exists: " ++ Text.lossy path)],
      .err [plain "  Use --force to overwrite."]], s⟩
  else
    let (written, files) := s.files.write s.cwd path (Text.bytes Settings.defaultToml)
    match written with
    | .error e => halted (.failed (.io "write config" (.system e))) [] { s with files := files }
    | .ok () =>
      ⟨statusDone, [.err [inColour .green "✓", plain (" Created " ++ Text.lossy path)]],
       { s with files := files }⟩

/-- **Checks the settings.** -/
def validate (s : Surroundings) (config : Option Bytes) : Result :=
  match Settings.loadChosen (site s) config with
  | .ok _ =>
    ⟨statusDone,
     loadedEvents s config ++ [.err [inColour .green "✓", plain " Configuration is valid"]], s⟩
  | .error (.failed (.settingsNotFound path)) =>
    ⟨statusRefused,
     [.err [inColour .yellow "!", plain (" Configuration not found: " ++ Text.lossy path)],
      .err [plain "  Defaults apply. Run `lint-pipeline init` to write them out."]], s⟩
  | .error (.failed f) =>
    ⟨statusRefused,
     [.err [inColour .red "✗", plain (" Configuration validation failed: " ++ f.report)]], s⟩
  | .error .overflow => halted .overflow [] s

/-! ### Sessions -/

/-- **The scripts that complete command lines**, one for each shell. What they say is not settled here. -/
abbrev Scripts := CompletionShell → Bytes

/-- Scripts that say nothing. -/
def Scripts.empty : Scripts := fun _ => []

/-- **Does what is asked for.** -/
def perform (launcher : Launcher) (r : Request) (s : Surroundings)
    (scripts : Scripts := Scripts.empty) : Result :=
  match r.effective with
  | .run args => run launcher s r.config args
  | .list check => list s r.config (Mode.ofFlag check)
  | .init force => init s r.config force
  | .validate => validate s r.config
  | .completions shell => ⟨statusDone, [.toolOut (scripts shell)], s⟩

/-- Text that ends its own lines, as an event of either stream. -/
def faultEvents (f : Args.Fault) : List Event :=
  if f.isAnswer then [.toolOut (Text.bytes f.text)] else [.toolErr (Text.bytes f.text)]

/-- **A session**: the command line is read, and what it asks for is done. -/
def start (launcher : Launcher) (args : List Bytes) (s : Surroundings)
    (scripts : Scripts := Scripts.empty) : Result :=
  match Args.parse args with
  | .error f => ⟨statusByte f.exitCode, faultEvents f, s⟩
  | .ok r => perform launcher r s scripts

/-! ### Showing events -/

/-- The variable that can force colours. -/
def colourKey : Bytes := Text.bytes "CLICOLOR_FORCE"

/-- The variable that holds a log filter. -/
def filterKey : Bytes := Text.bytes "RUST_LOG"

/-- The text of a variable. -/
def textOf? (env : Environment) (key : Bytes) : Option String :=
  (env.get? key).bind Text.decode?

/-- **Whether colours are used** where nothing is a terminal. -/
def coloured (choice : ColourChoice) (env : Environment) : Bool :=
  match choice with
  | .always => true
  | .never => false
  | .auto => (textOf? env colourKey).any (· != "0")

/-- The filter that the options choose. -/
def optionFilter (r : Request) : Console.Filter :=
  .upTo (if r.quiet then .error else if r.verbose then .debug else .info)

/-- **The log filter**: that of the environment if there is a proper one, else that of the options. -/
def filter (r : Request) (env : Environment) : Console.Filter :=
  ((textOf? env filterKey).bind Console.filterOf?).getD (optionFilter r)

/-- **How the events of a session are shown.** -/
def display (args : List Bytes) (env : Environment) (time : String) : Console.Display :=
  match Args.parse args with
  | .error _ => { coloured := false, filter := .upTo .info, time := time }
  | .ok r => { coloured := coloured r.colour env, filter := filter r env, time := time }

end Session
end QualityGate
