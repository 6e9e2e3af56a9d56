import QualityGate.Session.Activation
import QualityGate.Settings.Validity
/-!
One run of the pipeline: the virtual environment is activated, and then the steps of the plan are
performed under the same conditions, up to the first that does not pass.
-/

namespace QualityGate

open Console (Event)

namespace Pipeline

/-- The conditions under which the steps of a run are performed. -/
def conditions (settings : Settings) (root : Bytes) (limit : Option Duration)
    (env : Option Environment) : Conditions :=
  { cwd := some root, limit := limit, env := env, capture := settings.pipeline.captureOutput }

/-- The time that some steps took together. -/
def elapsed (steps : List Step) : Duration :=
  Launch.elapsedOf (steps.foldl (fun total s => total + s.outcome.elapsed.toNanos) 0)

/-- **Performs the steps of a plan** after an activation that gave `env`. -/
def performIn (p : Performer σ) (settings : Settings) (root : Bytes) (limit : Option Duration)
    (env : Option Environment) (mode : Mode) (state : σ) :
    Except Failure Summary × List Event × σ :=
  let ran := perform p (conditions settings root limit env) (settings.plan mode) state
  let summary := match ran.result with
    | .ok steps => .ok
        { mode := mode, steps := steps, activated := env.isSome, elapsed := elapsed steps }
    | .error f => .error f
  (summary, ran.events, ran.state)

/-- **Runs the pipeline of some settings in a directory**, its steps performed by `p`. The activation
comes first and may change the files, so `start` gives the state of the performer after it. -/
def runWith (launcher : Launcher) (p : Performer σ) (start : Host.FileTree → σ) (settings : Settings)
    (root : Bytes) (mode : Mode) (s : Surroundings) : Except Halt Summary × List Event × σ :=
  let script := Text.bytes settings.pipeline.activate
  let activated := activate launcher s root script settings.pipeline.shell
  let state := start activated.files
  match settings.limit with
  | .error h => (.error h, activated.events, state)
  | .ok limit =>
    let (summary, events, state) := performIn p settings root limit activated.env mode state
    (summary.mapError .failed, activated.events ++ events, state)

/-- What a run comes to. -/
structure Result where
  summary : Except Halt Summary
  events : List Event
  surroundings : Surroundings

/-- **Runs the pipeline** in the working directory, its steps as processes. -/
def run (launcher : Launcher) (settings : Settings) (mode : Mode) (s : Surroundings) : Result :=
  let (summary, events, s) := runWith launcher (Launched.performer launcher)
    (fun files => { s with files := files }) settings s.cwd.path mode s
  ⟨summary, events, s⟩

end Pipeline
end QualityGate
