import QualityGate.Environment.NulSeparated
import QualityGate.Host.Program
import QualityGate.Shell.Redirection
/-!
Processes that become another program: a shell that runs a script, `env`, which starts a program in a
changed environment, or any of the other programs of the system.
-/

namespace QualityGate.Shell

open Host (FileTree Location Errno Image)

/-! ### Becoming another program -/

/-- The options of a shell by letter. -/
def setOption (on : Bool) (b : UInt8) : Act Unit :=
  changeShell fun sh =>
    if b = byte 'e' then { sh with stopOnFailure := on }
    else if b = byte 'u' then { sh with unsetIsError := on }
    else if b = byte 'x' then { sh with traces := on }
    else if b = byte 'f' then { sh with keepsPatterns := on }
    else sh

/-- The options of a shell by name. -/
def setNamedOption (on : Bool) (name : Bytes) : Act Unit :=
  if name = Text.bytes "errexit" then setOption on (byte 'e')
  else if name = Text.bytes "nounset" then setOption on (byte 'u')
  else if name = Text.bytes "xtrace" then setOption on (byte 'x')
  else if name = Text.bytes "noglob" then setOption on (byte 'f')
  else return ()

/-- Sets the options at the start of some words; yields whether a script was announced among them,
and the words after the options, with whether something has ended them. -/
def setOptions (script : Bool) : List Bytes → Act (Bool × Bool × List Bytes)
  | [] => return (script, false, [])
  | [0x2D, 0x2D] :: rest => return (script, true, rest)
  | [0x2D, 0x6F] :: name :: rest => do setNamedOption true name; setOptions script rest
  | [0x2B, 0x6F] :: name :: rest => do setNamedOption false name; setOptions script rest
  | (0x2D :: l :: ls) :: rest => do
    (l :: ls).forM (setOption true)
    setOptions (script || (l :: ls).contains (byte 'c')) rest
  | (0x2B :: l :: ls) :: rest => do
    (l :: ls).forM (setOption false)
    setOptions script rest
  | args => return (script, false, args)

/-- Where programs are looked for by a shell that is given no search path. -/
def fallbackPath : Bytes :=
  Text.bytes "/usr/local/sbin:/usr/local/bin:/usr/sbin:/usr/bin:/sbin:/bin"

/-- The process that started a process, where it is not one of the machine's own. -/
def outerPid : Nat := 998

/-- The variables that a shell has where its environment does not set them. -/
def State.startValues (sh : State) : List (Bytes × Bytes) :=
  [(Environment.pathKey, fallbackPath), (Text.bytes "PS4", Text.bytes "+ ")] ++
    match sh.dialect with
    | .posix => [(Text.bytes "PS1", Text.bytes "# "), (Text.bytes "PS2", Text.bytes "> ")]
    | .bash => [(Text.bytes "OSTYPE", Text.bytes "linux-gnu")]

/-- The variables that a shell sets whatever its environment says. -/
def State.ownValues (sh : State) : List (Bytes × Bytes) :=
  [(Text.bytes "IFS", [0x20, 0x09, 0x0A]), (Text.bytes "OPTIND", [byte '1']),
   (Text.bytes "PPID", decimal ((sh.ancestors.head?).getD outerPid))]

/-- **Sets up the variables of a shell.** Names that are none are dropped, and the working directory
is exported. -/
def startVariables : Act Unit := do
  changeShell fun sh =>
    let named := sh.vars.filter fun p => isName p.1
    let set := fun (vars : List (Bytes × Variable)) (p : Bytes × Bytes) =>
      changeVar p.1 (fun _ => { value := some p.2 }) vars
    let missing := sh.startValues.filter fun p => (named.lookup p.1).isNone
    { sh with vars := sh.ownValues.foldl set (missing.foldl set named) }
  let path := (← theShell).workingPath
  assign (Text.bytes "PWD") path
  markExported (Text.bytes "PWD")

/-- **Runs a shell**: the script after `-c`, the one in a file, or the one on standard input. -/
def runShell (run : Runner) (dialect : Dialect) (argv : List Bytes) : Act Unit := do
  let name := (argv.head?).getD []
  changeShell fun sh => { sh with dialect := dialect, name := name, line := 0 }
  startVariables
  let (announced, _, words) ← setOptions false (argv.drop 1)
  let start (name : Bytes) (args : List Bytes) : Act Unit :=
    changeShell fun sh => { sh with name := name, args := args, line := 1 }
  if announced then
    match words with
    | [] =>
      complain (Text.bytes "-c requires an argument")
      throw (.exit 2)
    | text :: rest =>
      start ((rest.head?).getD name) (rest.drop 1)
      runToEnd run (run { last := true } (Script.ofBytes text))
  else
    match words with
    | [] =>
      let text := (← readAll 0).getD []
      start name []
      runToEnd run (run {} (Script.ofBytes text))
    | file :: rest =>
      let s ← get
      match s.machine.files.read s.shell.cwd file with
      | .error e =>
        complain (openComplaint dialect .input file e)
        throw (.exit (if dialect = .posix then 2 else 127))
      | .ok text =>
        start file rest
        runToEnd run (run {} (Script.ofBytes text))

/-- The environment of a process that is no shell. -/
def ownEnvironment : Act Environment :=
  return (← theShell).environment

/-- What `env` is asked for: how entries end, the environment, and the command to run in it. -/
def readEnvWords (ending : UInt8) (env : Environment) : List Bytes → UInt8 × Environment × List Bytes
  | [] => (ending, env, [])
  | [0x2D, 0x75] :: name :: rest => readEnvWords ending (env.remove name) rest
  | w :: rest =>
    if w = Text.bytes "-0" ∨ w = Text.bytes "--null" then readEnvWords 0 env rest
    else if w = Text.bytes "-i" ∨ w = Text.bytes "-" ∨ w = Text.bytes "--ignore-environment" then
      readEnvWords ending .empty rest
    else if w = Text.bytes "--" then readEnvWords ending env rest
    else
      match Environment.assignment? w with
      | some (k, v) => readEnvWords ending (env.set k v) rest
      | none => (ending, env, w :: rest)

/-- The process as it is when a program starts in it. -/
def startProcess (name : Bytes) (env : Environment) : Act Unit :=
  changeShell fun sh =>
    { sh with
      mainPid := sh.pid, name := name, label := none, line := 1, args := []
      vars := env.entries.map fun e => (e.1, { value := some e.2, exported := true })
      functions := [], status := 0, stopOnFailure := false, unsetIsError := false
      traces := false, keepsPatterns := false, handlers := [], lastJob := none, jobs := []
      loops := 0, calls := 0, covered := [] }

/-- **Makes the process another program**, through so many programs that start others at most. -/
def become (run : Runner) : Nat → Image → Environment → Act Unit
  | 0, _, _ => throw (.exit 126)
  | n + 1, image, env => do
    startProcess ((image.argv.head?).getD []) env
    match image.utility with
    | "sh" | "dash" => runShell run .posix image.argv
    | "bash" => runShell run .bash image.argv
    | "env" =>
      let (ending, env, words) := readEnvWords lineFeed env (image.argv.drop 1)
      match words with
      | [] =>
        let _ ← write 1 (env.entries.flatMap fun e =>
          e.1 ++ Environment.equals :: e.2 ++ [ending])
        throw (.exit 0)
      | program :: _ =>
        let s ← get
        -- the program is looked up on the path of the environment it is to get
        match s.machine.files.imageByName s.shell.cwd true (env.get? Environment.pathKey) program
            words with
        | .ok image => become run n image env
        | .error e =>
          Utility.report (Text.bytes "env")
            ([0x27] ++ program ++ Text.bytes ("': " ++ e.sentence))
          throw (.exit (if e = .noEntry then 127 else 126))
    | utility =>
      match Utility.table.lookup utility with
      | some f => throw (.exit (← f (image.argv.drop 1)))
      | none => throw (.exit 0)

/-- How many programs may start one another in one process. -/
def becomingBudget : Nat := 100

/-- The image of a command, or why there is none. -/
def imageOf (name : Bytes) (args : List Bytes) : Act (Except Errno Image) := do
  let s ← get
  let path := (s.shell.value? Environment.pathKey).getD []
  return s.machine.files.imageByName s.shell.cwd true (some path) name (name :: args)

/-- The status of a command that has no image. -/
def statusWithoutImage (e : Errno) : Nat :=
  if FileTree.passesOver e ∨ e.code = 36 ∨ e.code = 40 then 127 else 126

/-- What a shell says of a command that has no image. -/
def complainNoImage (name : Bytes) (e : Errno) : Act Unit := do
  let absent := FileTree.passesOver e
  match (← theShell).dialect with
  | .posix => complain (name ++ Text.bytes (": " ++ if absent then "not found" else e.sentence))
  | .bash =>
    let what := if !absent ∨ Host.Path.slash ∈ name then e.sentence else "command not found"
    complain (name ++ Text.bytes (": " ++ what))

/-- **Runs a program** in a process of its own, or in this one if nothing follows. -/
def runProgram (run : Runner) (st : Setting) (name : Bytes) (args : List Bytes) : Act Unit := do
  match ← imageOf name args with
  | .error e =>
    complainNoImage name e
    setStatus (statusWithoutImage e)
  | .ok image =>
    let sh ← theShell
    let start := become run becomingBudget image sh.environment
    if st.last ∧ sh.handlers = [] then start else settle (← fork start)

end QualityGate.Shell
