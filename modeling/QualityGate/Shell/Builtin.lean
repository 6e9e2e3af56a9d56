import QualityGate.Shell.Process
/-!
The commands that a shell carries out itself. Those that are special end the shell when they fail,
and assignments before them last.
-/

namespace QualityGate.Shell

open Host (FileTree Location Errno Image)

/-! ### Commands of the shell itself -/

/-- The commands whose failure ends the shell, and whose assignments last. -/
def specialNames : List String :=
  [".", ":", "break", "continue", "eval", "exec", "exit", "export", "readonly", "return", "set",
   "shift", "trap", "unset"]

/-- The commands of a shell that succeed without doing anything that could be seen. -/
def silentNames : List String :=
  ["hash", "ulimit", "alias", "unalias", "times", "jobs", "fg", "bg"]

/-- The other commands of a shell. -/
def plainNames : List String :=
  Utility.ownTable.map (·.1) ++ ["cd", "command", "local", "read", "type", "umask", "wait"] ++ silentNames

/-- A number that a command is given, or `default` where there is none. -/
def numberArg (default : Nat) : List Bytes → Act Nat
  | [] => return default
  | a :: _ =>
    if a ≠ [] ∧ a.all isDigit then return natOf a
    else giveUp (Text.bytes "Illegal number: " ++ a)

/-- The name before a first `=` in a word, and the value after it. -/
def splitAssignment (w : Bytes) : Bytes × Option Bytes :=
  (w.takeWhile (· ≠ byte '='), ((w.dropWhile (· ≠ byte '=')).head?).map fun _ =>
    (w.dropWhile (· ≠ byte '=')).drop 1)

/-- Marks variables, after assigning to those that are given a value. -/
def declare (mark : Bytes → Act Unit) : List Bytes → Act Unit
  | [] => return ()
  | w :: rest => do
    let (name, value) := splitAssignment w
    if w.head? = some (byte '-') then declare mark rest
    else if !isName name then giveUp (name ++ Text.bytes ": bad variable name")
    else
      match value with
      | some v => assign name v
      | none => pure ()
      mark name
      declare mark rest

/-- Sets handlers, or takes them away. -/
def trap (args : List Bytes) : Act Nat := do
  let dialect := (← theShell).dialect
  let (action, names) := match args with
    | [] => (none, [])
    | a :: rest =>
      if a = [byte '-'] then (none, rest)
      -- a lone word, or a number in front, names a signal: no action is given, so it is reset
      else if rest = [] ∨ (a ≠ [] ∧ a.all isDigit) then (none, args)
      else (some a, rest)
  let mut status := 0
  for name in names do
    match Utility.signalOf? dialect name with
    | none =>
      Utility.report (Text.bytes "trap") (name ++ Text.bytes ": bad trap")
      status := 1
    | some g =>
      changeShell fun sh =>
        let ignored := sh.ignored.filter (· ≠ g)
        let handlers := sh.handlers.filter fun p => p.1 ≠ g
        match action with
        | none => { sh with ignored := ignored, handlers := handlers }
        -- the empty action is to ignore the signal
        | some [] => { sh with ignored := g :: ignored, handlers := handlers }
        | some text => { sh with ignored := ignored, handlers := (g, text) :: handlers }
  return status

/-- Changes the working directory. -/
def changeDirectory (args : List Bytes) : Act Nat := do
  let s ← get
  let sh := s.shell
  let args := args.filter fun a => a ≠ Text.bytes "-P" && a ≠ Text.bytes "-L" && a ≠ Text.bytes "--"
  let oldKey := Text.bytes "OLDPWD"
  let (target, shown) := match args with
    | [] => ((sh.value? (Text.bytes "HOME")).getD [], false)
    | [0x2D] :: _ => ((sh.value? oldKey).getD [], true)
    | a :: _ => (a, false)
  match s.machine.files.stat sh.cwd (if target = [] then [Host.Path.dot] else target) with
  | .ok (l, .directory) =>
    assign oldKey sh.workingPath
    markExported oldKey
    changeShell fun sh => { sh with cwd := l }
    assign (Text.bytes "PWD") l.path
    markExported (Text.bytes "PWD")
    if shown then Utility.pwd [] else return 0
  | r =>
    match sh.dialect with
    | .posix => complain (Text.bytes "can't cd to " ++ target); return 2
    | .bash =>
      let e : Errno := match r with
        | .error e => e
        | .ok _ => .notDirectory
      complain (target ++ Text.bytes (": " ++ e.sentence))
      return 1

/-- Bytes cut at separators into so many pieces at most, the last of which takes all that is left. -/
def cutFields (separators : Bytes) : Nat → Bytes → List Bytes
  | 0, _ => []
  | 1, s =>
    let s := s.dropWhile separators.contains
    [(s.reverse.dropWhile separators.contains).reverse]
  | n + 2, s =>
    let s := s.dropWhile separators.contains
    s.takeWhile (!separators.contains ·) ::
      cutFields separators (n + 1) (s.dropWhile (!separators.contains ·))

/-- Reads a line into variables. -/
def readVariables (args : List Bytes) : Act Nat := do
  let names := args.filter fun a => a.head? ≠ some (byte '-')
  let (line, complete) ← readLineOf 0
  let values := cutFields (separatorsOf (← theShell)) names.length line
  for (name, i) in names.zipIdx do
    assign name ((values[i]?).getD [])
  return if complete then 0 else 1

/-- Makes variables a function's own. -/
def makeOwn : List Bytes → Act Unit
  | [] => return ()
  | w :: rest => do
    let (name, value) := splitAssignment w
    if !isName name then giveUp (name ++ Text.bytes ": bad variable name")
    else
      changeShell fun sh => { sh with covered := (name, sh.vars.lookup name) :: sh.covered }
      match value with
      | some v => assign name v
      | none => pure ()
      makeOwn rest

/-- Waits for the end of one job. -/
def waitForJob (j : Job) : Act Unit := do
  spend (j.finish - (← theMachine).clock)
  let now := (← theMachine).clock
  changeShell fun sh =>
    { sh with jobs := (sh.jobs.filter fun k => k.pid ≠ j.pid).map fun k =>
        if k.finish ≤ now then { k with seen := true } else k }

/-- **Waits for jobs in the background**, for all of them if none is named. -/
def waitForJobs (args : List Bytes) : Act Nat := do
  if args = [] then
    for j in (← theShell).jobs do
      waitForJob j
  let mut status := 0
  for a in args do
    if a = [] ∨ !a.all isDigit then
      complain (Text.bytes "Illegal number: " ++ a)
      return 2
    match (← theShell).jobs.find? fun j => j.pid = natOf a with
    | none => status := 127
    | some j =>
      waitForJob j
      if let some e := j.ending then
        if !j.seen then notice e
        status := e.status
  return status

/-- The content of a script that is read in, looked for along the search path by its name alone. -/
def scriptFile (name : Bytes) : Act (Option (Bytes × Bytes)) := do
  let s ← get
  let path := (s.shell.value? Environment.pathKey).getD []
  let candidates :=
    if Host.Path.slash ∈ name then [name]
    else (Text.splitBytes Environment.colon path).map fun e => FileTree.under e name
  return candidates.findSome? fun c =>
    match s.machine.files.read s.shell.cwd c with
    | .ok text => some (c, text)
    | .error _ => none

/-- Reads a script in: it runs in this shell, and `return` ends it. -/
def readIn (run : Runner) (args : List Bytes) : Act Nat := do
  match args with
  | [] => return 0
  | name :: _ =>
    match ← scriptFile name with
    | none =>
      match (← theShell).dialect with
      | .posix =>
        if Host.Path.slash ∈ name then
          giveUp (Text.bytes "cannot open " ++ name ++ Text.bytes ": No such file")
        else giveUp (name ++ Text.bytes ": not found")
      | .bash =>
        complain (name ++ Text.bytes ": No such file or directory")
        return 1
    | some (path, text) =>
      let sh ← theShell
      changeShell fun sh =>
        { sh with label := if sh.dialect = .posix then some path else none, status := 0 }
      ensure
        (tryCatch (run {} (Script.ofBytes text)) fun d => match d with
          | .leave n => setStatus n
          | d => throw d)
        (changeShell fun now => { now with label := sh.label })
      return (← theShell).status

/-- Sets options and arguments. -/
def setArgs (args : List Bytes) : Act Nat := do
  let (_, ended, words) ← setOptions false args
  if ended ∨ words ≠ [] then changeShell fun sh => { sh with args := words }
  return 0

/-- Takes variables, or functions, away. -/
def unsetAll (args : List Bytes) : Act Nat := do
  let functions := args.head? = some (Text.bytes "-f")
  for name in args.filter fun a => a.head? ≠ some (byte '-') do
    if functions then
      changeShell fun sh => { sh with functions := sh.functions.filter fun p => p.1 ≠ name }
    else unset name
  return 0

/-- Puts another program in the place of the shell, if one is named. -/
def replaceShell (run : Runner) (args : List Bytes) : Act Nat := do
  match args with
  | [] => return 0
  | name :: rest =>
    match ← imageOf name rest with
    | .error e =>
      complainNoImage name e
      throw (.exit (statusWithoutImage e))
    | .ok image =>
      become run becomingBudget image (← ownEnvironment)
      return 0

/-- A value between apostrophes. -/
def inApostrophes (v : Bytes) : Bytes :=
  0x27 :: (v.flatMap fun b => if b = 0x27 then Text.bytes "'\x22'\x22'" else [b]) ++ [0x27]

/-- Prints the exported variables. -/
def listExported : Act Nat := do
  let e := (← theShell).environment
  Utility.print (e.entries.flatMap fun p =>
    Text.bytes "export " ++ p.1 ++ byte '=' :: inApostrophes p.2 ++ [lineFeed])

/-- **A command whose failure ends the shell.** -/
def runSpecial (run : Runner) (st : Setting) (name : String) (args : List Bytes) : Act Nat := do
  let sh ← theShell
  match name with
  | "." => readIn run args
  | "break" =>
    let n ← numberArg 1 args
    if sh.loops = 0 then return 0 else throw (.breakOut (min n sh.loops))
  | "continue" =>
    let n ← numberArg 1 args
    if sh.loops = 0 then return 0 else throw (.goOn (min n sh.loops))
  | "eval" =>
    setStatus 0
    run { tested := st.tested } (Script.ofBytes (Format.spaced args))
    return (← theShell).status
  | "exec" => replaceShell run args
  | "exit" => throw (.exit ((← numberArg sh.status args) % 256))
  | "return" => throw (.leave (← numberArg sh.status args))
  | "export" =>
    if args = [] ∨ args = [Text.bytes "-p"] then listExported
    else
      declare markExported args
      return 0
  | "readonly" =>
    declare
      (fun name =>
        let lock := fun (v : Option Variable) => { v.getD ⟨none, false, false⟩ with locked := true }
        changeShell fun sh => { sh with vars := changeVar name lock sh.vars })
      args
    return 0
  | "set" => setArgs args
  | "shift" =>
    let n ← numberArg 1 args
    if sh.args.length < n then giveUp (Text.bytes "can't shift that many")
    else
      changeShell fun sh => { sh with args := sh.args.drop n }
      return 0
  | "trap" => trap args
  | "unset" => unsetAll args
  | _ => return 0

/-- The path at which a program stands, if it is found by its name. -/
def programPath? (name : Bytes) : Act (Option Bytes) := do
  match ← imageOf name [] with
  | .error _ => return none
  | .ok _ =>
    let s ← get
    let path := (s.shell.value? Environment.pathKey).getD []
    let found := (Text.splitBytes Environment.colon path).find? fun e =>
      s.machine.files.isExecutable s.shell.cwd (FileTree.under e name)
    return some ((found.map fun e => FileTree.under e name).getD name)

/-- Prints the name of a command, or where its program stands. -/
def nameCommand (name : Bytes) : Act Nat := do
  let text := Text.lossy name
  if text ∈ specialNames ∨ text ∈ plainNames ∨ (← theShell).functions.any (·.1 = name) then
    Utility.print (name ++ [lineFeed])
  else
    match ← programPath? name with
    | none => return 127
    | some path => Utility.print (path ++ [lineFeed])

/-- Prints what kind of command a name stands for. -/
def describeCommand (name : Bytes) : Act Nat := do
  let text := Text.lossy name
  let say := fun (s : Bytes) => Utility.print (name ++ s ++ [lineFeed])
  if text ∈ reservedWords then say (Text.bytes " is a shell keyword")
  else if (← theShell).functions.any (·.1 = name) then say (Text.bytes " is a shell function")
  else if text ∈ specialNames then say (Text.bytes " is a special shell builtin")
  else if text ∈ plainNames then say (Text.bytes " is a shell builtin")
  else
    match ← programPath? name with
    | some path => say (Text.bytes " is " ++ path)
    | none =>
      let _ ← say (Text.bytes ": not found")
      return 127

/-- Does something for each of some names; the status is the last one that is a failure. -/
def forNames (f : Bytes → Act Nat) (names : List Bytes) : Act Nat := do
  let mut status := 0
  for n in names do
    let code ← f n
    if code ≠ 0 then status := code
  return status

/-- **Another command of the shell.** -/
def runPlain (name : String) (args : List Bytes) : Act Nat := do
  match name with
  | "cd" => changeDirectory args
  | "local" =>
    if (← theShell).calls = 0 then giveUp (Text.bytes "not in a function")
    else
      makeOwn args
      return 0
  | "read" => readVariables args
  | "type" => forNames describeCommand args
  | "umask" => if args = [] then Utility.print (Text.bytes "0022\n") else return 0
  | "wait" => waitForJobs args
  | name =>
    match Utility.ownTable.lookup name with
    | some f => f args
    | none => return 0

/-- Runs a command of the shell with its name in complaints. -/
def labelled (name : Bytes) (body : Act Nat) : Act Unit := do
  let label := (← theShell).label
  changeShell fun sh => { sh with label := some name }
  let status ← ensure body (changeShell fun sh => { sh with label := label })
  setStatus status

/-- How deep functions may call one another. -/
def callLimit : Nat := 1000

/-- **Calls a function** with arguments of its own. A shell that keeps no count of its calls runs out of
room. -/
def callFunction (run : Runner) (st : Setting) (body : Script) (args : List Bytes) : Act Unit := do
  let sh ← theShell
  if sh.dialect = .posix then
    if callLimit ≤ sh.calls then
      giveUp (Text.bytes ("Maximum function recursion depth (" ++ toString callLimit ++ ") reached"))
  -- one dialect counts its calls, the other runs out of stack
  else if 10 * callLimit ≤ sh.calls then throw (.killed 11)
  changeShell fun sh => { sh with args := args, loops := 0, calls := sh.calls + 1, covered := [] }
  ensure
    (tryCatch (run { tested := st.tested } body) fun d => match d with
      | .leave n => setStatus n
      | d => throw d)
    -- what the body declared local gets its value from before the call back
    (changeShell fun now =>
      let vars := now.covered.foldl
        (fun vars c => match c.2 with
          | some v => changeVar c.1 (fun _ => v) vars
          | none => vars.filter fun p => p.1 ≠ c.1)
        now.vars
      { now with
        args := sh.args, loops := sh.loops, calls := sh.calls, covered := sh.covered, vars := vars })

end QualityGate.Shell
