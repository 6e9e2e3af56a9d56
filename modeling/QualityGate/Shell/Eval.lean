import QualityGate.Shell.Builtin
/-!
Running scripts. A script is run with the help of a runner for smaller ones, so that one definition by
recursion on a budget ties the knot: a script nested deeper than the budget, or a loop that goes round
more often, is never over.
-/

namespace QualityGate.Shell

/-! ### Simple commands -/

/-- **Runs a command by its name**: one of the shell's own, a function, or a program. -/
def runNamed (run : Runner) (st : Setting) (functions : Bool) (assigns : List (Bytes × Word))
    (redirects : List Redirect) : List Bytes → Act Unit
  | [] => return ()
  | name :: args => do
    let sh ← theShell
    let text := Text.lossy name
    let text := if text = "source" ∧ sh.dialect = .bash then "." else text
    let failed : Act Unit := setStatus (if sh.dialect = .posix then 2 else 1)
    if text ∈ specialNames then
      let body : Act Unit := do
        assignAll run (text = "exec") assigns
        labelled name (runSpecial run st text args)
      if text = "exec" then
        if ← redirectAll run redirects then body else throw (.exit 2)
      else redirected run redirects (throw (.exit 2)) body
    else
      match (if functions then sh.functions.lookup name else none) with
      | some body =>
        redirected run redirects failed (assigned run assigns (callFunction run st body args))
      | none =>
        if text = "command" then
          redirected run redirects failed <| assigned run assigns do
            match args with
            | [0x2D, 0x76] :: names => setStatus (← forNames nameCommand names)
            | _ => runNamed run st false [] [] args
        else if text ∈ plainNames then
          redirected run redirects failed (assigned run assigns (labelled name (runPlain text args)))
        else redirected run redirects failed (assigned run assigns (runProgram run st name args))

/-- The commands that take assignments as arguments. -/
def declarers : List String := ["export", "readonly", "local"]

/-- The arguments of a simple command. Assignments to a command that declares are not split. -/
def expandCommand (run : Runner) : List Word → Act (List Bytes)
  | [] => return []
  | w :: ws => do
    let declares := (plainWord? w).any fun n => Text.lossy n ∈ declarers
    let first ← expandWord (takeOutput run) w
    let rest ← ws.mapM fun w => do
      if declares && (assignment? w).isSome then return [← expandWhole (takeOutput run) w]
      else expandWord (takeOutput run) w
    return first ++ rest.flatten

/-- Writes a command to standard error, if the shell is set to. -/
def trace (words : List Bytes) : Act Unit := do
  let sh ← theShell
  if sh.traces ∧ words ≠ [] then
    let lead := (sh.value? (Text.bytes "PS4")).getD []
    let _ ← write 2 (lead ++ Format.spaced words ++ [lineFeed])

/-- **Runs a simple command.** -/
def runSimple (run : Runner) (st : Setting) (line : Nat) (assigns : List (Bytes × Word))
    (words : List Word) (redirects : List Redirect) : Act Unit := do
  changeShell fun sh => { sh with line := line, takenStatus := 0 }
  spend quickTime
  match ← expandCommand run words with
  | [] =>
    redirected run redirects (setStatus 2) do
      assignAll run false assigns
      let sh ← theShell
      trace (assigns.map fun a => a.1 ++ byte '=' :: (sh.value? a.1).getD [])
      setStatus sh.takenStatus
  | args =>
    trace args
    runNamed run st true assigns redirects args
  feel run signalBudget
  stopIfFailed st

/-! ### Commands made of others -/

/-- What happened in one round of a loop. -/
inductive Round where
  | passed
  | stopped
  deriving DecidableEq

/-- Runs a part of a loop, which may end the round or the loop. -/
def inLoop (body : Act Unit) : Act Round :=
  tryCatch (do body; return .passed) fun d => match d with
    | .breakOut (n + 2) => throw (.breakOut (n + 1))
    | .breakOut _ => return .stopped
    | .goOn (n + 2) => throw (.goOn (n + 1))
    | .goOn _ => return .passed
    | d => throw d

/-- **Runs a loop**; its status is that of the last round. -/
def runLoop (run : Runner) (st : Setting) (untilTrue : Bool) (cond body : Script) :
    Nat → Nat → Act Unit
  | 0, _ => hang
  | n + 1, status => do
    match ← inLoop (run { tested := true } cond) with
    | .stopped => setStatus 0
    | .passed =>
      if ((← theShell).status = 0) = untilTrue then setStatus status
      else
        match ← inLoop (run { tested := st.tested } body) with
        | .stopped => setStatus 0
        | .passed => runLoop run st untilTrue cond body n (← theShell).status

/-- Runs a script for each of some words. -/
def runEach (run : Runner) (st : Setting) (name : Bytes) (body : Script) : List Bytes → Act Unit
  | [] => return ()
  | v :: vs => do
    assign name v
    match ← inLoop (run { tested := st.tested } body) with
    | .stopped => setStatus 0
    | .passed => runEach run st name body vs

/-- Runs an act as the inside of a loop. -/
def looping (body : Act Unit) : Act Unit := do
  let loops := (← theShell).loops
  changeShell fun sh => { sh with loops := loops + 1 }
  ensure body (changeShell fun sh => { sh with loops := loops })

/-- Runs the first script whose patterns fit. -/
def runSelection (run : Runner) (st : Setting) (subject : Bytes) :
    List (List Word × Script) → Act Unit
  | [] => setStatus 0
  | (patterns, body) :: rest => do
    let fitting ← patterns.anyM fun p => do
      return Pattern.fits (← expandPattern (takeOutput run) p) subject
    if fitting then
      setStatus 0
      run st body
    else runSelection run st subject rest

/-- Sets the clock. -/
def setClock (t : Nat) : Act Unit :=
  changeMachine fun m => { m with clock := t }

/-- **Runs two scripts at the same time**, the second of which reads what the first writes. -/
def runPipe (run : Runner) (first second : Script) : Act Unit := do
  let start := (← theMachine).clock
  let sink ← newSink
  let _ ← awaited (← forkScript run {} (redirectTo 1 (some (.sink sink))) first)
  let firstEnd := (← theMachine).clock
  let source ← newSource ((← theMachine).gathered sink)
  setClock start
  let e ← awaited (← forkScript run {} (redirectTo 0 (some (.source source))) second)
  setClock (max firstEnd (← theMachine).clock)
  spend 0
  settle e

/-- Runs a script beside what follows. -/
def runBeside (run : Runner) (body : Script) : Act Unit := do
  let before ← theMachine
  let pid := before.nextPid + 1
  let e ← forkScript run {} (redirectTo 0 (some .nowhere)) body
  let job : Job := { pid, finish := (← theMachine).clock, ending := e }
  setClock before.clock
  changeShell fun sh => { sh with lastJob := some pid, status := 0, jobs := job :: sh.jobs }

/-- Runs a script in a process of its own, or in this one if nothing follows. -/
def runSubshell (run : Runner) (st : Setting) (body : Script) : Act Unit := do
  if st.last ∧ (← theShell).handlers = [] then
    runToEnd run (run { st with last := true } body)
  else
    settle (← awaited (← forkScript run st (return ()) body))

/-- **Runs a script** with the help of a runner for smaller ones; `rounds` bounds its loops. -/
def evalWith (run : Runner) (rounds : Nat) (st : Setting) : Script → Act Unit
  | .nothing => return ()
  | .simple line assigns words redirects => runSimple run st line assigns words redirects
  | .seq a b => do
    run { st with last := false } a
    run st b
  -- the failure of a command whose status is asked for never stops the shell
  | .andThen a b => do
    run { tested := true } a
    if (← theShell).status = 0 then run st b
  | .orElse a b => do
    run { tested := true } a
    if (← theShell).status ≠ 0 then run st b
  | .negate a => do
    run { tested := true } a
    setStatus (if (← theShell).status = 0 then 1 else 0)
  | .pipe a b => do
    runPipe run a b
    feel run signalBudget
    stopIfFailed st
  | .subshell a => do
    runSubshell run st a
    feel run signalBudget
    stopIfFailed st
  | .group a redirects =>
    redirected run redirects (do setStatus 2; stopIfFailed st) (run { st with last := false } a)
  | .branch cond yes no => do
    run { tested := true } cond
    if (← theShell).status = 0 then run st yes
    else
      setStatus 0
      run st no
  | .loop untilTrue cond body => looping (runLoop run st untilTrue cond body rounds 0)
  | .each name items body => do
    let values ← match items with
      | none => pure (← theShell).args
      | some ws => do pure (← ws.mapM (expandWord (takeOutput run))).flatten
    setStatus 0
    looping (runEach run st name body values)
  | .select subject arms => do
    runSelection run st (← expandWhole (takeOutput run) subject) arms
  | .define name body => do
    changeShell fun sh =>
      { sh with functions := (name, body) :: sh.functions.filter fun p => p.1 ≠ name }
    setStatus 0
  | .background a => runBeside run a
  | .broken line message => do
    changeShell fun sh => { sh with line := line }
    giveUp (Text.bytes message)

/-- **Runs a script**, nested no deeper than a budget. -/
def eval : Nat → Setting → Script → Act Unit
  | 0, _, _ => hang
  | n + 1, st, s => evalWith (eval n) n st s

/-- How deep scripts may be nested, and how often loops may go round. -/
def evalBudget : Nat := 100000000

end QualityGate.Shell
