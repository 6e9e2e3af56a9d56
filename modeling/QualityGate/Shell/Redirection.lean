import QualityGate.Shell.Runner
/-!
Redirections and assignments around a command. Both are undone when the command is over, however it
is left.
-/

namespace QualityGate.Shell

open Host (FileTree Errno)

/-! ### Redirections -/

/-- A new place for gathered bytes. -/
def newSink : Act Nat := do
  let i := (← theMachine).sinks.size
  changeMachine fun m => { m with sinks := m.sinks.push [] }
  return i

/-- A new place from which bytes can be read. -/
def newSource (bs : Bytes) : Act Nat := do
  let i := (← theMachine).sources.size
  changeMachine fun m => { m with sources := m.sources.push bs }
  return i

/-- Lets a descriptor lead somewhere else, or nowhere at all. -/
def redirectTo (fd : Nat) (s : Option Stream) : Act Unit :=
  changeShell fun sh =>
    let others := sh.streams.filter fun p => p.1 ≠ fd
    { sh with streams := match s with
      | some s => (fd, s) :: others
      | none => others }

/-- The stream of a file that is opened, or why it cannot be. -/
def openFile (kind : RedirectKind) (path : Bytes) : Act (Except Errno Stream) := do
  let s ← get
  let t := s.machine.files
  match t.locate s.shell.cwd path with
  | .error e => return .error e
  | .ok l =>
    if t.at? l = some .device then return .ok .nowhere
    else if l = [Text.bytes "dev", Text.bytes "stdout"] then return .ok ((← stream? 1).getD .nowhere)
    else if l = [Text.bytes "dev", Text.bytes "stderr"] then return .ok ((← stream? 2).getD .nowhere)
    else if kind = .input then
      match t.read s.shell.cwd path with
      | .error e => if e = .isDirectory then return .ok .nowhere else return .error e
      | .ok bs => return .ok (.source (← newSource bs))
    else
      match t.at? l with
      | some .directory => return .error .isDirectory
      | some (.file data x) =>
        -- opening for writing empties the file, whether or not anything is written
        Utility.changeFiles (t.put l (.file (if kind = .append then data else []) x))
        return .ok (.file l)
      | some (.utility _) => return .error ⟨26⟩
      | some .device => return .ok .nowhere
      | none =>
        Utility.changeFiles (t.put l (.file [] false))
        return .ok (.file l)

/-- What a shell says of a file that it cannot open. -/
def openComplaint (dialect : Dialect) (kind : RedirectKind) (path : Bytes) (e : Errno) : Bytes :=
  let absent := e = .noEntry || e = .notDirectory
  match dialect with
  | .bash => path ++ Text.bytes (": " ++ e.sentence)
  | .posix =>
    if kind = .input then
      Text.bytes "cannot open " ++ path ++
        Text.bytes (": " ++ if absent then "No such file" else e.sentence)
    else
      Text.bytes "cannot create " ++ path ++
        Text.bytes (": " ++ if absent then "Directory nonexistent" else e.sentence)

/-- The output of a script, run in a process of its own. -/
def takeOutput (run : Runner) (source : Bytes) : Act Bytes := do
  let sink ← newSink
  let e ← awaited (← forkScript run {} (redirectTo 1 (some (.sink sink))) (Script.ofBytes source))
  notice e
  changeShell fun sh => { sh with takenStatus := e.status }
  return (← theMachine).gathered sink

/-- **Carries out one redirection**; tells whether it could. -/
def redirect (run : Runner) (r : Redirect) : Act Bool := do
  let target ← expandWhole (takeOutput run) r.target
  if r.kind = .document then
    redirectTo r.fd (some (.source (← newSource target)))
    return true
  else if r.kind = .copy then
    if target = [byte '-'] then redirectTo r.fd none; return true
    else if target ≠ [] ∧ target.all isDigit then
      match ← stream? (natOf target) with
      | some s => redirectTo r.fd (some s); return true
      | none =>
        complain (target ++ Text.bytes ": Bad file descriptor")
        return false
    else
      complain (Text.bytes "Syntax error: Bad fd number")
      throw (.exit 2)
  else
    match ← openFile r.kind target with
    | .ok s => redirectTo r.fd (some s); return true
    | .error e =>
      complain (openComplaint (← theShell).dialect r.kind target e)
      return false

/-- Carries out redirections up to one that cannot be. -/
def redirectAll (run : Runner) : List Redirect → Act Bool
  | [] => return true
  | r :: rs => do if ← redirect run r then redirectAll run rs else return false

/-- **Runs an act with redirections around it**; where one cannot be carried out, another act. -/
def redirected (run : Runner) (rs : List Redirect) (failed body : Act Unit) : Act Unit := do
  if rs = [] then body
  else
    let streams := (← theShell).streams
    ensure (do if ← redirectAll run rs then body else failed)
      (changeShell fun sh => { sh with streams := streams })

/-! ### Assignments -/

/-- Makes assignments in order. -/
def assignAll (run : Runner) (exported : Bool) : List (Bytes × Word) → Act Unit
  | [] => return ()
  | (name, w) :: rest => do
    assign name (← expandWhole (takeOutput run) w)
    if exported then markExported name
    assignAll run exported rest

/-- Runs an act with exported assignments that last no longer than it. -/
def assigned (run : Runner) (assigns : List (Bytes × Word)) (body : Act Unit) : Act Unit := do
  if assigns = [] then body
  else
    let before := (← theShell).vars
    let restore (vars : List (Bytes × Variable)) (a : Bytes × Word) : List (Bytes × Variable) :=
      match before.lookup a.1 with
      | some v => changeVar a.1 (fun _ => v) vars
      | none => vars.filter fun p => p.1 ≠ a.1
    ensure (do assignAll run true assigns; body)
      (changeShell fun sh => { sh with vars := assigns.foldl restore sh.vars })

end QualityGate.Shell
