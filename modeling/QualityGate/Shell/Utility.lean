import QualityGate.Shell.Condition
import QualityGate.Shell.Expansion
import QualityGate.Shell.Format
/-!
The programs of the system that scripts use most, apart from those that start other programs. Each
acts on the scene and yields a status. Several are commands of the shell itself as well.
-/

namespace QualityGate.Shell

open Host (FileTree Location Errno)

/-- **A program**: its arguments to its status. -/
abbrev Utility := List Bytes → Act Nat

namespace Utility

/-! ### Writing -/

/-- Writes to standard output; the status tells whether it is open. -/
def print (bs : Bytes) : Act Nat := do
  return if ← write 1 bs then 0 else 1

/-- Writes a line about a fault to standard error. -/
def report (name message : Bytes) : Act Unit := do
  let _ ← write 2 (name ++ Text.bytes ": " ++ message ++ [lineFeed])

/-- The line of a fault with a file. -/
def reportFile (name : String) (lead path : Bytes) (e : Errno) : Act Unit :=
  report (Text.bytes name) (lead ++ path ++ Text.bytes (": " ++ e.sentence))

/-- Prints words. -/
def echo : Utility := fun args => do
  match (← theShell).dialect with
  | .posix => print (Format.echoEscaped args)
  | .bash => print (Format.echoOptional args)

/-- Prints values by a format. -/
def printf : Utility := fun args => do
  match if args.head? = some [byte '-', byte '-'] then args.drop 1 else args with
  | [] =>
    complain (Text.bytes "usage: printf format [arg ...]")
    return 2
  | fmt :: rest =>
    let p := Format.print fmt rest
    let status ← print p.out.reverse
    for c in p.complaints do
      complain c
    return if p.broken then 2 else if p.complaints = [] then status else 1

/-! ### Conditions -/

/-- Answers a condition by its status. -/
def test : Utility := fun args => do
  let s ← get
  match Condition.holds ⟨s.machine.files, s.shell.cwd⟩ args with
  | .ok true => return 0
  | .ok false => return 1
  | .error f => complain f.message; return 2

/-- The same between brackets. -/
def bracket : Utility := fun args => do
  match args.getLast? with
  | some [0x5D] => test args.dropLast
  | _ => complain (Text.bytes "missing ]"); return 2

/-! ### Files -/

/-- The content of a file, where `-` is standard input. -/
def contentOf (path : Bytes) : Act (Except Errno Bytes) := do
  if path = [byte '-'] then return .ok ((← readAll 0).getD [])
  else
    let s ← get
    return s.machine.files.read s.shell.cwd path

/-- Does something with the content of each file, or of standard input if none is named. -/
def eachContent (name : String) (paths : List Bytes) (f : Bytes → Bytes → Act Unit) : Act Nat := do
  if paths = [] then
    f [] ((← readAll 0).getD [])
    return 0
  else
    let mut status := 0
    for p in paths do
      match ← contentOf p with
      | .ok data => f p data
      | .error e =>
        reportFile name [] p e
        status := 1
    return status

/-- Copies files to standard output. -/
def cat : Utility := fun args =>
  eachContent "cat" (args.filter fun a => a.head? ≠ some (byte '-') || a = [byte '-']) fun _ data => do
    let _ ← print data

/-- Lists the names in directories. -/
def ls : Utility := fun args => do
  let options := (args.filter fun a => a.head? = some (byte '-')).flatten
  let paths := args.filter fun a => a.head? ≠ some (byte '-')
  let hidden := options.contains (byte 'a') || options.contains (byte 'A')
  let shown := if paths = [] then [[Host.Path.dot]] else sortBytes paths
  let mut status := 0
  for p in shown do
    let s ← get
    match s.machine.files.stat s.shell.cwd p with
    | .ok (l, .directory) =>
      let names := (s.machine.files.children l).filter fun n =>
        hidden || n.head? ≠ some Host.Path.dot
      let dots := if options.contains (byte 'a') then [[Host.Path.dot], [Host.Path.dot, Host.Path.dot]]
        else []
      if 1 < shown.length then
        let _ ← print (p ++ [byte ':', lineFeed])
      let _ ← print ((dots ++ sortBytes names).flatMap fun n => n ++ [lineFeed])
    | .ok _ =>
      let _ ← print (p ++ [lineFeed])
    | .error e =>
      reportFile "ls" (Text.bytes "cannot access '") (p ++ [0x27]) e
      status := 2
  return status

/-- Changes the files of the machine. -/
def changeFiles (t : FileTree) : Act Unit :=
  changeMachine fun m => { m with files := t }

/-- Makes files that are not there. -/
def touch : Utility := fun args => do
  let mut status := 0
  for p in args do
    let s ← get
    let t := s.machine.files
    if !t.exists? s.shell.cwd p then
      match t.write s.shell.cwd p [] with
      | (.ok (), t) => changeFiles t
      | (.error e, _) =>
        reportFile "touch" (Text.bytes "cannot touch '") (p ++ [0x27]) e
        status := 1
  return status

/-- Makes directories, with `-p` those above them too. -/
def mkdir : Utility := fun args => do
  let above := args.any fun a => a.head? = some (byte '-') && a.contains (byte 'p')
  let mut status := 0
  for p in args.filter fun a => a.head? ≠ some (byte '-') do
    let s ← get
    let t := s.machine.files
    let fault (e : Errno) : Act Unit :=
      reportFile "mkdir" (Text.bytes "cannot create directory '") (p ++ [0x27]) e
    let pieces := (Text.splitBytes Host.Path.slash p).filter fun n => n ≠ [] && n ≠ [Host.Path.dot]
    if above then
      let start := if Host.Path.isAbsolute p then [] else s.shell.cwd
      changeFiles (t.makeDirectories (start ++ pieces))
    else
      match t.locate s.shell.cwd p with
      | .error e => fault e; status := 1
      | .ok l =>
        if (t.at? l).isSome then fault ⟨17⟩; status := 1
        else changeFiles (t.put l .directory)
  return status

/-- Takes files away, with `-r` directories too. -/
def rm : Utility := fun args => do
  let options := (args.filter fun a => a.head? = some (byte '-')).flatten
  let deep := options.contains (byte 'r') || options.contains (byte 'R')
  let quiet := options.contains (byte 'f')
  let mut status := 0
  for p in args.filter fun a => a.head? ≠ some (byte '-') do
    let s ← get
    let t := s.machine.files
    let fault (e : Errno) : Act Unit :=
      reportFile "rm" (Text.bytes "cannot remove '") (p ++ [0x27]) e
    match t.stat s.shell.cwd p with
    | .error e => if !quiet then fault e; status := 1
    | .ok (l, .directory) =>
      if deep then changeFiles { t with entries := t.entries.filter fun e => !l.isPrefixOf e.1 }
      else fault .isDirectory; status := 1
    | .ok (l, _) => changeFiles (t.erase l)
  return status

/-- The lines of some bytes, each with its line feed. -/
def linesOf (bs : Bytes) : List Bytes :=
  match Text.splitBytes lineFeed bs with
  | [] => []
  | ps =>
    (ps.dropLast.map fun p => p ++ [lineFeed]) ++
      (if ps.getLast? = some [] then [] else ps.drop (ps.length - 1))

/-- The number that an option `-n` gives, and the words apart from it. -/
def countOption : List Bytes → Nat × List Bytes
  | [0x2D, 0x6E] :: n :: rest => (natOf n, rest)
  | (0x2D :: 0x6E :: n) :: rest => (natOf n, rest)
  | (0x2D :: d :: n) :: rest => if isDigit d then (natOf (d :: n), rest) else (10, rest)
  | args => (10, args)

/-- Prints the first lines. -/
def head : Utility := fun args => do
  let (n, paths) := countOption args
  eachContent "head" paths fun _ data => do
    let _ ← print ((linesOf data).take n).flatten

/-- Prints the last lines. -/
def tail : Utility := fun args => do
  let (n, paths) := countOption args
  eachContent "tail" paths fun _ data => do
    let ls := linesOf data
    let _ ← print (ls.drop (ls.length - n)).flatten

/-- Counts lines, or bytes with `-c`. -/
def wc : Utility := fun args => do
  let bytesOnly := args.contains (Text.bytes "-c")
  eachContent "wc" (args.filter fun a => a.head? ≠ some (byte '-')) fun path data => do
    let n := if bytesOnly then data.length else data.count lineFeed
    let _ ← print (decimal n ++ (if path = [] then [] else 0x20 :: path) ++ [lineFeed])

/-! ### Words -/

/-- Prints numbers in order. -/
def seq : Utility := fun args => do
  let (first, last) := match args.map fun a => (intOf? a).getD 0 with
    | [l] => (1, l)
    | [f, l] => (f, l)
    | _ => (1, 0)
  print ((List.range (last - first + 1).toNat).flatMap fun (i : Nat) =>
    decimal (first + (i : Int)) ++ [lineFeed])

/-- A path without the slashes at its end. -/
def trimSlashes (p : Bytes) : Bytes :=
  (p.reverse.dropWhile (· = Host.Path.slash)).reverse

/-- Prints the last component of a path. -/
def basename : Utility := fun args => do
  let p := trimSlashes ((args.head?).getD [])
  let name := (p.reverse.takeWhile (· ≠ Host.Path.slash)).reverse
  let suffix := (args[1]?).getD []
  let name := if suffix.isSuffixOf name ∧ suffix ≠ name then name.take (name.length - suffix.length)
    else name
  print ((if name = [] then [Host.Path.slash] else name) ++ [lineFeed])

/-- Prints a path without its last component. -/
def dirname : Utility := fun args => do
  let p := trimSlashes ((args.head?).getD [])
  let above := p.reverse.dropWhile (· ≠ Host.Path.slash)
  let above := trimSlashes above.reverse
  print ((if above ≠ [] then above else if p.head? = some Host.Path.slash then [Host.Path.slash]
    else [Host.Path.dot]) ++ [lineFeed])

/-- Prints lines in the order of their bytes. -/
def sort : Utility := fun args => do
  let sorted := fun (data : Bytes) =>
    (sortBytes ((linesOf data).map fun l => l.filter (· ≠ lineFeed))).flatMap (· ++ [lineFeed])
  eachContent "sort" (args.filter fun a => a.head? ≠ some (byte '-')) fun _ data => do
    let _ ← print (sorted data)

/-- Names the system. -/
def uname : Utility := fun _ => print (Text.bytes "Linux\n")

/-! ### Time and signals -/

/-- Nanoseconds that a time with a unit letter stands for. -/
def nanosOf? (s : Bytes) : Option Nat :=
  let whole := s.takeWhile isDigit
  let rest := s.dropWhile isDigit
  let (fraction, rest) := match rest with
    | 0x2E :: r => (r.takeWhile isDigit, r.dropWhile isDigit)
    | r => ([], r)
  let unit? := match rest with
    | [] => some 1
    | [u] => [(byte 's', 1), (byte 'm', 60), (byte 'h', 3600), (byte 'd', 86400)].lookup u
    | _ => none
  if whole = [] ∧ fraction = [] then none
  else
    unit?.map fun unit =>
      (natOf (whole ++ fraction) * unit * 1000000000) / Nat.pow 10 fraction.length

/-- A time that is never over. -/
def forever : Nat := 1000000000000000000000

/-- Waits. -/
def sleep : Utility := fun args => do
  if args = [] then
    report (Text.bytes "sleep") (Text.bytes "missing operand\nTry 'sleep --help' for more information.")
    return 1
  else
    let mut total := 0
    for a in args do
      if a = Text.bytes "infinity" then total := forever
      else
        match nanosOf? a with
        | some n => total := total + n
        | none =>
          let hint := Text.bytes "'\nTry 'sleep --help' for more information."
          report (Text.bytes "sleep") (Text.bytes "invalid time interval '" ++ a ++ hint)
          return 1
    spend total
    return 0

/-- The names of signals that shells know beside those of the standard ones. -/
def furtherSignals : List (String × Nat) :=
  [("SIGEXIT", 0), ("SIGRTMIN", 34), ("SIGRTMAX", 64)]

/-- The number of a signal that is given by number or name, which may start with `SIG` in one family
of shells. -/
def signalOf? (dialect : Dialect) (s : Bytes) : Option Nat :=
  if s ≠ [] ∧ s.all isDigit then if natOf s < 65 then some (natOf s) else none
  else
    let name := (Text.lossy s).toUpper
    let full := if name.startsWith "SIG" ∧ dialect = .bash then name else "SIG" ++ name
    if full = "SIGSTKFLT" ∧ dialect = .posix then none
    else
      match furtherSignals.lookup full with
      | some n => some n
      | none => (Signal.names.findIdx? (· = full)).map (· + 1)

/-- Sends a signal to each of some processes. -/
def sendAll (signal : Nat) (pids : List Bytes) : Act Nat := do
  let mut status := 0
  for p in pids do
    match intOf? p with
    | none => complain (Text.bytes "Illegal number: " ++ p); status := 2
    | some pid =>
      if ← isAlive pid.toNat then send pid.toNat signal
      else if (← runningJob? pid.toNat).isSome then endJob pid.toNat signal
      else
        complain (Text.bytes "No such process\n")
        status := 1
  return status

/-- Sends signals. -/
def kill : Utility := fun args => do
  let dialect := (← theShell).dialect
  let (signal, pids) : Except Bytes Nat × List Bytes := match args with
    | [0x2D, 0x73] :: name :: pids =>
      match signalOf? dialect name with
      | some g => (.ok g, pids)
      | none => (.error (Text.bytes "invalid signal number or name: " ++ name), [])
    | (0x2D :: name) :: pids =>
      match signalOf? dialect name with
      | some g => (.ok g, pids)
      | none => (.error (Text.bytes "Illegal option -" ++ name.take 1), [])
    | pids => (.ok 15, pids)
  match signal, pids with
  | .error message, _ =>
    complain message
    return 2
  | .ok _, [] =>
    complain (Text.bytes ("Usage: kill [-s sigspec | -signum | -sigspec] [pid | job]... or\n" ++
      "kill -l [exitstatus]"))
    return 2
  | .ok g, pids => sendAll g pids

/-- Prints the working directory. -/
def pwd : Utility := fun _ => do
  print ((← theShell).workingPath ++ [lineFeed])

/-! ### All of them -/

/-- Succeeds. -/
def succeed : Utility := fun _ => return 0

/-- Fails. -/
def fail : Utility := fun _ => return 1

/-- **The programs by name**, with those that start other programs left out. -/
def table : List (String × Utility) :=
  [("true", succeed), ("false", fail), ("echo", fun args => print (Format.echoOptional args)),
   ("printf", printf), ("test", test), ("[", bracket), ("cat", cat), ("ls", ls), ("touch", touch),
   ("mkdir", mkdir), ("rm", rm), ("head", head), ("tail", tail), ("wc", wc), ("seq", seq),
   ("basename", basename), ("dirname", dirname), ("sort", sort), ("uname", uname), ("sleep", sleep),
   ("kill", kill), ("pwd", pwd)]

/-- The programs that are shells, or start a program in a changed environment. -/
def starters : List String := ["sh", "dash", "bash", "env"]

/-- Programs that are there and do nothing that could be seen. -/
def idleNames : List String :=
  ["awk", "base64", "chgrp", "chmod", "chown", "cksum", "cmp", "comm", "cp", "cut", "date", "dd", "df",
   "diff", "du", "expr", "find", "fold", "grep", "gzip", "hostname", "id", "install", "join", "ln",
   "md5sum", "mktemp", "mv", "nice", "nl", "nohup", "nproc", "od", "paste", "perl", "printenv",
   "readlink", "realpath", "rmdir", "sed", "setsid", "sha1sum", "sha256sum", "shuf", "split", "stat",
   "stty", "sync", "tac", "tar", "tee", "timeout", "tr", "truncate", "tty", "uniq", "which", "who",
   "whoami", "xargs", "yes"]

/-- The names of all programs. -/
def names : List String :=
  starters ++ table.map (·.1) ++ idleNames

/-- **The commands that a shell has itself** and that behave like programs. -/
def ownTable : List (String × Utility) :=
  [("true", succeed), ("false", fail), ("echo", echo), ("printf", printf), ("test", test),
   ("[", bracket), ("kill", kill), ("pwd", pwd)]

end Utility
end QualityGate.Shell
