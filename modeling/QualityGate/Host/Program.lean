import QualityGate.Host.FileTree
import QualityGate.Environment.Venv
/-!
What a process becomes when it is given a file to execute. A program of the system is one at once; a
script names its interpreter on its first line, and that one is executed in its place. By a name
alone a file is looked for along a search path.
-/

namespace QualityGate.Host

/-- **A program of the system with the words it is called with**, its own name first. -/
structure Image where
  utility : String
  argv : List Bytes
  deriving DecidableEq, Repr

namespace FileTree

/-- A space or a tab. -/
def isGap (b : UInt8) : Bool :=
  b = 0x20 || b = 0x09

/-- The longest first line that is looked at for an interpreter. -/
def interpreterLimit : Nat := 255

/-- **The interpreter that a script names** after `#!`, with the argument after it if there is one. -/
def interpreter? (data : Bytes) : Option (Bytes × Option Bytes) :=
  match data with
  | 0x23 :: 0x21 :: r =>
    let line := ((r.take interpreterLimit).takeWhile (· ≠ 0x0A)).dropWhile isGap
    let line := (line.reverse.dropWhile isGap).reverse
    let program := line.takeWhile (!isGap ·)
    let argument := (line.drop program.length).dropWhile isGap
    if program = [] then none else some (program, if argument = [] then none else some argument)
  | _ => none

/-- How many interpreters may be scripts themselves. -/
def interpreterDepth : Nat := 5

/-- The image of a file, through so many interpreters at most. -/
def imageThrough (t : FileTree) (cwd : Location) : Nat → Bytes → List Bytes → Except Errno Image
  | 0, _, _ => .error ⟨40⟩
  | n + 1, path, argv =>
    match t.stat cwd path with
    | .error e => .error e
    | .ok (_, .directory) | .ok (_, .device) => .error .accessDenied
    | .ok (_, .utility name) => .ok ⟨name, argv⟩
    | .ok (_, .file data executable) =>
      if !executable then .error .accessDenied
      else
        match interpreter? data with
        | none => .error .badFormat
        | some (program, argument) =>
          imageThrough t cwd n program (program :: argument.toList ++ path :: argv.drop 1)

/-- **The image of a file** that is executed with some words. -/
def image (t : FileTree) (cwd : Location) (path : Bytes) (argv : List Bytes) : Except Errno Image :=
  t.imageThrough cwd interpreterDepth path argv

/-- The shell that runs files which no loader knows how to start. -/
def standardShell : Bytes := Text.bytes "/bin/sh"

/-- The image of a file that is given to the shell if no loader knows it. -/
def imageOrScript (t : FileTree) (cwd : Location) (path : Bytes) (argv : List Bytes) :
    Except Errno Image :=
  match t.image cwd path argv with
  | .error e =>
    if e = .badFormat then t.image cwd standardShell (standardShell :: path :: argv.drop 1)
    else .error e
  | r => r

/-- Where programs are looked for without a search path. -/
def standardPath : Bytes := Text.bytes "/bin:/usr/bin"

/-- A program under an entry of a search path; an empty entry is the working directory. -/
def under (entry program : Bytes) : Bytes :=
  if entry = [] then program else entry ++ Path.slash :: program

/-- Whether a search goes on after an error. -/
def passesOver (e : Errno) : Bool :=
  e = .noEntry || e = .notDirectory

/-- The first candidate that can be executed. Candidates that are not there are passed over, and
those that may not be executed too, but then that is what is wrong in the end. -/
def firstImage (start : Bytes → Except Errno Image) (denied : Bool) : List Bytes → Except Errno Image
  | [] => .error (if denied then .accessDenied else .noEntry)
  | c :: cs =>
    match start c with
    | .ok i => .ok i
    | .error e =>
      if e = .accessDenied then firstImage start true cs
      else if passesOver e then firstImage start denied cs
      else .error e

/-- **The image of a program by name.** A name with a slash in it is a path; others are looked for
along a search path. With `orScript`, files that no loader knows are given to the shell. -/
def imageByName (t : FileTree) (cwd : Location) (orScript : Bool) (path : Option Bytes)
    (program : Bytes) (argv : List Bytes) : Except Errno Image :=
  let start := fun c => if orScript then t.imageOrScript cwd c argv else t.image cwd c argv
  if program = [] then .error .noEntry
  else if Path.slash ∈ program then start program
  else
    firstImage start false
      ((Text.splitBytes Environment.colon (path.getD standardPath)).map fun e => under e program)

end FileTree
end QualityGate.Host
